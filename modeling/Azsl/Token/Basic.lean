/-
Azsl.Token.Basic — the tokens of a shader source and their kinds.

A token knows its text, where it starts and ends, and whether only white space stands before
it on its line. Comments and preprocessor lines are tokens too; they are trivia, which may
stand between any two other tokens.
-/
import Azsl.Text.Location

namespace Azsl

/-- What a token is. -/
inductive TokenKind where
  | word
  | integerLiteral
  | floatLiteral
  | stringLiteral
  | punct
  /-- The word `#include`, which the path of a file follows. -/
  | includeDirective
  | includePath
  | comment
  /-- Any other preprocessor line. -/
  | directive
  /-- A character that starts no other token. -/
  | unknown
deriving DecidableEq, Repr, Inhabited

namespace TokenKind

/-- Trivia belongs to no production of the grammar. -/
def isTrivia : TokenKind → Bool
  | comment | directive => true
  | _ => false

end TokenKind

/-- A token in place. -/
structure Token where
  kind : TokenKind
  start : Location
  stop : Location
  text : String
  /-- Only white space stands before the token on its line. -/
  leadsLine : Bool
deriving DecidableEq, Repr, Inhabited

namespace Token

/-- Whether the token is this keyword or this punctuation. -/
def is (token : Token) (text : String) : Bool :=
  (token.kind == .word || token.kind == .punct) && token.text == text

end Token

end Azsl
