/-
Azsl.Grammar.Lookahead — the tokens that are still to be parsed.

The input of the grammar is a list of lexemes: a token that is not trivia, with the trivia in
front of it. Everything the grammar asks about what comes next is a function of that list, and
none of it looks at the trivia but `contiguous`.
-/
import Azsl.Grammar.Keyword
import Azsl.Token.Basic

namespace Azsl

/-- A token of the grammar with the trivia between it and the one before. -/
structure Lexeme where
  leading : List Token
  token : Token
deriving DecidableEq, Repr, Inhabited

namespace Lexeme

/-- Attach every run of trivia to the token behind it; what is left over stands at the end of
the text. -/
def group : List Token → List Lexeme × List Token
  | [] => ([], [])
  | token :: rest =>
    let (lexemes, trailing) := group rest
    if token.kind.isTrivia then
      match lexemes with
      | [] => ([], token :: trailing)
      | next :: others => ({ next with leading := token :: next.leading } :: others, trailing)
    else (⟨[], token⟩ :: lexemes, trailing)

end Lexeme

namespace Lookahead

/-- The `n`-th token ahead. -/
def token? (rest : List Lexeme) (n : Nat) : Option Token :=
  rest[n]?.map (·.token)

/-- Text of the `n`-th token ahead, empty at the end of the input. -/
def text (rest : List Lexeme) (n : Nat) : String :=
  ((token? rest n).map (·.text)).getD ""

/-- Kind of the `n`-th token ahead. -/
def kind? (rest : List Lexeme) (n : Nat) : Option TokenKind :=
  (token? rest n).map (·.kind)

/-- Whether the `n`-th token ahead is this keyword or this punctuation. -/
def isAt (rest : List Lexeme) (n : Nat) (text : String) : Bool :=
  (token? rest n).any (·.is text)

/-- Whether the next token is one of these keywords or this punctuation. -/
def isAny (rest : List Lexeme) (texts : List String) : Bool :=
  texts.any (isAt rest 0)

/-- Tokens `n` and `n + 1` touch. -/
def adjacent (rest : List Lexeme) (n : Nat) : Bool :=
  match token? rest n, token? rest (n + 1) with
  | some first, some second => first.stop.byte == second.start.byte
  | _, _ => false

/-- Tokens `n` and `n + 1` are not separated by trivia. -/
def contiguous (rest : List Lexeme) (n : Nat) : Bool :=
  match rest[n + 1]? with
  | some second => second.leading.isEmpty
  | none => false

/-- The input behind a run of bracketed attributes; `depth` brackets are open already. -/
def afterAttributes (depth : Nat) : List Lexeme → List Lexeme
  | [] => []
  | lexeme :: rest =>
    if lexeme.token.is "[" then afterAttributes (depth + 1) rest
    else
      match depth with
      | 0 => lexeme :: rest
      | inner + 1 =>
        if lexeme.token.is "]" then afterAttributes inner rest
        else afterAttributes (inner + 1) rest

/-- Text of the first token behind the attributes. -/
def keyword (rest : List Lexeme) : String :=
  text (afterAttributes 0 rest) 0

/-- A name: a word that is not reserved. -/
def isName (rest : List Lexeme) (n : Nat) : Bool :=
  kind? rest n == some .word && !Keyword.isReserved (text rest n)

/-- The two words `unsigned int`. -/
def isUnsignedInt (rest : List Lexeme) : Bool :=
  isAt rest 0 "unsigned" && isAt rest 1 "int" && contiguous rest 0

/-- A built-in type. -/
def isPredefinedType (rest : List Lexeme) : Bool :=
  kind? rest 0 == some .word &&
    ((Keyword.category? (text rest 0)).isSome || isUnsignedInt rest ||
      (text rest 0 == "matrix" && isAt rest 1 "<"))

/-- A token that can start a type. -/
def startsType (rest : List Lexeme) : Bool :=
  if kind? rest 0 == some .word then
    let word := text rest 0
    !Keyword.isReserved word || (Keyword.category? word).isSome ||
      ["typeof", "unsigned", "struct", "class", "interface", "enum"].contains word
  else isAt rest 0 "::"

/-- A storage flag: a flag word is one only when a type can still follow it. -/
def isStorageFlag (rest : List Lexeme) : Bool :=
  kind? rest 0 == some .word && Keyword.isStorageFlag (text rest 0) &&
    (if kind? rest 1 == some .word then
      let next := text rest 1
      Keyword.isReserved next || Keyword.isStorageFlag next || next == "unsigned" ||
        next == "matrix" || !([";", "=", ",", "[", ":", ")"].contains (text rest 2))
    else isAt rest 1 "::")

/-- A literal. -/
def isLiteral (rest : List Lexeme) : Bool :=
  kind? rest 0 == some .integerLiteral || kind? rest 0 == some .floatLiteral ||
    kind? rest 0 == some .stringLiteral || isAny rest ["true", "false"]

/-- A token that can start the operand of a cast to a type of the program's own. -/
def isOperandStart (rest : List Lexeme) : Bool :=
  match kind? rest 0 with
  | some .integerLiteral | some .floatLiteral | some .stringLiteral => true
  | some .word =>
    let word := text rest 0
    !Keyword.isReserved word || (Keyword.category? word).isSome || word == "true" ||
      word == "false"
  | some .punct => isAny rest ["(", "::"]
  | _ => false

/-- A numeric type with its arguments: `float3(`. -/
def isConstructor (rest : List Lexeme) : Bool :=
  if isAt rest 0 "unsigned" && isAt rest 1 "int" then isAt rest 2 "("
  else
    match Keyword.category? (text rest 0) with
    | some .scalar | some .vector | some .matrix => isAt rest 1 "("
    | _ => false

/-- Number of names of the chain `a::b::c` at the front of the input. -/
def chainLength : List Lexeme → Nat
  | [] => 0
  | [name] => if isName [name] 0 then 1 else 0
  | name :: colons :: rest =>
    if isName [name] 0 then
      if colons.token.is "::" then 1 + chainLength rest else 1
    else 0

/-- Number of names of a qualified name, which may start with `::`. -/
def qualifiedLength (rest : List Lexeme) : Nat :=
  chainLength (if isAt rest 0 "::" then rest.drop 1 else rest)

/-- Two opening brackets that touch. -/
def isAttributeSequence (rest : List Lexeme) : Bool :=
  isAt rest 0 "[" && isAt rest 1 "[" && adjacent rest 0

/-- A statement addressed to the compiler. -/
def isCompilerExtension (rest : List Lexeme) : Bool :=
  isAny rest Keyword.compilerExtensions

/-- A label of a switch. -/
def isSwitchLabel (rest : List Lexeme) : Bool :=
  isAny rest ["case", "default"]

/-- A declaration that opens a line: a declaration keyword, a storage flag, a built-in type, a
name followed by a name, or an attribute. An include is one wherever it stands. -/
def isLeadingDeclaration (rest : List Lexeme) : Bool :=
  match token? rest 0 with
  | none => false
  | some token =>
    token.kind == .includeDirective ||
      (token.leadsLine &&
        match token.kind with
        | .word =>
          Keyword.declarationKeywords.contains token.text || Keyword.isStorageFlag token.text ||
            isPredefinedType rest || (!Keyword.isReserved token.text && isName rest 1)
        | .punct => token.text == "["
        | _ => false)

end Lookahead

end Azsl
