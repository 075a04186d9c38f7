/-
Azsl.Grammar.Parse — the syntax tree of a text.

Parsing never fails: what no declaration matches becomes an error node. Given the tree of an
earlier text that has followed all edits since, declarations the edits did not touch are
copied instead of parsed again, if the new tokens still line up with their bounds.
-/
import Azsl.Grammar.TopLevel
import Azsl.Text.Source
import Azsl.Token.Scan

namespace Azsl

namespace Parse

/-- How far the parse of a file has come. -/
structure Progress where
  state : ParseState
  /-- Declarations of the earlier tree that may still be copied. -/
  earlier : List Node
  stats : ReuseStats

/-! ## Reuse -/

/-- An untouched declaration among some in source order that starts at a byte. -/
def candidate? (earlier : List Node) (byte : Nat) : Option Node :=
  match earlier.dropWhile (·.start.byte < byte) with
  | node :: _ =>
    if node.start.byte = byte ∧ !node.hasChanges ∧ !node.hasError ∧ node.kind.isSelfDelimiting
    then some node else none
  | [] => none

/-- The input behind a declaration that ends at a byte, if a token ends there. -/
def restBehind? (rest : List Lexeme) (byte : Nat) : Option (List Lexeme) :=
  let covered := rest.takeWhile (·.token.stop.byte ≤ byte)
  if covered.getLast?.any (·.token.stop.byte == byte) then some (rest.drop covered.length)
  else none

/-- Copy the earlier declaration at the front of the input, if there is one. -/
def reuse? (starts : List Nat) (progress : Progress) : Option Progress :=
  match progress.state.rest with
  | [] => none
  | next :: _ =>
    let byte := next.token.start.byte
    match candidate? progress.earlier byte with
    | none => none
    | some node =>
      match restBehind? progress.state.rest node.stop.byte with
      | none => none
      | some rest =>
        let state := progress.state.flush
        some
          { state := { state with
              built := node.relocate (pointAmong starts) :: state.built
              rest := rest }
            earlier := progress.earlier.dropWhile (·.start.byte < byte)
            stats := { progress.stats with reused := progress.stats.reused + 1 } }

/-! ## Files -/

/-- Parse the declaration at the front of the input, or pass over what is none. -/
def declare (grammar : Grammar) (state : ParseState) : ParseState :=
  match Production.topLevelDeclaration grammar 0 state with
  | .ok next =>
    if next.rest.length = state.rest.length then Recovery.topLevel.run next else next
  | .error _ => Recovery.topLevel.run state

/-- Take the declaration at the front of the input, copied or parsed. -/
def advance (grammar : Grammar) (starts : List Nat) (progress : Progress) : Progress :=
  match reuse? starts progress with
  | some next => next
  | none =>
    { progress with
      state := declare grammar progress.state
      stats := { progress.stats with reparsed := progress.stats.reparsed + 1 } }

/-- Take declarations until the input is used up, at most `fuel` of them. -/
def declarations (grammar : Grammar) (starts : List Nat) : Nat → Progress → Progress
  | 0, progress => progress
  | fuel + 1, progress =>
    if progress.state.atEnd then progress
    else declarations grammar starts fuel (advance grammar starts progress)

/-- The state before the first token of a text. -/
def initial (chars : List Char) : ParseState :=
  let (lexemes, trailing) := Lexeme.group (tokenize chars)
  ⟨[], lexemes, trailing, Location.origin.advance chars⟩

/-- The declarations of an earlier tree, comments and directives left out. -/
def earlierDeclarations (old : Option SyntaxTree) : List Node :=
  match old with
  | none => []
  | some tree => tree.root.children.filter (!·.kind.isExtra)

/-- The tree of a whole text, from the state behind its last token. -/
def finish (progress : Progress) : SyntaxTree :=
  let state := progress.state.flush
  ⟨.build .sourceFile .origin state.textEnd state.built.reverse, progress.stats⟩

end Parse

/-- The syntax tree of a text, with the help of an earlier tree if there is one. -/
def parse (chars : List Char) (old : Option SyntaxTree) : SyntaxTree :=
  let state := Parse.initial chars
  let tokens := state.rest.length
  Parse.finish <|
    Parse.declarations (Grammar.forTokens tokens) (lineStarts chars) tokens
      ⟨state, Parse.earlierDeclarations old, ⟨0, 0⟩⟩

end Azsl
