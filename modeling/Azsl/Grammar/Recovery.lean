/-
Azsl.Grammar.Recovery — passing over input that no production matches.

Recovery puts tokens into an error node, at least one, up to a place where parsing can go on.
How many tokens that are is decided by `extent` from the input alone. Brackets opened on the
way are passed over as a whole. All kinds of brackets are counted together, so a brace that
closes the block around may be taken for a round or square bracket that is never closed.
-/
import Azsl.Grammar.Production

namespace Azsl

/-- Where the input that cannot be parsed stands. -/
inductive Recovery where
  /-- Between top level declarations: go on at the next line that opens one. -/
  | topLevel
  /-- Inside braces: go on at the closing brace at the latest. -/
  | block
deriving DecidableEq, Repr

namespace Recovery

/-- Whether parsing can go on right before the next token. -/
def stopsBefore (mode : Recovery) (rest : List Lexeme) : Bool :=
  match mode with
  | block => Lookahead.isAt rest 0 "\x7d"
  | topLevel => Lookahead.isLeadingDeclaration rest

/-- Number of brackets open behind a token, or nothing if parsing goes on right behind it:
behind a semicolon, or a brace that closes the last open bracket. -/
def depthAfter (token : Token) (depth : Nat) : Option Nat :=
  if token.kind = .punct then
    if token.text = "\x7b" ∨ token.text = "(" ∨ token.text = "[" then some (depth + 1)
    else if token.text = "\x7d" then
      match depth with
      | 0 => some 0
      | 1 => none
      | outer + 2 => some (outer + 1)
    else if token.text = ")" ∨ token.text = "]" then some (depth - 1)
    else if token.text = ";" ∧ depth = 0 then none
    else some depth
  else some depth

/-- Number of tokens to pass over when at least one has been passed already. -/
def extentFrom (mode : Recovery) (depth : Nat) : List Lexeme → Nat
  | [] => 0
  | next :: rest =>
    if depth = 0 ∧ mode.stopsBefore (next :: rest) then 0
    else
      match depthAfter next.token depth with
      | none => 1
      | some inner => 1 + mode.extentFrom inner rest

/-- Number of tokens to pass over: at least one, unless there are none. -/
def extent (mode : Recovery) : List Lexeme → Nat
  | [] => 0
  | next :: rest =>
    match depthAfter next.token 0 with
    | none => 1
    | some inner => 1 + mode.extentFrom inner rest

/-- Put the input that cannot be parsed into an error node. -/
def run (mode : Recovery) (state : ParseState) : ParseState :=
  let outer := state.flush
  outer.close .error (outer.opened.bumpMany (mode.extent outer.rest))

end Recovery

namespace Production

/-- Pass over some input inside braces. -/
def recover : Production := fun state => .ok (Recovery.block.run state)

/-- Run a production; pass over some input if it does not match or takes nothing. -/
def orRecover (production : Production) : Production := fun state =>
  match production state with
  | .ok next =>
    .ok (if next.rest.length = state.rest.length then Recovery.block.run next else next)
  | .error .mismatch => .ok (Recovery.block.run state)
  | .error .outOfFuel => .error .outOfFuel

/-- Take one more item, or the closing brace. -/
def bracedTurn (item : Production) (state : ParseState) : Except Stop Turn :=
  if state.sees "\x7d" then .ok (.done state.bump)
  else if state.atEnd then .ok (.done state.missing)
  else
    match item state with
    | .ok next => .ok (.again next)
    | .error stop => .error stop

/-- Braces around any number of items. A closing brace that is missing at the end of the input
is an error. -/
def braced (item : Production) : Production :=
  expect "\x7b" >=> loop (bracedTurn item)

end Production

end Azsl
