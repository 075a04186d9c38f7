/-
Azsl.Grammar.Production — the state of a parse and the ways to combine productions.

A production is a function from a state to the state behind what it recognised, or the reason
why it stopped. A state holds the nodes built so far for the innermost open node and the input
that is left. There is nothing to undo when a production does not match: the caller still has
the state it started from.

Trivia goes into the tree when the token behind it is taken or a node is opened before it, so
that it lands in the innermost node that is open at that time.
-/
import Azsl.Grammar.Lookahead
import Azsl.Syntax.Node

namespace Azsl

/-- Why a production stopped. -/
inductive Stop where
  /-- The input is not of this form; another alternative may be tried. -/
  | mismatch
  /-- The bound on the number of steps was too small. -/
  | outOfFuel
deriving DecidableEq, Repr

/-- How far a parse has come. -/
structure ParseState where
  /-- Children of the innermost open node, latest first. -/
  built : List Node
  /-- Input that is left. -/
  rest : List Lexeme
  /-- Trivia behind the last token. -/
  trailing : List Token
  /-- The end of the text. -/
  textEnd : Location
deriving Repr

/-- What recognises a part of the input. -/
abbrev Production := ParseState → Except Stop ParseState

namespace ParseState

/-! ## Looking ahead -/

/-- Whether the next token is this keyword or this punctuation. -/
def sees (state : ParseState) (text : String) : Bool :=
  Lookahead.isAt state.rest 0 text

/-- Whether the input is used up. -/
def atEnd (state : ParseState) : Bool :=
  state.rest.isEmpty

/-! ## Building -/

/-- The node of a piece of trivia. -/
def triviaNode (token : Token) : Node :=
  .leaf (if token.kind = .comment then .comment else .preprocDirective) token.start token.stop

/-- Put the trivia before the next token into the tree. -/
def flush (state : ParseState) : ParseState :=
  match state.rest with
  | [] =>
    { state with
      built := (state.trailing.map triviaNode).reverse ++ state.built
      trailing := [] }
  | next :: others =>
    { state with
      built := (next.leading.map triviaNode).reverse ++ state.built
      rest := { next with leading := [] } :: others }

/-- Take the next `count + 1` tokens as a single leaf. -/
def bumpJoined (count : Nat) (kind : NodeKind) (state : ParseState) : ParseState :=
  let state := state.flush
  match Lookahead.token? state.rest 0, Lookahead.token? state.rest count with
  | some first, some last =>
    { state with
      built := .leaf kind first.start last.stop :: state.built
      rest := state.rest.drop (count + 1) }
  | _, _ => state

/-- Take the next token as a leaf. -/
def bumpAs (kind : NodeKind) (state : ParseState) : ParseState :=
  state.bumpJoined 0 kind

/-- Take the next token. -/
def bump (state : ParseState) : ParseState :=
  state.bumpAs .token

/-- Take a number of tokens, each as a leaf of its own. -/
def bumpMany : Nat → ParseState → ParseState
  | 0, state => state
  | n + 1, state => bumpMany n state.bump

/-- The same input, with a new node open. -/
def opened (state : ParseState) : ParseState :=
  { state with built := [] }

/-- Close the node that was opened in `outer` and built up in `inner`. -/
def close (outer : ParseState) (kind : NodeKind) (inner : ParseState) : ParseState :=
  { inner with built := .ofChildren kind inner.built.reverse :: outer.built }

/-- Wrap everything built since the innermost node was opened. -/
def enclosed (kind : NodeKind) (state : ParseState) : ParseState :=
  { state with built := [.ofChildren kind state.built.reverse] }

/-- An error of no width at the end of the text, for a closing token that is not there. -/
def missing (state : ParseState) : ParseState :=
  let state := state.flush
  { state with built := .leaf .error state.textEnd state.textEnd :: state.built }

end ParseState

namespace Production

/-! ## Tokens -/

/-- Never matches. -/
def fail : Production := fun _ => .error .mismatch

/-- Matches without taking anything if the input has a property. -/
def guard (p : List Lexeme → Bool) : Production := fun state =>
  if p state.rest then .ok state else .error .mismatch

/-- Take the next token, whatever it is. -/
def bump : Production := fun state => .ok state.bump

/-- Take the next token as a leaf of the given kind. -/
def bumpAs (kind : NodeKind) : Production := fun state => .ok (state.bumpAs kind)

/-- Take the next `count + 1` tokens as a single leaf. -/
def bumpJoined (count : Nat) (kind : NodeKind) : Production := fun state =>
  .ok (state.bumpJoined count kind)

/-- Take this keyword or this punctuation. -/
def expect (text : String) : Production := fun state =>
  if state.sees text then .ok state.bump else .error .mismatch

/-! ## Choice -/

/-- Try another production from the same state if the first does not match. -/
def orElse (first second : Production) : Production := fun state =>
  match first state with
  | .error .mismatch => second state
  | outcome => outcome

/-- Look at the input to find out how to go on. -/
def choose (select : List Lexeme → Production) : Production := fun state =>
  select state.rest state

/-- Choose between two by a look at the input. -/
def ifAhead (p : List Lexeme → Bool) (yes no : Production) : Production := fun state =>
  if p state.rest then yes state else no state

/-- A production that runs only if the input has a property. -/
def whenAhead (p : List Lexeme → Bool) (production : Production) : Production :=
  ifAhead p production .ok

/-- Choose by the next token. -/
def ifAt (text : String) (yes no : Production) : Production :=
  ifAhead (Lookahead.isAt · 0 text) yes no

/-- A production that runs only before a given token. -/
def whenAt (text : String) (production : Production) : Production :=
  ifAt text production .ok

/-- A production that runs only before any other token than the given one. -/
def unlessAt (text : String) (production : Production) : Production :=
  ifAt text .ok production

/-- Take this keyword or this punctuation if it is there. -/
def optional (text : String) : Production :=
  whenAt text bump

/-! ## Nodes -/

/-- Wrap what a production builds in a node. -/
def node (kind : NodeKind) (production : Production) : Production := fun state =>
  match production state.flush.opened with
  | .ok inner => .ok (state.flush.close kind inner)
  | .error stop => .error stop

/-- A node around a single token. -/
def tokenNode (kind : NodeKind) : Production :=
  node kind bump

/-- Open a scope whose nodes `enclose` may wrap later; without that they stay as they are. -/
def inScope (production : Production) : Production := fun state =>
  match production state.flush.opened with
  | .ok inner => .ok { inner with built := inner.built ++ state.flush.built }
  | .error stop => .error stop

/-- Wrap everything built in the scope, with what a production adds, in a node. -/
def enclose (kind : NodeKind) (production : Production) : Production := fun state =>
  match production state with
  | .ok inner => .ok (inner.enclosed kind)
  | .error stop => .error stop

/-- The second part of a node, the kind of the node and that of the scope around it. -/
structure Closing where
  tail : Production
  kind : NodeKind
  around : NodeKind

/-- A node whose first part is parsed before its kind is known: what follows decides how it is
closed. The scope it stands in is closed with it. -/
def nodeThen (head : Production) (select : List Lexeme → Closing) : Production := fun state =>
  match head state.flush.opened with
  | .error stop => .error stop
  | .ok inner =>
    let closing := select inner.rest
    match closing.tail inner with
    | .error stop => .error stop
    | .ok last => .ok ((state.flush.close closing.kind last).enclosed closing.around)

/-! ## Repetition -/

/-- The result of one turn of a loop. -/
inductive Turn where
  | again (state : ParseState)
  | done (state : ParseState)

/-- Run the turns of a loop, at most `fuel` of them. -/
def iterate (turn : ParseState → Except Stop Turn) : Nat → Production
  | 0, _ => .error .outOfFuel
  | fuel + 1, state =>
    match turn state with
    | .ok (.again next) => iterate turn fuel next
    | .ok (.done next) => .ok next
    | .error stop => .error stop

/-- Run the turns of a loop. A turn that is not the last one takes at least one token, so the
number of tokens left bounds their number. -/
def loop (turn : ParseState → Except Stop Turn) : Production := fun state =>
  iterate turn (state.rest.length + 1) state

/-- Run a production once more if the input has a property. -/
def whileTurn (p : List Lexeme → Bool) (production : Production) (state : ParseState) :
    Except Stop Turn :=
  if p state.rest then
    match production state with
    | .ok next => .ok (.again next)
    | .error stop => .error stop
  else .ok (.done state)

/-- Repeat a production as long as the input has a property. -/
def whileAhead (p : List Lexeme → Bool) (production : Production) : Production :=
  loop (whileTurn p production)

/-- Repeat a production as long as a given token is next. -/
def whileAt (text : String) (production : Production) : Production :=
  whileAhead (Lookahead.isAt · 0 text) production

/-- One or more of the same, with commas in between. -/
def commaSeparated (production : Production) : Production :=
  production >=> whileAt "," (bump >=> production)

end Production

end Azsl
