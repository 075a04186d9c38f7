/-
Azsl.Proofs.Grammar.Nesting — brackets of a token stream as a stack.

`Nesting.run` reads tokens with a stack of what is still to be closed. It fails at a closing
bracket that does not fit and at a quote that opens no string. A stretch of input is `Bounded`
by a stack if it closes all of it with its last token: whatever is parsed inside such a stretch
meets a closing token before it can leave the stretch.
-/
import Azsl.Grammar.Production
import Mathlib.Tactic.SplitIfs
import Mathlib.Tactic.Tauto

namespace Azsl

/-! ## What a token does to the stack -/

/-- What is still to be closed. A semicolon closes a declaration that stands in no bracket. -/
inductive Closer where
  | paren
  | bracket
  | brace
  | semicolon
deriving DecidableEq, Repr

/-- The part a token plays in nesting. -/
inductive Role where
  | opens (closer : Closer)
  | closes (closer : Closer)
  | ends
  /-- A quote that opens no string. -/
  | stray
  | plain
deriving DecidableEq, Repr

/-- The part a piece of punctuation plays. -/
def Role.ofText (text : String) : Role :=
  if text = "(" then .opens .paren
  else if text = "[" then .opens .bracket
  else if text = "\x7b" then .opens .brace
  else if text = ")" then .closes .paren
  else if text = "]" then .closes .bracket
  else if text = "\x7d" then .closes .brace
  else if text = ";" then .ends
  else .plain

/-- The texts that may play a part other than `plain`. -/
def Role.specialTexts : List String :=
  ["(", "[", "\x7b", ")", "]", "\x7d", ";", "\""]

namespace Token

/-- The part a token plays in nesting. -/
def role (token : Token) : Role :=
  if token.kind = .word ∨ token.kind = .punct then .ofText token.text
  else if token.kind = .unknown ∧ token.text = "\"" then .stray
  else .plain

/-- No word is spelled like a bracket or a semicolon. -/
def Sound (token : Token) : Prop :=
  token.kind = .word → Role.ofText token.text = .plain

/-- Every token has a text, the path of an include apart: there may be nothing in its quotes. -/
def Solid (token : Token) : Prop :=
  token.kind = .includePath → token.text ≠ ""

/-- A token that stands in no declaration: a character that no rule of the lexer takes, or an
include directive. -/
def isForeign (token : Token) : Bool :=
  token.kind == .unknown || token.kind == .includeDirective

/-- Foreign tokens are spelled like no keyword. -/
structure Legible (token : Token) : Prop where
  unknown : token.kind = .unknown → token.text.toList.length = 1
  directive : token.kind = .includeDirective → token.text = "#include"

/-- The tokens that close a declaration. -/
def isFinal (token : Token) : Bool :=
  token.role == .ends || token.role == .closes .brace

theorem text_of_is {token : Token} {text : String} (h : token.is text = true) :
    token.text = text := by
  simp only [Token.is, Bool.and_eq_true, beq_iff_eq] at h
  exact h.2

theorem kind_of_is {token : Token} {text : String} (h : token.is text = true) :
    token.kind = .word ∨ token.kind = .punct := by
  simp only [Token.is, Bool.and_eq_true, Bool.or_eq_true, beq_iff_eq] at h
  exact h.1

theorem role_of_is {token : Token} {text : String} (h : token.is text = true) :
    token.role = .ofText text := by
  rw [role, if_pos (kind_of_is h), text_of_is h]

/-- Keywords and punctuation are no paths. -/
theorem solid_of_is {token : Token} {text : String} (h : token.is text = true) : token.Solid := by
  intro hpath
  rcases kind_of_is h with hkind | hkind <;> rw [hpath] at hkind <;> cases hkind

theorem isForeign_of_kind {token : Token}
    (h : token.kind ≠ .unknown ∧ token.kind ≠ .includeDirective) : token.isForeign = false := by
  simp [isForeign, h]

theorem isForeign_of_is {token : Token} {text : String} (h : token.is text = true) :
    token.isForeign = false := by
  refine isForeign_of_kind ?_
  rcases kind_of_is h with hkind | hkind <;> simp [hkind]

theorem ofText_eq_plain {text : String} (h : text ∉ Role.specialTexts) :
    Role.ofText text = .plain := by
  simp only [Role.specialTexts, List.mem_cons, List.not_mem_nil, or_false, not_or] at h
  simp [Role.ofText, h]

theorem role_eq_plain_of_text {token : Token} (h : token.text ∉ Role.specialTexts) :
    token.role = .plain := by
  have hquote : token.text ≠ "\"" := fun hq => h (by simp [Role.specialTexts, hq])
  rw [role, ofText_eq_plain h]
  simp [hquote]

theorem ofText_eq_opens_bracket {text : String} (h : Role.ofText text = .opens .bracket) :
    text = "[" := by
  unfold Role.ofText at h
  split_ifs at h <;> first | assumption | cases h

theorem ofText_eq_closes_bracket {text : String} (h : Role.ofText text = .closes .bracket) :
    text = "]" := by
  unfold Role.ofText at h
  split_ifs at h <;> first | assumption | cases h

theorem is_of_role_opens {token : Token} (h : token.role = .opens .bracket) :
    token.is "[" = true := by
  unfold role at h
  split_ifs at h with hkind
  simpa [Token.is, ofText_eq_opens_bracket h] using hkind

theorem is_of_role_closes {token : Token} (h : token.role = .closes .bracket) :
    token.is "]" = true := by
  unfold role at h
  split_ifs at h with hkind
  simpa [Token.is, ofText_eq_closes_bracket h] using hkind

/-- A token of a kind that is neither punctuation nor unknown plays no part. -/
theorem role_eq_plain_of_kind {token : Token} (sound : token.Sound) (hp : token.kind ≠ .punct)
    (hu : token.kind ≠ .unknown) : token.role = .plain := by
  by_cases hw : token.kind = .word
  · rw [role, if_pos (Or.inl hw)]
    exact sound hw
  · simp [role, hw, hp, hu]

end Token

namespace Nesting

/-- The stack behind a token that plays some part. -/
def act (pending : List Closer) : Role → Option (List Closer)
  | .opens closer => some (closer :: pending)
  | .closes closer => if pending.head? = some closer then some pending.tail else none
  | .ends => some (if pending.head? = some .semicolon then pending.tail else pending)
  | .stray => none
  | .plain => some pending

/-- The stack behind one more token. -/
def step (pending : List Closer) (token : Token) : Option (List Closer) :=
  act pending token.role

/-- The stack behind some more tokens. -/
def run (pending : List Closer) : List Token → Option (List Closer)
  | [] => some pending
  | token :: rest => (step pending token).bind (run · rest)

@[simp] theorem run_nil (pending : List Closer) : run pending [] = some pending := rfl

theorem run_cons (pending : List Closer) (token : Token) (rest : List Token) :
    run pending (token :: rest) = (step pending token).bind (run · rest) := rfl

theorem run_append (pending : List Closer) (left right : List Token) :
    run pending (left ++ right) = (run pending left).bind (run · right) := by
  induction left generalizing pending with
  | nil => rfl
  | cons token rest ih =>
    rw [List.cons_append, run_cons, run_cons]
    cases step pending token with
    | none => rfl
    | some next => exact ih next

theorem run_append_of_eq_some {pending next : List Closer} {left : List Token}
    (h : run pending left = some next) (right : List Token) :
    run pending (left ++ right) = run next right := by
  rw [run_append, h, Option.bind_some]

theorem step_plain {token : Token} (h : token.role = .plain) (pending : List Closer) :
    step pending token = some pending := by
  simp [step, act, h]

theorem run_plain {tokens : List Token} (h : ∀ token ∈ tokens, token.role = .plain)
    {pending : List Closer} : run pending tokens = some pending := by
  induction tokens with
  | nil => rfl
  | cons token rest ih =>
    rw [run_cons, step_plain (h token (by simp)), Option.bind_some]
    exact ih fun token hmem => h token (List.mem_cons_of_mem _ hmem)

end Nesting

/-! ## Stretches of input that close a stack -/

/-- The tokens of some lexemes. -/
def Lexeme.tokens (input : List Lexeme) : List Token :=
  input.map (·.token)

/-- The stretch closes everything that is pending, and its last token closes a declaration. -/
def Bounded (pending : List Closer) (input : List Lexeme) : Prop :=
  Nesting.run pending (Lexeme.tokens input) = some [] ∧
    ∀ last ∈ input.getLast?, last.token.isFinal = true

/-- Every token of the input is sound. -/
def SoundInput (input : List Lexeme) : Prop :=
  ∀ lexeme ∈ input, lexeme.token.Sound

namespace Bounded

theorem ne_nil {pending : List Closer} {input : List Lexeme} (h : Bounded pending input)
    (hp : pending ≠ []) : input ≠ [] := by
  rintro rfl
  exact hp (Option.some.inj h.1)

theorem cons {pending : List Closer} {first : Lexeme} {rest : List Lexeme}
    (h : Bounded pending (first :: rest)) :
    ∃ next, Nesting.step pending first.token = some next ∧ Bounded next rest := by
  have hrun : (Nesting.step pending first.token).bind
      (Nesting.run · (Lexeme.tokens rest)) = some [] := h.1
  obtain ⟨next, hstep, hrest⟩ := Option.bind_eq_some_iff.mp hrun
  refine ⟨next, hstep, hrest, fun last hlast => h.2 last ?_⟩
  cases rest with
  | nil => simp at hlast
  | cons second others => simpa [List.getLast?_cons_cons] using hlast

/-- Behind a token that closes no declaration the stretch goes on. -/
theorem tail_ne_nil {pending : List Closer} {first : Lexeme} {rest : List Lexeme}
    (h : Bounded pending (first :: rest)) (hf : first.token.isFinal = false) : rest ≠ [] := by
  rintro rfl
  have := h.2 first (by simp)
  simp [hf] at this

theorem of_append {pending next : List Closer} {left right : List Lexeme}
    (h : Bounded pending (left ++ right))
    (hleft : Nesting.run pending (Lexeme.tokens left) = some next) : Bounded next right := by
  refine ⟨?_, fun last hlast => h.2 last ?_⟩
  · have := h.1
    rw [Lexeme.tokens, List.map_append] at this
    rwa [← Nesting.run_append_of_eq_some hleft]
  · rw [List.getLast?_append, Option.mem_def, Option.mem_def.mp hlast, Option.some_or]

end Bounded

end Azsl
