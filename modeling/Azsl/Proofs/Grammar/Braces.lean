/-
Azsl.Proofs.Grammar.Braces — the braces that recovery passes over.

Recovery counts round, square and curly brackets together, so a closing brace may end up in an
error in place of a bracket that was never closed. Only then: wherever round and square brackets
are closed, recovery passes over a closing brace only if it has passed over the opening one
(`Recovery.closesOwnBraces_extent`).
-/
import Azsl.Proofs.Grammar.Sync

namespace Azsl

/-! ## Counting brackets -/

/-- The punctuation among some tokens, from left to right. -/
def Token.marks (tokens : List Token) : List String :=
  (tokens.filter (·.kind == .punct)).map (·.text)

theorem Token.marks_cons_punct {token : Token} (h : token.kind = .punct) (rest : List Token) :
    marks (token :: rest) = token.text :: marks rest := by
  simp [marks, h]

theorem Token.marks_cons_other {token : Token} (h : token.kind ≠ .punct) (rest : List Token) :
    marks (token :: rest) = marks rest := by
  simp [marks, h]

namespace Marks

/-- Number of round and square brackets open behind a mark. -/
def bracketsAfter (brackets : Nat) (mark : String) : Nat :=
  if mark = "(" ∨ mark = "[" then brackets + 1
  else if mark = ")" ∨ mark = "]" then brackets - 1
  else brackets

/-- Number of braces open behind a mark. -/
def bracesAfter (braces : Nat) (mark : String) : Nat :=
  if mark = "\x7b" then braces + 1
  else if mark = "\x7d" then braces - 1
  else braces

/-- Number of round and square brackets open behind some marks. -/
def openBrackets (marks : List String) : Nat :=
  marks.foldl bracketsAfter 0

/-- From left to right there are never more closing braces than opening ones, as long as every
closing brace stands where no round or square bracket is open. -/
def ClosesOwnBraces (marks : List String) : Prop :=
  ∀ seen, seen <+: marks →
    (∀ before, before ++ ["\x7d"] <+: seen → openBrackets before = 0) →
    seen.count "\x7d" ≤ seen.count "\x7b"

/-- One more mark in front. -/
theorem count_cons_le {braces : Nat} {mark : String} {seen : List String}
    (hopen : mark = "\x7d" → 0 < braces)
    (h : seen.count "\x7d" ≤ bracesAfter braces mark + seen.count "\x7b") :
    (mark :: seen).count "\x7d" ≤ braces + (mark :: seen).count "\x7b" := by
  unfold bracesAfter at h
  split_ifs at h with hleft hright
  · subst hleft
    simp only [List.count_cons_self, List.count_cons_of_ne (by decide : "\x7b" ≠ "\x7d")]
    omega
  · subst hright
    have := hopen rfl
    simp only [List.count_cons_self, List.count_cons_of_ne (by decide : "\x7d" ≠ "\x7b")]
    omega
  · rw [List.count_cons_of_ne hleft, List.count_cons_of_ne hright]
    exact h

end Marks

/-! ## Recovery -/

namespace Recovery

open Marks

/-- No more is passed over than there is. -/
theorem extentFrom_le_length (mode : Recovery) (depth : Nat) (rest : List Lexeme) :
    mode.extentFrom depth rest ≤ rest.length := by
  induction rest generalizing depth with
  | nil => exact Nat.le_refl 0
  | cons next others ih =>
    rw [extentFrom, List.length_cons]
    split
    · exact Nat.zero_le _
    · split
      · omega
      · rename_i inner _
        have := ih inner
        omega

theorem extent_le_length (mode : Recovery) (rest : List Lexeme) :
    mode.extent rest ≤ rest.length := by
  cases rest with
  | nil => exact Nat.le_refl 0
  | cons next others =>
    rw [extent, List.length_cons]
    split
    · omega
    · rename_i inner _
      have := mode.extentFrom_le_length inner others
      omega

/-- The depth that recovery keeps is never more than the braces and the other brackets that are
open, if no closing brace stands for another bracket. -/
theorem depthAfter_le {token : Token} {depth braces brackets inner : Nat}
    (hpunct : token.kind = .punct) (hdepth : depth ≤ braces + brackets)
    (hbrace : token.text = "\x7d" → depth ≠ 0 ∧ brackets = 0)
    (h : depthAfter token depth = some inner) :
    inner ≤ bracesAfter braces token.text + bracketsAfter brackets token.text := by
  unfold depthAfter at h
  rw [if_pos hpunct] at h
  unfold bracesAfter bracketsAfter
  split at h
  · rename_i hopens
    obtain rfl := Option.some.inj h
    rcases hopens with htext | htext | htext <;> rw [htext] <;> simp <;> omega
  · rename_i hopens
    push Not at hopens
    split at h
    · rename_i htext
      obtain ⟨hne, hclosed⟩ := hbrace htext
      rw [htext]
      split at h
      · exact absurd rfl hne
      · cases h
      · obtain rfl := Option.some.inj h
        simp
        omega
    · rename_i htext
      simp only [hopens, htext, if_false, or_self]
      split_ifs at h ⊢ <;> cases h <;> omega

/-- What is passed over behind the first tokens, `braces` of whose braces and `brackets` of whose
other brackets are open. -/
theorem count_extentFrom_le {rest : List Lexeme} {depth braces brackets : Nat}
    (hdepth : depth ≤ braces + brackets) {seen : List String}
    (hseen : seen <+: Token.marks ((Lexeme.tokens rest).take (block.extentFrom depth rest)))
    (hclosed : ∀ before, before ++ ["\x7d"] <+: seen →
      before.foldl bracketsAfter brackets = 0) :
    seen.count "\x7d" ≤ braces + seen.count "\x7b" := by
  induction rest generalizing depth braces brackets seen with
  | nil =>
    obtain rfl := List.prefix_nil.mp hseen
    simp
  | cons next rest ih =>
    rw [extentFrom] at hseen
    split at hseen
    · obtain rfl := List.prefix_nil.mp hseen
      simp
    · rename_i hgoes
      by_cases hpunct : next.token.kind = .punct
      · have htake : ∀ count, Token.marks ((Lexeme.tokens (next :: rest)).take (1 + count))
            = next.token.text :: Token.marks ((Lexeme.tokens rest).take count) := by
          intro count
          rw [Nat.add_comm]
          exact Token.marks_cons_punct hpunct _
        cases seen with
        | nil => simp
        | cons mark more =>
          -- a closing brace is taken at a depth, and no other bracket is open there
          have hbrace : mark = next.token.text → mark = "\x7d" → depth ≠ 0 ∧ brackets = 0 := by
            rintro htext rfl
            refine ⟨fun hzero => hgoes ⟨hzero, ?_⟩, hclosed [] (by simp)⟩
            show next.token.is "\x7d" = true
            simp [Token.is, hpunct, ← htext]
          have hopen : mark = next.token.text → mark = "\x7d" → 0 < braces := by
            intro htext hmark
            have := hbrace htext hmark
            omega
          cases hafter : depthAfter next.token depth with
          | none =>
            rw [hafter] at hseen
            obtain ⟨rfl, hmore⟩ := List.cons_prefix_cons.mp (htake 0 ▸ hseen)
            obtain rfl := List.prefix_nil.mp hmore
            exact count_cons_le (hopen rfl) (by simp)
          | some inner =>
            rw [hafter] at hseen
            obtain ⟨rfl, hmore⟩ := List.cons_prefix_cons.mp (htake _ ▸ hseen)
            have hinner := depthAfter_le hpunct hdepth (hbrace rfl) hafter
            refine count_cons_le (hopen rfl) (ih hinner hmore fun before hbefore => ?_)
            exact hclosed (next.token.text :: before) (List.cons_prefix_cons.mpr ⟨rfl, hbefore⟩)
      · have hsame : Token.marks ((Lexeme.tokens (next :: rest)).take
              (1 + block.extentFrom depth rest))
            = Token.marks ((Lexeme.tokens rest).take (block.extentFrom depth rest)) := by
          rw [Nat.add_comm]
          exact Token.marks_cons_other hpunct _
        rw [show depthAfter next.token depth = some depth from if_neg hpunct] at hseen
        exact ih hdepth (hsame ▸ hseen) hclosed

/-- Recovery inside braces passes over a closing brace only if it has passed over the opening
one, as long as round and square brackets are closed. -/
theorem closesOwnBraces_extent {input : List Lexeme}
    (h : Lookahead.isAt input 0 "\x7d" = false) :
    ClosesOwnBraces (Token.marks ((Lexeme.tokens input).take (block.extent input))) := by
  intro seen hseen hclosed
  have hextent : block.extent input = block.extentFrom 0 input := extent_eq_extentFrom h
  rw [hextent] at hseen
  simpa using count_extentFrom_le (Nat.zero_le (0 + 0)) hseen hclosed

end Recovery

end Azsl
