/-
Azsl.Proofs.Text.Bytes — locations and byte offsets.

The byte of a location is the number of bytes before it, so locations and cuts of a text agree.
-/
import Azsl.Text.Location
import Azsl.Text.Measure

namespace Azsl

namespace Location

theorem byte_step (here : Location) (c : Char) : (here.step c).byte = here.byte + c.utf8Size :=
  rfl

theorem byte_advance (here : Location) (chars : List Char) :
    (here.advance chars).byte = here.byte + byteLength chars := by
  induction chars generalizing here with
  | nil => rfl
  | cons c rest ih => rw [advance_cons, ih, byte_step, byteLength_cons, Nat.add_assoc]

theorem byte_le_advance (here : Location) (chars : List Char) :
    here.byte ≤ (here.advance chars).byte := by
  rw [byte_advance]
  exact Nat.le_add_right _ _

end Location

theorem byteLength_pos {chars : List Char} (h : chars ≠ []) : 0 < byteLength chars := by
  cases chars with
  | nil => exact absurd rfl h
  | cons c rest =>
    have := c.utf8Size_pos
    rw [byteLength_cons]
    omega

/-- Two ways to cut a text at the same byte are the same. -/
theorem append_inj_of_byteLength {left right left' right' : List Char}
    (h : left ++ right = left' ++ right') (hlength : byteLength left = byteLength left') :
    left = left' ∧ right = right' := by
  induction left generalizing left' with
  | nil =>
    cases left' with
    | nil => exact ⟨rfl, h⟩
    | cons c rest =>
      have hpos := byteLength_pos (List.cons_ne_nil c rest)
      rw [← hlength] at hpos
      cases hpos
  | cons c rest ih =>
    cases left' with
    | nil =>
      have hpos := byteLength_pos (List.cons_ne_nil c rest)
      rw [hlength] at hpos
      cases hpos
    | cons c' rest' =>
      obtain ⟨rfl, hrest⟩ := List.cons.inj h
      rw [byteLength_cons, byteLength_cons] at hlength
      obtain ⟨rfl, rfl⟩ := ih hrest (by omega)
      exact ⟨rfl, rfl⟩

end Azsl
