/-
Azsl.Text.Location — where something stands in a text.

A `Point` is a row with a byte column, a `Location` is a byte offset with its point, and a
`Position` is what editors send: a line with a column in UTF-16 units. Rows, columns and
lines count from zero, and only a line feed ends a line.
-/

namespace Azsl

/-- Row and byte column. -/
structure Point where
  row : Nat
  column : Nat
deriving DecidableEq, Repr, Inhabited

namespace Point

/-- Rows first, then columns. -/
def lt (a b : Point) : Prop :=
  a.row < b.row ∨ (a.row = b.row ∧ a.column < b.column)

instance : LT Point := ⟨lt⟩

instance (a b : Point) : Decidable (a < b) :=
  inferInstanceAs (Decidable (a.row < b.row ∨ (a.row = b.row ∧ a.column < b.column)))

/-- `a ≤ b` when `b` does not come before `a`. -/
instance : LE Point := ⟨fun a b => ¬ b < a⟩

instance (a b : Point) : Decidable (a ≤ b) :=
  inferInstanceAs (Decidable (¬ b < a))

end Point

/-- A byte offset together with its point. -/
structure Location where
  byte : Nat
  point : Point
deriving DecidableEq, Repr, Inhabited

namespace Location

/-- The start of every text. -/
def origin : Location := ⟨0, ⟨0, 0⟩⟩

/-- The location behind one more character. -/
def step (here : Location) (c : Char) : Location :=
  { byte := here.byte + c.utf8Size
    point := if c = '\n' then ⟨here.point.row + 1, 0⟩
      else ⟨here.point.row, here.point.column + c.utf8Size⟩ }

/-- The location behind a run of characters. -/
def advance (here : Location) (chars : List Char) : Location :=
  chars.foldl step here

@[simp] theorem advance_nil (here : Location) : here.advance [] = here := rfl

@[simp] theorem advance_cons (here : Location) (c : Char) (rest : List Char) :
    here.advance (c :: rest) = (here.step c).advance rest := rfl

theorem advance_append (here : Location) (left right : List Char) :
    here.advance (left ++ right) = (here.advance left).advance right := by
  simp [advance, List.foldl_append]

end Location

/-- A position as editors count it: a line and a column in UTF-16 units. -/
structure Position where
  line : Nat
  column : Nat
deriving DecidableEq, Repr, Inhabited

namespace Position

/-- Lines first, then columns. -/
def lt (a b : Position) : Prop :=
  a.line < b.line ∨ (a.line = b.line ∧ a.column < b.column)

instance : LT Position := ⟨lt⟩

instance (a b : Position) : Decidable (a < b) :=
  inferInstanceAs (Decidable (a.line < b.line ∨ (a.line = b.line ∧ a.column < b.column)))

/-- `a ≤ b` when `b` does not come before `a`. -/
instance : LE Position := ⟨fun a b => ¬ b < a⟩

instance (a b : Position) : Decidable (a ≤ b) :=
  inferInstanceAs (Decidable (¬ b < a))

/-- `line:column`. -/
def render (position : Position) : String :=
  toString position.line ++ ":" ++ toString position.column

end Position

/-- The stretch between two editor positions. -/
structure Range where
  start : Position
  stop : Position
deriving DecidableEq, Repr, Inhabited

end Azsl
