/-
Azsl.Json — values of the data format that editors and servers exchange.

Objects keep their fields in order; of several with one name the last counts. Whole numbers
are told apart from all others, because only they can be counts, versions or positions.
-/

namespace Azsl

/-- A value of the format. -/
inductive Json where
  | null
  | bool (value : Bool)
  | int (value : Int)
  /-- A number with a fraction or an exponent, as it is written. -/
  | fractional (text : String)
  | str (value : String)
  | arr (items : List Json)
  | obj (fields : List (String × Json))
deriving Repr, Inhabited

namespace Json

/-! ## Reading values -/

/-- The field of an object. -/
def field? (value : Json) (name : String) : Option Json :=
  match value with
  | obj fields => fields.reverse.lookup name
  | _ => none

/-- A text. -/
def str? : Json → Option String
  | str value => some value
  | _ => none

/-- A truth value. -/
def bool? : Json → Option Bool
  | bool value => some value
  | _ => none

/-- A whole number in a range. -/
def intIn? (low high : Int) : Json → Option Int
  | int value => if low ≤ value ∧ value ≤ high then some value else none
  | _ => none

/-- A whole number from zero up to a bound. -/
def natUpTo? (high : Nat) (value : Json) : Option Nat :=
  (value.intIn? 0 high).map Int.toNat

/-- A whole number of 32 bits with a sign. -/
def word? : Json → Option Int :=
  intIn? (-2147483648) 2147483647

/-- A whole number of 32 bits without a sign. -/
def count? : Json → Option Nat :=
  natUpTo? 4294967295

/-- A list, each item of which can be read. -/
def listOf? (read : Json → Option α) : Json → Option (List α)
  | arr items => items.mapM read
  | _ => none

/-- The fields of a record by their names: those of an object, or the items of an array in the
order of `names`. An array has no more items than there are names, and at least `least`. -/
def record? (names : List String) (least : Nat) : Json → Option (String → Option Json)
  | obj fields => some fun name => fields.reverse.lookup name
  | arr items =>
    if least ≤ items.length ∧ items.length ≤ names.length then
      some fun name => (names.zip items).lookup name
    else none
  | _ => none

/-- A value that has to be there. -/
def required? (read : Json → Option α) (value : Option Json) : Option α :=
  value.bind read

/-- A value that may be missing or null. -/
def optional? (read : Json → Option α) : Option Json → Option (Option α)
  | none => some none
  | some null => some none
  | some value => (read value).map some

/-- A value that may be missing but not null. -/
def withDefault? (read : Json → Option α) (standard : α) : Option Json → Option α
  | none => some standard
  | some value => read value

end Json

end Azsl
