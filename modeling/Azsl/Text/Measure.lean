/-
Azsl.Text.Measure — lengths and cuts of a text in bytes and in editor units.

A text is a list of characters. The syntax tree counts bytes of its UTF-8 encoding, editors
count UTF-16 code units; both are sums over the characters, so both are defined here once.
-/

namespace Azsl

/-- Number of bytes of the UTF-8 encoding. -/
def byteLength : List Char → Nat
  | [] => 0
  | c :: rest => c.utf8Size + byteLength rest

/-- Number of UTF-16 code units of one character: two outside the basic plane. -/
def editorUnits (c : Char) : Nat :=
  if c.toNat < 0x10000 then 1 else 2

/-- Number of UTF-16 code units. -/
def editorLength : List Char → Nat
  | [] => 0
  | c :: rest => editorUnits c + editorLength rest

/-- The text from a byte offset on, if that offset lies between two characters. -/
def dropBytes? : Nat → List Char → Option (List Char)
  | 0, chars => some chars
  | _ + 1, [] => none
  | n + 1, c :: rest => if c.utf8Size ≤ n + 1 then dropBytes? (n + 1 - c.utf8Size) rest else none

/-- The first `n` bytes of a text, if they end between two characters. -/
def takeBytes? : Nat → List Char → Option (List Char)
  | 0, _ => some []
  | _ + 1, [] => none
  | n + 1, c :: rest =>
    if c.utf8Size ≤ n + 1 then (takeBytes? (n + 1 - c.utf8Size) rest).map (c :: ·) else none

/-- The bytes from `start` up to `stop`, if both are character boundaries in that order. -/
def sliceBytes? (chars : List Char) (start stop : Nat) : Option (List Char) :=
  if stop < start then none
  else (dropBytes? start chars).bind (takeBytes? (stop - start))

/-- The longest part of a text that fits into `n` bytes. -/
def takeBytes : Nat → List Char → List Char
  | _, [] => []
  | n, c :: rest => if c.utf8Size ≤ n then c :: takeBytes (n - c.utf8Size) rest else []

/-- What `takeBytes` leaves over. -/
def dropBytes : Nat → List Char → List Char
  | _, [] => []
  | n, c :: rest => if c.utf8Size ≤ n then dropBytes (n - c.utf8Size) rest else c :: rest

@[simp] theorem byteLength_nil : byteLength [] = 0 := rfl

@[simp] theorem byteLength_cons (c : Char) (rest : List Char) :
    byteLength (c :: rest) = c.utf8Size + byteLength rest := rfl

@[simp] theorem byteLength_append (left right : List Char) :
    byteLength (left ++ right) = byteLength left + byteLength right := by
  induction left with
  | nil => simp
  | cons c rest ih => simp [ih, Nat.add_assoc]

@[simp] theorem editorLength_append (left right : List Char) :
    editorLength (left ++ right) = editorLength left + editorLength right := by
  induction left with
  | nil => simp [editorLength]
  | cons c rest ih => simp [editorLength, ih, Nat.add_assoc]

/-- Cutting at a byte offset loses nothing. -/
theorem takeBytes_append_dropBytes (n : Nat) (chars : List Char) :
    takeBytes n chars ++ dropBytes n chars = chars := by
  induction chars generalizing n with
  | nil => rfl
  | cons c rest ih =>
    by_cases h : c.utf8Size ≤ n
    · simp [takeBytes, dropBytes, h, ih]
    · simp [takeBytes, dropBytes, h]

end Azsl
