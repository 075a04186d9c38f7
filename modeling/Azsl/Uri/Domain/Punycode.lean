/-
Azsl.Uri.Domain.Punycode — any text in letters, digits and hyphens.

The ASCII characters of a text are written as they are, with a hyphen behind them. What follows
says where the others go: in increasing order of code points, each is given by the number of
places and code points that are passed since the last one. A number is written with digits of
varying weight, the lowest first, and its last digit is told by being small. How small depends
on the size of the numbers before.
-/

namespace Azsl

namespace Punycode

/-! ## Digits -/

/-- The number below which a digit is the last one. -/
def threshold (bias k : Nat) : Nat :=
  if k ≤ bias then 1 else if bias + 26 ≤ k then 26 else k - bias

theorem threshold_bounds (bias k : Nat) : 1 ≤ threshold bias k ∧ threshold bias k ≤ 26 := by
  unfold threshold
  split
  · omega
  · split <;> omega

/-- A digit: letters, then the digits of decimal notation. -/
def digit (n : Nat) : Char :=
  if n < 26 then Char.ofNat ('a'.toNat + n) else Char.ofNat ('0'.toNat + (n - 26))

/-- The value of a digit. -/
def value? (c : Char) : Option Nat :=
  if 'a' ≤ c ∧ c ≤ 'z' then some (c.toNat - 'a'.toNat)
  else if '0' ≤ c ∧ c ≤ '9' then some (c.toNat - '0'.toNat + 26)
  else none

/-- Divide a number until it is small, and add up what each division counts for. -/
def reduce (delta k : Nat) : Nat :=
  if 455 < delta then reduce (delta / 35) (k + 36) else k + 36 * delta / (delta + 38)
termination_by delta
decreasing_by omega

/-- The bias behind a number, in a text that has `points` characters by now. -/
def adapt (delta points : Nat) (isFirst : Bool) : Nat :=
  let start := if isFirst then delta / 700 else delta / 2
  reduce (start + start / points) 0

/-! ## Encoding -/

/-- A number in digits, from the one of weight `k` on. -/
def writeNumber (bias k n : Nat) : List Char :=
  let t := threshold bias k
  if n < t then [digit n]
  else digit (t + (n - t) % (36 - t)) :: writeNumber bias (k + 36) ((n - t) / (36 - t))
termination_by n
decreasing_by
  have bounds := threshold_bounds bias k
  have small : (n - threshold bias k) / (36 - threshold bias k) ≤ n - threshold bias k :=
    Nat.div_le_self _ _
  omega

/-- How far the encoding of a text has come. -/
structure Progress where
  /-- Places passed since the last number. -/
  delta : Nat
  bias : Nat
  /-- Characters that are placed by now. -/
  placed : Nat
  out : List Char

/-- Pass one character of the text, and place it if it is the one whose turn it is. -/
def passChar (point basics : Nat) (progress : Progress) (c : Char) : Progress :=
  if c.toNat < point then { progress with delta := progress.delta + 1 }
  else if c.toNat = point then
    { delta := 0
      bias := adapt progress.delta (progress.placed + 1) (progress.placed == basics)
      placed := progress.placed + 1
      out := progress.out ++ writeNumber progress.bias 36 progress.delta }
  else progress

/-- Place the characters of some code points, which increase from `reached` on. -/
def placePoints (text : List Char) (basics : Nat) : List Nat → Nat → Progress → Progress
  | [], _, progress => progress
  | point :: rest, reached, progress =>
    let skipped := (point - reached) * (progress.placed + 1)
    let passed := text.foldl (passChar point basics)
      { progress with delta := progress.delta + skipped }
    placePoints text basics rest (point + 1) { passed with delta := passed.delta + 1 }

/-- The ASCII form of a text. -/
def encode (text : List Char) : List Char :=
  let basic := text.filter (·.toNat < 0x80)
  let points := ((text.filter (0x80 ≤ ·.toNat)).map Char.toNat).mergeSort.eraseDups
  basic ++ (if basic.isEmpty then [] else ['-']) ++
    (placePoints text basic.length points 0x80 ⟨0, 72, basic.length, []⟩).out

/-! ## Decoding -/

/-- Numbers have 32 bits. -/
def word? (n : Nat) : Option Nat := if n < 4294967296 then some n else none

/-- Add a number to `sum`, from the digit of weight `k` on, which counts `weight` times. -/
def readNumber (bias : Nat) : Nat → Nat → Nat → List Char → Option (Nat × List Char)
  | _, _, _, [] => none
  | k, weight, sum, c :: rest => do
    let n ← value? c
    let sum ← word? (sum + (← word? (n * weight)))
    if n < threshold bias k then return (sum, rest)
    else readNumber bias (k + 36) (← word? (weight * (36 - threshold bias k))) sum rest

/-- Reading a number takes at least one digit. -/
theorem length_of_readNumber {bias k weight sum n : Nat} {chars rest : List Char}
    (h : readNumber bias k weight sum chars = some (n, rest)) : rest.length < chars.length := by
  induction chars generalizing k weight sum with
  | nil => simp [readNumber] at h
  | cons c tail ih =>
    simp only [readNumber, Option.bind_eq_bind, Option.bind_eq_some_iff] at h
    obtain ⟨_, _, _, _, _, _, h⟩ := h
    split at h
    · simp only [Option.pure_def, Option.some.injEq, Prod.mk.injEq] at h
      simp [← h.2]
    · rw [Option.bind_eq_some_iff] at h
      obtain ⟨_, _, h⟩ := h
      have shorter := ih h
      simp only [List.length_cons]
      omega

/-- The character of a code point. -/
def char? (point : Nat) : Option Char :=
  if point.isValidChar then some (Char.ofNat point) else none

/-- Place characters into a text: `place` is where the last one went, with its code point. -/
def placeChars (bias point place : Nat) (text : List Char) : List Char → Option (List Char)
  | [] => some text
  | c :: rest =>
    match _ : readNumber bias 36 1 place (c :: rest) with
    | none => none
    | some (sum, left) =>
      let count := text.length + 1
      match char? (point + sum / count) with
      | none => none
      | some next =>
        placeChars (adapt (sum - place) count (place == 0)) next.toNat (sum % count + 1)
          (text.insertIdx (sum % count) next) left
termination_by chars => chars.length
decreasing_by exact length_of_readNumber (by assumption)

/-- The text that a form stands for. There is a hyphen before the numbers only if there are
ASCII characters before it. -/
def decode? (chars : List Char) : Option (List Char) :=
  let numbers := (chars.reverse.takeWhile (· ≠ '-')).reverse
  if numbers.length = chars.length then placeChars 72 0x80 0 [] chars
  else
    let basic := chars.take (chars.length - numbers.length - 1)
    if basic.isEmpty then none else placeChars 72 0x80 0 basic numbers

end Punycode

end Azsl
