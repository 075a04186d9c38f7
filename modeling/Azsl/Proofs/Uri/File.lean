/-
Azsl.Proofs.Uri.File — the path of a file survives the way through an identifier.

An identifier holds the components of a path, percent-encoded. Decoding what is encoded gives
back the bytes, and decoding the bytes gives back the characters, so the path that is read from
the identifier of a file has the components of the file's path. The one exception is a path that
ends like the letter of a drive: it gets a slash behind it.
-/
import Azsl.Uri.File
import Mathlib.Data.List.Induction

namespace Azsl

/-! ## Bytes -/

namespace Utf8

/-- Further bytes of a character add six bits each. -/
theorem continue?_ofNat {more low high code bits : Nat} (rest : List UInt8) (hbits : bits < 64)
    (hlow : low ≤ bits + 128) (hhigh : bits + 128 ≤ high) :
    continue? (more + 1) low high code (UInt8.ofNat (bits + 128) :: rest)
      = ((continue? more 0x80 0xBF (code * 64 + bits) rest).1,
        (continue? more 0x80 0xBF (code * 64 + bits) rest).2 + 1) := by
  have hbyte : (UInt8.ofNat (bits + 128)).toNat = bits + 128 := by
    rw [UInt8.toNat_ofNat']
    omega
  rw [continue?, hbyte, if_pos ⟨hlow, hhigh⟩, Nat.add_sub_cancel]

theorem continue?_zero (low high code : Nat) (rest : List UInt8) :
    continue? 0 low high code rest = (some code, 0) := by
  cases rest <;> rfl

theorem decodeOne_ofNat {byte count low high bits : Nat} (rest : List UInt8) (hbyte : byte < 256)
    (hlead : lead? byte = some (count, low, high, bits)) :
    decodeOne (UInt8.ofNat byte) rest
      = ((continue? count low high bits rest).1.map Char.ofNat,
        (continue? count low high bits rest).2) := by
  rw [decodeOne, UInt8.toNat_ofNat', Nat.mod_eq_of_lt hbyte, hlead]

/-- The bytes of a character are read back as that character. -/
theorem decodeOne_encodeChar (c : Char) :
    ∃ first others, String.utf8EncodeChar c = first :: others ∧
      ∀ rest, decodeOne first (others ++ rest) = (some c, others.length) := by
  have hvalid : c.val.toNat < 0xD800 ∨ 0xDFFF < c.val.toNat ∧ c.val.toNat < 0x110000 := c.valid
  have hback : Char.ofNat c.val.toNat = c := Char.ofNat_toNat c
  unfold String.utf8EncodeChar
  simp only
  generalize c.val.toNat = v at hvalid hback ⊢
  -- One, two, three or four bytes; what they carry adds up to the code of the character.
  split
  · refine ⟨_, _, rfl, fun rest => ?_⟩
    have hlead : lead? v = some (0, 0, 0, v) := by
      rw [lead?, if_pos (by omega)]
    rw [decodeOne_ofNat _ (by omega) hlead, continue?_zero]
    simp [hback]
  split
  · refine ⟨_, _, rfl, fun rest => ?_⟩
    have hlead : lead? (v / 64 % 32 + 192) = some (1, 0x80, 0xBF, v / 64 % 32 + 192 - 0xC0) := by
      rw [lead?, if_neg (by omega), if_neg (by omega), if_pos (by omega)]
    have hcode : (v / 64 % 32 + 192 - 0xC0) * 64 + v % 64 = v := by omega
    rw [decodeOne_ofNat _ (by omega) hlead, List.cons_append, List.nil_append,
      continue?_ofNat _ (by omega) (by omega) (by omega), continue?_zero, hcode]
    simp [hback]
  split
  · refine ⟨_, _, rfl, fun rest => ?_⟩
    have hlead : lead? (v / 4096 % 16 + 224) = some (2,
        if v / 4096 % 16 + 224 = 0xE0 then 0xA0 else 0x80,
        if v / 4096 % 16 + 224 = 0xED then 0x9F else 0xBF, v / 4096 % 16 + 224 - 0xE0) := by
      rw [lead?, if_neg (by omega), if_neg (by omega), if_neg (by omega), if_pos (by omega)]
    have hcode : ((v / 4096 % 16 + 224 - 0xE0) * 64 + v / 64 % 64) * 64 + v % 64 = v := by omega
    rw [decodeOne_ofNat _ (by omega) hlead, List.cons_append, List.cons_append, List.nil_append,
      continue?_ofNat _ (by omega) (by split <;> omega) (by split <;> omega),
      continue?_ofNat _ (by omega) (by omega) (by omega), continue?_zero, hcode]
    simp [hback]
  · refine ⟨_, _, rfl, fun rest => ?_⟩
    have hlead : lead? (v / 262144 % 8 + 240) = some (3,
        if v / 262144 % 8 + 240 = 0xF0 then 0x90 else 0x80,
        if v / 262144 % 8 + 240 = 0xF4 then 0x8F else 0xBF, v / 262144 % 8 + 240 - 0xF0) := by
      rw [lead?, if_neg (by omega), if_neg (by omega), if_neg (by omega), if_neg (by omega),
        if_pos (by omega)]
    have hcode : (((v / 262144 % 8 + 240 - 0xF0) * 64 + v / 4096 % 64) * 64 + v / 64 % 64) * 64
        + v % 64 = v := by omega
    rw [decodeOne_ofNat _ (by omega) hlead, List.cons_append, List.cons_append, List.cons_append,
      List.nil_append, continue?_ofNat _ (by omega) (by split <;> omega) (by split <;> omega),
      continue?_ofNat _ (by omega) (by omega) (by omega),
      continue?_ofNat _ (by omega) (by omega) (by omega), continue?_zero, hcode]
    simp [hback]

theorem decodeAfter_length (skipped rest : List UInt8) :
    decodeAfter skipped.length (skipped ++ rest) = decodeAfter 0 rest := by
  induction skipped with
  | nil => rfl
  | cons byte skipped ih => rw [List.length_cons, List.cons_append, decodeAfter, ih]

theorem decodeAfter_encode (chars : List Char) : decodeAfter 0 (encode chars) = chars.map some := by
  induction chars with
  | nil => rfl
  | cons c chars ih =>
    obtain ⟨first, others, hbytes, hone⟩ := decodeOne_encodeChar c
    rw [encode, List.flatMap_cons, hbytes, List.cons_append, decodeAfter, hone]
    simp only
    rw [decodeAfter_length, List.map_cons]
    exact congrArg _ ih

/-- The bytes of a text are read back as that text. -/
theorem decodeLossy_encode (chars : List Char) : decodeLossy (encode chars) = chars := by
  rw [decodeLossy, decodeAfter_encode, List.map_map]
  exact List.map_id' chars

theorem encode_append (left right : List Char) :
    encode (left ++ right) = encode left ++ encode right :=
  List.flatMap_append

/-- The last byte of a character is one of ASCII only if the character is. -/
theorem encodeChar_last (c : Char) : ∃ front last, String.utf8EncodeChar c = front ++ [last] ∧
    (last.toNat < 0x80 → front = [] ∧ c = Char.ofNat last.toNat) := by
  have hback : Char.ofNat c.val.toNat = c := Char.ofNat_toNat c
  have hcontinues : ∀ v, ¬ (UInt8.ofNat (v % 64 + 128)).toNat < 0x80 := by
    intro v
    rw [UInt8.toNat_ofNat']
    omega
  unfold String.utf8EncodeChar
  simp only
  split
  · refine ⟨[], _, rfl, fun _ => ⟨rfl, ?_⟩⟩
    rw [UInt8.toNat_ofNat', Nat.mod_eq_of_lt (by omega), hback]
  split
  · exact ⟨[_], _, rfl, fun hascii => absurd hascii (hcontinues _)⟩
  split
  · exact ⟨[_, _], _, rfl, fun hascii => absurd hascii (hcontinues _)⟩
  · exact ⟨[_, _, _], _, rfl, fun hascii => absurd hascii (hcontinues _)⟩

/-- A byte of ASCII at the end of a text's bytes is the text's last character. -/
theorem exists_of_encode_eq {chars : List Char} {front : List UInt8} {last : UInt8}
    (h : encode chars = front ++ [last]) (hascii : last.toNat < 0x80) :
    ∃ before, chars = before ++ [Char.ofNat last.toNat] ∧ encode before = front := by
  cases chars using List.reverseRecOn with
  | nil => simp [encode] at h
  | append_singleton before c =>
    obtain ⟨others, final, hbytes, hfinal⟩ := encodeChar_last c
    have hsingle : encode [c] = String.utf8EncodeChar c := List.append_nil _
    rw [encode_append, hsingle, hbytes, ← List.append_assoc] at h
    obtain ⟨hfront, hlast⟩ := List.append_inj' h rfl
    obtain rfl := List.singleton_inj.mp hlast
    obtain ⟨rfl, rfl⟩ := hfinal hascii
    exact ⟨before, rfl, by simpa using hfront⟩

end Utf8

/-! ## Percent encoding -/

namespace Percent

theorem value?_digit : ∀ n < 16, value? (digit n) = some n := by decide

theorem decode_encodeByte (byte : UInt8) (rest : List Char) :
    decode (encodeByte byte ++ rest) = byte :: decode rest := by
  have hlt : byte.toNat < 256 := byte.toNat_lt
  have hbyte : 16 * (byte.toNat / 16) + byte.toNat % 16 = byte.toNat := Nat.div_add_mod _ _
  simp only [encodeByte, List.cons_append, List.nil_append, decode,
    value?_digit (byte.toNat / 16) (by omega), value?_digit (byte.toNat % 16) (by omega), hbyte,
    UInt8.ofNat_toNat]

theorem decode_encodeBytes (bytes : List UInt8) (rest : List Char) :
    decode (bytes.flatMap encodeByte ++ rest) = bytes ++ decode rest := by
  induction bytes with
  | nil => rfl
  | cons byte bytes ih =>
    rw [List.flatMap_cons, List.append_assoc, decode_encodeByte, ih, List.cons_append]

theorem decode_cons {c : Char} (h : c ≠ '%') (rest : List Char) :
    decode (c :: rest) = String.utf8EncodeChar c ++ decode rest := by
  rw [decode]
  exact fun _ _ _ hpercent => absurd hpercent h

/-- Decoding undoes encoding, as long as the percent sign is among what is encoded. -/
theorem decode_encode {set : Char → Bool} (h : set '%' = true) (chars rest : List Char) :
    decode (encode set chars ++ rest) = Utf8.encode chars ++ decode rest := by
  induction chars with
  | nil => rfl
  | cons c chars ih =>
    rw [encode, List.flatMap_cons, ← encode, Utf8.encode, List.flatMap_cons, ← Utf8.encode,
      List.append_assoc, List.append_assoc]
    split
    · rename_i hplain
      have hpercent : c ≠ '%' := by
        rintro rfl
        simp [h] at hplain
      rw [List.singleton_append, decode_cons hpercent, ih]
    · rw [decode_encodeBytes, ih]

end Percent

/-! ## Paths -/

namespace Uri

/-- A text ends like the letter of a drive. -/
def endsInDrive (chars : List Char) : Bool :=
  match chars.reverse with
  | last :: letter :: _ => letter.isAlpha && (last == ':' || last == '|')
  | _ => false

theorem isAlpha_ofNat : ∀ n < 0x80, 0x41 ≤ n ∧ n ≤ 0x5A ∨ 0x61 ≤ n ∧ n ≤ 0x7A →
    (Char.ofNat n).isAlpha = true := by decide

/-- A text without such an end is left as it is. -/
theorem closeDrive_encode {chars : List Char} (h : endsInDrive chars = false) :
    closeDrive (Utf8.encode chars) = Utf8.encode chars := by
  unfold closeDrive
  split
  · rename_i last letter before others hbytes
    have hends : Utf8.encode chars = others.reverse ++ [before] ++ [letter] ++ [last] := by
      rw [← List.reverse_reverse (Utf8.encode chars), hbytes]
      simp
    refine if_neg fun ⟨hletter, hlast⟩ => ?_
    -- Both bytes are of ASCII, so they are the last two characters of the text.
    simp only [UInt8.le_iff_toNat_le] at hletter
    have hascii : letter.toNat < 0x80 := by
      rcases hletter with ⟨-, hle⟩ | ⟨-, hle⟩ <;> exact Nat.lt_of_le_of_lt hle (by decide)
    obtain ⟨front, rfl, hfront⟩ := Utf8.exists_of_encode_eq hends
      (by rcases hlast with rfl | rfl <;> decide)
    obtain ⟨front, rfl, -⟩ := Utf8.exists_of_encode_eq hfront hascii
    have halpha := isAlpha_ofNat letter.toNat hascii hletter
    simp only [endsInDrive, List.reverse_append, List.reverse_singleton, List.singleton_append,
      halpha, Bool.true_and] at h
    rcases hlast with rfl | rfl <;> exact absurd h (by decide)
  · rfl

/-- The text of some components, each with a slash before it. -/
def slashed (components : List PathComponent) : List Char :=
  components.flatMap fun component => '/' :: (componentText component).toList

theorem slashed_cons (component : PathComponent) (components : List PathComponent) :
    slashed (component :: components)
      = '/' :: ((componentText component).toList ++ slashed components) := rfl

theorem decode_parts (components : List PathComponent) :
    Percent.decode (components.map fun component =>
        '/' :: Percent.encode Percent.inFileName (componentText component).toList).flatten
      = Utf8.encode (slashed components) := by
  induction components with
  | nil => rfl
  | cons component components ih =>
    rw [List.map_cons, List.flatten_cons, List.cons_append, Percent.decode_cons (by decide),
      Percent.decode_encode (by decide), ih, slashed_cons, ← Utf8.encode_append]
    rfl

/-- The path that is read from the identifier of a file. -/
theorem filePath?_ofFilePath? {path : FilePath} {uri : Uri} (h : ofFilePath? path = some uri)
    (hinner : path.components.drop 1 ≠ [])
    (hdrive : endsInDrive (slashed (path.components.drop 1)) = false) :
    uri.filePath? = some ⟨String.ofList (slashed (path.components.drop 1))⟩ := by
  rw [ofFilePath?] at h
  split at h
  · obtain rfl := Option.some.inj h
    obtain ⟨component, components, hcons⟩ := List.exists_cons_of_ne_nil hinner
    have hslash : (((path.components.drop 1).map fun component =>
        '/' :: Percent.encode Percent.inFileName (componentText component).toList).flatten).head?
          = some '/' := by
      rw [hcons]
      rfl
    have hparts : ((path.components.drop 1).map fun component =>
        '/' :: Percent.encode Percent.inFileName (componentText component).toList).isEmpty = false := by
      rw [hcons]
      rfl
    simp only [filePath?, hparts, Bool.false_eq_true, if_false, String.toList_ofList, hslash, if_true, decode_parts,
      closeDrive_encode hdrive, Utf8.decodeLossy_encode]
    rfl
  · cases h

end Uri

end Azsl
