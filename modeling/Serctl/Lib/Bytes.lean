import Mathlib.Data.List.Basic
import Mathlib.Tactic.IntervalCases
import Serctl.Lib.Text

/-!
# Byte strings

Byte arrays of a fixed length carry their length in the type.  A message that is put together
from parts of fixed length and one last part of any length can be taken apart again, which is
what hashing such a message relies on.
-/

namespace Serctl.Lib

open List

/-- Byte arrays of length `n`. -/
abbrev Bytes (n : Nat) := { b : List UInt8 // b.length = n }

namespace Bytes

/-- The array of zeros. -/
def zero (n : Nat) : Bytes n := ⟨List.replicate n 0, List.length_replicate⟩

/-- The array that holds the same byte everywhere. -/
def fill (n : Nat) (b : UInt8) : Bytes n := ⟨List.replicate n b, List.length_replicate⟩

variable {n : Nat}

theorem length_val (b : Bytes n) : b.val.length = n := b.property

/-- Parts of the same length at the head of equal messages are equal, and so are the rests. -/
theorem append_left_inj {a b : Bytes n} {s t : List UInt8}
    (h : a.val ++ s = b.val ++ t) : a = b ∧ s = t := by
  have hlen : a.val.length = b.val.length := by rw [a.property, b.property]
  obtain ⟨hval, hrest⟩ := append_inj h hlen
  exact ⟨Subtype.ext hval, hrest⟩

/-- Lexicographic order of byte strings. -/
def le : List UInt8 → List UInt8 → Bool
  | [], _ => true
  | _ :: _, [] => false
  | a :: as, b :: bs => a < b || (a == b && le as bs)

/-- The `n` low bytes of a number, most significant first. -/
def beBytes : (n : Nat) → Nat → Bytes n
  | 0, _ => ⟨[], rfl⟩
  | n + 1, v => ⟨(beBytes n (v / 256)).val ++ [UInt8.ofNat v], by
      rw [List.length_append, (beBytes n (v / 256)).property]
      rfl⟩

theorem beBytes_injective : ∀ {v w : Nat}, v < 256 ^ n → w < 256 ^ n →
    beBytes n v = beBytes n w → v = w := by
  induction n with
  | zero =>
    intro v w hv hw _
    simp only [Nat.pow_zero] at hv hw
    omega
  | succ n ih =>
    intro v w hv hw h
    -- compare the last byte and what stands before it
    have hval := congrArg Subtype.val h
    simp only [beBytes] at hval
    obtain ⟨hhigh, hlow⟩ := append_inj' hval rfl
    have hquot : v / 256 = w / 256 := by
      apply ih
      · rw [Nat.pow_succ] at hv
        omega
      · rw [Nat.pow_succ] at hw
        omega
      · exact Subtype.ext hhigh
    have hbyte : UInt8.ofNat v = UInt8.ofNat w := by simpa using hlow
    have hmod : v % 256 = w % 256 := by
      have hnat := congrArg UInt8.toNat hbyte
      simpa using hnat
    omega

end Bytes

/-! ## Hexadecimal spelling -/

namespace Text

/-- The UTF-8 encoding of a text. -/
def utf8Bytes (s : String) : List UInt8 := s.toList.flatMap String.utf8EncodeChar

theorem length_utf8Bytes (s : String) : (utf8Bytes s).length = byteLen s := by
  have hbytes : s.toByteArray = (utf8Bytes s).toByteArray := String.utf8Encode_toList.symm
  show (utf8Bytes s).length = s.toByteArray.size
  rw [hbytes, size_toByteArray]

theorem hexValue_digitChar {d : Nat} (hd : d < 16) : hexValue (Nat.digitChar d) = some d := by
  interval_cases d <;> rfl

theorem hexDecodeChars_hexEncode (bytes : List UInt8) :
    hexDecodeChars (bytes.flatMap fun b =>
      [Nat.digitChar (b.toNat / 16), Nat.digitChar (b.toNat % 16)]) = some bytes := by
  induction bytes with
  | nil => rfl
  | cons b bytes ih =>
    have hb : b.toNat < 256 := b.toNat_lt
    have hhigh : hexValue (Nat.digitChar (b.toNat / 16)) = some (b.toNat / 16) :=
      hexValue_digitChar (by omega)
    have hlow : hexValue (Nat.digitChar (b.toNat % 16)) = some (b.toNat % 16) :=
      hexValue_digitChar (Nat.mod_lt _ (by omega))
    have hbyte : UInt8.ofNat (16 * (b.toNat / 16) + b.toNat % 16) = b := by
      rw [Nat.div_add_mod]
      simp
    simp only [flatMap_cons, cons_append, nil_append, hexDecodeChars, hhigh, hlow,
      ih, Option.bind_eq_bind, Option.bind_some, Option.pure_def, hbyte]

@[simp] theorem hexDecode_hexEncode (bytes : List UInt8) :
    hexDecode (hexEncode bytes) = some bytes := by
  simp [hexDecode, hexEncode, hexDecodeChars_hexEncode]

theorem hexEncode_injective {a b : List UInt8} (h : hexEncode a = hexEncode b) : a = b := by
  have hdecoded := congrArg hexDecode h
  simpa using hdecoded

theorem digitChar_isLowerHex {d : Nat} (hd : d < 16) :
    (('0' ≤ Nat.digitChar d && Nat.digitChar d ≤ '9') ||
      ('a' ≤ Nat.digitChar d && Nat.digitChar d ≤ 'f')) = true := by
  interval_cases d <;> rfl

theorem isLowerHex_hexEncode (bytes : List UInt8) :
    isLowerHex (hexEncode bytes) bytes.length = true := by
  simp only [isLowerHex, hexEncode, String.toList_ofList, Bool.and_eq_true, beq_iff_eq]
  refine ⟨?_, ?_⟩
  · induction bytes with
    | nil => rfl
    | cons b bytes ih =>
      simp only [flatMap_cons, length_append, length_cons, length_nil] at ih ⊢
      omega
  · rw [all_eq_true]
    intro c hc
    obtain ⟨b, -, hb⟩ := mem_flatMap.mp hc
    have hlt : b.toNat < 256 := b.toNat_lt
    simp only [mem_cons, not_mem_nil, or_false] at hb
    rcases hb with rfl | rfl
    · exact digitChar_isLowerHex (by omega)
    · exact digitChar_isLowerHex (Nat.mod_lt _ (by omega))

end Text

end Serctl.Lib
