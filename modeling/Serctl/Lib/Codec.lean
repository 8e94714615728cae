import Mathlib.Data.Nat.Digits.Lemmas
import Serctl.Lib.Bytes

/-!
# Text codecs

A codec writes values as one line of printable bytes and reads them back in front of anything.
Texts, numbers and enumerations are put together to records field by field, and the round trip of
a record follows from those of its fields.
-/

namespace Serctl.Lib

open List

/-- A writer of single lines together with its reader. -/
structure Codec (α : Type) where
  encode : α → List UInt8
  /-- Read one value and return what stands behind it. -/
  decode : List UInt8 → Option (α × List UInt8)
  /-- The values that are read back. -/
  Fits : α → Prop
  roundtrip : ∀ a, Fits a → ∀ rest, decode (encode a ++ rest) = some (a, rest)
  printable : ∀ a, Fits a → ∀ b ∈ encode a, (32 : UInt8) ≤ b

namespace Codec

variable {α β : Type}

/-- Read a value and nothing else. -/
def parse (c : Codec α) (bytes : List UInt8) : Option α :=
  match c.decode bytes with
  | some (a, []) => some a
  | _ => none

/-- What is written is read back. -/
theorem parse_encode (c : Codec α) {a : α} (h : c.Fits a) : c.parse (c.encode a) = some a := by
  have hread := c.roundtrip a h []
  rw [append_nil] at hread
  simp [parse, hread]

/-- Different values are written differently. -/
theorem encode_injective (c : Codec α) {a b : α} (ha : c.Fits a) (hb : c.Fits b)
    (h : c.encode a = c.encode b) : a = b := by
  have hread := c.parse_encode ha
  rw [h, c.parse_encode hb] at hread
  exact (Option.some.inj hread).symm

/-! ## Putting codecs together -/

/-- What stands behind a text. -/
def strip : List UInt8 → List UInt8 → Option (List UInt8)
  | [], bytes => some bytes
  | t :: text, b :: bytes => if t = b then strip text bytes else none
  | _ :: _, [] => none

theorem strip_append (text rest : List UInt8) : strip text (text ++ rest) = some rest := by
  induction text with
  | nil => cases rest <;> rfl
  | cons t text ih => simp [strip, ih]

/-- A text made of printable bytes. -/
def IsPrintable (text : String) : Prop := ∀ b ∈ Text.utf8Bytes text, (32 : UInt8) ≤ b

instance (text : String) : Decidable (IsPrintable text) :=
  decidableBAll (fun b => (32 : UInt8) ≤ b) (Text.utf8Bytes text)

theorem isPrintable_quote : IsPrintable "\"" := by decide

theorem isPrintable_brace : IsPrintable "\x7d" := by decide

/-- With a text in front. -/
def after (text : String) (c : Codec α) (htext : IsPrintable text) : Codec α where
  encode a := Text.utf8Bytes text ++ c.encode a
  decode bytes := (strip (Text.utf8Bytes text) bytes).bind c.decode
  Fits := c.Fits
  roundtrip := by
    intro a ha rest
    rw [append_assoc, strip_append]
    exact c.roundtrip a ha rest
  printable := by
    intro a ha b hb
    rcases mem_append.mp hb with hb | hb
    · exact htext b hb
    · exact c.printable a ha b hb

/-- With a text behind. -/
def before (c : Codec α) (text : String) (htext : IsPrintable text) : Codec α where
  encode a := c.encode a ++ Text.utf8Bytes text
  decode bytes := (c.decode bytes).bind fun (a, rest) =>
    (strip (Text.utf8Bytes text) rest).map fun rest => (a, rest)
  Fits := c.Fits
  roundtrip := by
    intro a ha rest
    rw [append_assoc, c.roundtrip a ha]
    simp [strip_append]
  printable := by
    intro a ha b hb
    rcases mem_append.mp hb with hb | hb
    · exact c.printable a ha b hb
    · exact htext b hb

/-- One after the other. -/
def seq (c : Codec α) (d : Codec β) : Codec (α × β) where
  encode p := c.encode p.1 ++ d.encode p.2
  decode bytes := (c.decode bytes).bind fun (a, rest) =>
    (d.decode rest).map fun (b, rest) => ((a, b), rest)
  Fits p := c.Fits p.1 ∧ d.Fits p.2
  roundtrip := by
    intro p hp rest
    rw [append_assoc, c.roundtrip p.1 hp.1]
    simp [d.roundtrip p.2 hp.2]
  printable := by
    intro p hp b hb
    rcases mem_append.mp hb with hb | hb
    · exact c.printable p.1 hp.1 b hb
    · exact d.printable p.2 hp.2 b hb

/-- A tag that tells what follows. -/
def tagged {T : Type} {F : T → Type} (c : Codec T) (d : (t : T) → Codec (F t)) :
    Codec (Σ t, F t) where
  encode p := c.encode p.1 ++ (d p.1).encode p.2
  decode bytes := (c.decode bytes).bind fun (t, rest) =>
    ((d t).decode rest).map fun (b, rest) => (⟨t, b⟩, rest)
  Fits p := c.Fits p.1 ∧ (d p.1).Fits p.2
  roundtrip := by
    intro p hp rest
    rw [append_assoc, c.roundtrip p.1 hp.1]
    simp [(d p.1).roundtrip p.2 hp.2]
  printable := by
    intro p hp b hb
    rcases mem_append.mp hb with hb | hb
    · exact c.printable p.1 hp.1 b hb
    · exact (d p.1).printable p.2 hp.2 b hb

/-- No field. -/
def nothing : Codec Unit where
  encode _ := []
  decode bytes := some ((), bytes)
  Fits _ := True
  roundtrip _ _ _ := rfl
  printable _ _ _ hb := absurd hb not_mem_nil

/-- A field that may be missing, in front of one that is never read for it. -/
def optionally (c : Codec α) (d : Codec β)
    (happart : ∀ y, d.Fits y → ∀ rest, c.decode (d.encode y ++ rest) = none) :
    Codec (Option α × β) where
  encode p := p.1.elim [] c.encode ++ d.encode p.2
  decode bytes := match c.decode bytes with
    | some (a, rest) => (d.decode rest).map fun (b, rest) => ((some a, b), rest)
    | none => (d.decode bytes).map fun (b, rest) => ((none, b), rest)
  Fits p := (∀ a, p.1 = some a → c.Fits a) ∧ d.Fits p.2
  roundtrip := by
    intro p hp rest
    obtain ⟨x, y⟩ := p
    obtain ⟨hx, hy⟩ := hp
    cases x with
    | some a => simp [c.roundtrip a (hx a rfl), d.roundtrip y hy]
    | none => simp [happart y hy, d.roundtrip y hy]
  printable := by
    intro p hp b hb
    obtain ⟨x, y⟩ := p
    obtain ⟨hx, hy⟩ := hp
    rcases mem_append.mp hb with hb | hb
    · cases x with
      | some a => exact c.printable a (hx a rfl) b hb
      | none => cases hb
    · exact d.printable y hy b hb

/-- The same text for values of another type. -/
def convert (c : Codec α) (unpack : β → α) (pack : α → Option β) (Fits : β → Prop)
    (h : ∀ b, Fits b → c.Fits (unpack b) ∧ pack (unpack b) = some b) : Codec β where
  encode b := c.encode (unpack b)
  decode bytes := (c.decode bytes).bind fun (a, rest) => (pack a).map fun b => (b, rest)
  Fits := Fits
  roundtrip := by
    intro b hb rest
    rw [c.roundtrip _ (h b hb).1]
    simp [(h b hb).2]
  printable := by
    intro b hb
    exact c.printable _ (h b hb).1

/-- Read a number of values. -/
def decodeTimes (c : Codec α) : Nat → List UInt8 → Option (List α × List UInt8)
  | 0, bytes => some ([], bytes)
  | n + 1, bytes => (c.decode bytes).bind fun (a, rest) =>
      (decodeTimes c n rest).map fun (as, rest) => (a :: as, rest)

/-- Many values one after the other. -/
theorem decodeTimes_flatMap (c : Codec α) {as : List α} (h : ∀ a ∈ as, c.Fits a)
    (rest : List UInt8) :
    decodeTimes c as.length (as.flatMap c.encode ++ rest) = some (as, rest) := by
  induction as with
  | nil => rfl
  | cons a as ih =>
    have hfirst := c.roundtrip a (h a (by simp)) (as.flatMap c.encode ++ rest)
    have hlater := ih fun b hb => h b (by simp [hb])
    simp [decodeTimes, hfirst, hlater]

/-- A number of values one after the other. -/
def times (n : Nat) (c : Codec α) : Codec (List α) where
  encode as := as.flatMap c.encode
  decode := decodeTimes c n
  Fits as := as.length = n ∧ ∀ a ∈ as, c.Fits a
  roundtrip := by
    intro as has rest
    rw [← has.1]
    exact decodeTimes_flatMap c has.2 rest
  printable := by
    intro as has b hb
    obtain ⟨a, ha, hb⟩ := mem_flatMap.mp hb
    exact c.printable a (has.2 a ha) b hb

/-! ## Fields -/

/-- The bytes in front of the first stop byte, and those behind it. -/
def splitAtStop (stop : UInt8) : List UInt8 → Option (List UInt8 × List UInt8)
  | [] => none
  | b :: bytes =>
    if b = stop then some ([], bytes)
    else (splitAtStop stop bytes).map fun (front, rest) => (b :: front, rest)

theorem splitAtStop_append {stop : UInt8} {front : List UInt8} (h : stop ∉ front)
    (rest : List UInt8) : splitAtStop stop (front ++ stop :: rest) = some (front, rest) := by
  induction front with
  | nil => simp [splitAtStop]
  | cons b front ih =>
    have hb : b ≠ stop := fun he => h (by simp [he])
    have hrest : stop ∉ front := fun hm => h (by simp [hm])
    simp [splitAtStop, hb, ih hrest]

/-- Any printable bytes up to a stop byte. -/
def upTo (stop : UInt8) (hstop : 32 ≤ stop) : Codec (List UInt8) where
  encode front := front ++ [stop]
  decode := splitAtStop stop
  Fits front := stop ∉ front ∧ ∀ b ∈ front, (32 : UInt8) ≤ b
  roundtrip := by
    intro front hfront rest
    rw [append_assoc]
    exact splitAtStop_append hfront.1 rest
  printable := by
    intro front hfront b hb
    rcases mem_append.mp hb with hb | hb
    · exact hfront.2 b hb
    · rw [mem_singleton.mp hb]
      exact hstop

/-- The decimal digits of a number. -/
def decimalDigits (n : Nat) : List UInt8 :=
  if n = 0 then [48] else (Nat.digits 10 n).reverse.map fun d => UInt8.ofNat (48 + d)

instance (bytes : List UInt8) : Decidable (∀ b ∈ bytes, 48 ≤ b ∧ b ≤ 57) :=
  decidableBAll (fun b => 48 ≤ b ∧ b ≤ 57) bytes

/-- The value of decimal digits. -/
def parseDecimal (bytes : List UInt8) : Option Nat :=
  if bytes ≠ [] ∧ ∀ b ∈ bytes, 48 ≤ b ∧ b ≤ 57 then
    some (Nat.ofDigits 10 (bytes.reverse.map fun b => b.toNat - 48))
  else none

theorem digit_toNat {d : Nat} (hd : d < 10) : (UInt8.ofNat (48 + d)).toNat = 48 + d := by
  rw [UInt8.toNat_ofNat', Nat.mod_eq_of_lt (by omega)]

variable {n : Nat}

theorem mem_decimalDigits {b : UInt8} (h : b ∈ decimalDigits n) : 48 ≤ b ∧ b ≤ 57 := by
  unfold decimalDigits at h
  split at h
  · rw [mem_singleton.mp h]
    decide
  · obtain ⟨d, hd, rfl⟩ := mem_map.mp h
    have hlt : d < 10 := Nat.digits_lt_base (by omega) (mem_reverse.mp hd)
    rw [UInt8.le_iff_toNat_le, UInt8.le_iff_toNat_le, digit_toNat hlt]
    constructor
    · show 48 ≤ 48 + d
      omega
    · show 48 + d ≤ 57
      omega

/-- Numbers are read back. -/
theorem parseDecimal_decimalDigits (n : Nat) : parseDecimal (decimalDigits n) = some n := by
  have hdigits : ∀ b ∈ decimalDigits n, 48 ≤ b ∧ b ≤ 57 := fun b hb => mem_decimalDigits hb
  have hne : decimalDigits n ≠ [] := by
    unfold decimalDigits
    split
    · simp
    · rename_i hn
      simp [Nat.digits_ne_nil_iff_ne_zero.mpr hn]
  unfold parseDecimal
  rw [if_pos ⟨hne, hdigits⟩]
  congr 1
  unfold decimalDigits
  split
  · rename_i hn
    subst hn
    rfl
  · have hback : (Nat.digits 10 n).map (fun d => (UInt8.ofNat (48 + d)).toNat - 48) =
        Nat.digits 10 n := by
      conv_rhs => rw [← map_id (Nat.digits 10 n)]
      apply map_congr_left
      intro d hd
      rw [digit_toNat (Nat.digits_lt_base (by omega) hd)]
      simp
    rw [← map_reverse, reverse_reverse, map_map]
    show Nat.ofDigits 10 ((Nat.digits 10 n).map fun d => (UInt8.ofNat (48 + d)).toNat - 48) = n
    rw [hback, Nat.ofDigits_digits]

/-- Numbers below a power of ten have few digits. -/
theorem length_decimalDigits_le {k : Nat} (hn : n < 10 ^ k) (hk : 0 < k) :
    (decimalDigits n).length ≤ k := by
  unfold decimalDigits
  split
  · exact hk
  · rw [length_map, length_reverse]
    exact (Nat.digits_length_le_iff (by omega) n).mpr hn

theorem stop_comma : (32 : UInt8) ≤ 44 ∧ ¬((48 : UInt8) ≤ 44 ∧ (44 : UInt8) ≤ 57) := by decide

theorem stop_brace : (32 : UInt8) ≤ 125 ∧ ¬((48 : UInt8) ≤ 125 ∧ (125 : UInt8) ≤ 57) := by decide

/-- A number and the byte that ends it, which is not a digit. -/
def decimal (stop : UInt8) (hstop : 32 ≤ stop ∧ ¬(48 ≤ stop ∧ stop ≤ 57)) : Codec Nat :=
  convert (upTo stop hstop.1) decimalDigits parseDecimal (fun _ => True) (by
    intro n _
    refine ⟨⟨?_, ?_⟩, parseDecimal_decimalDigits n⟩
    · intro hmem
      exact hstop.2 (mem_decimalDigits hmem)
    · intro b hb
      exact UInt8.le_trans (by decide) (mem_decimalDigits hb).1)

/-- A number of a fixed width and the byte that ends it. -/
def numeral (toNat : α → Nat) (ofNat : Nat → α) (bound : Nat) (hbound : ∀ a, toNat a < bound)
    (hback : ∀ a, ofNat (toNat a) = a) (stop : UInt8)
    (hstop : 32 ≤ stop ∧ ¬(48 ≤ stop ∧ stop ≤ 57)) : Codec α :=
  convert (decimal stop hstop) toNat (fun n => if n < bound then some (ofNat n) else none)
    (fun _ => True) (by
      intro a _
      refine ⟨trivial, ?_⟩
      rw [if_pos (hbound a), hback])

/-- A character that stands for itself between quotation marks. -/
def isPlainChar (c : Char) : Bool := ' ' ≤ c && c ≤ '~' && c != '"' && c != '\\'

/-- Bytes as characters. -/
def asciiText (bytes : List UInt8) : String :=
  String.ofList (bytes.map fun b => Char.ofNat b.toNat)

variable {c : Char}

/-- The code of a plain character is printable ASCII and not a quotation mark. -/
theorem toNat_of_isPlainChar (h : isPlainChar c = true) :
    32 ≤ c.toNat ∧ c.toNat < 128 ∧ c.toNat ≠ 34 := by
  simp only [isPlainChar, Bool.and_eq_true, decide_eq_true_eq, bne_iff_ne] at h
  obtain ⟨⟨⟨hlow, hhigh⟩, hquote⟩, -⟩ := h
  have hlow' : 32 ≤ c.toNat := hlow
  have hhigh' : c.toNat ≤ 126 := hhigh
  refine ⟨hlow', by omega, fun he => hquote ?_⟩
  rw [← Char.ofNat_toNat c, he]

theorem isPlainChar_of_toNat (hlow : 32 ≤ c.toNat) (hhigh : c.toNat ≤ 126)
    (hquote : c.toNat ≠ 34) (hescape : c.toNat ≠ 92) : isPlainChar c = true := by
  simp only [isPlainChar, Bool.and_eq_true, decide_eq_true_eq, bne_iff_ne]
  refine ⟨⟨⟨hlow, hhigh⟩, ?_⟩, ?_⟩
  · intro he
    exact hquote (by rw [he]; rfl)
  · intro he
    exact hescape (by rw [he]; rfl)

theorem utf8EncodeChar_ascii (h : c.toNat < 128) :
    String.utf8EncodeChar c = [UInt8.ofNat c.toNat] := by
  have hle : c.val.toNat ≤ 127 := Nat.le_of_lt_succ h
  simp only [String.utf8EncodeChar, if_pos hle]
  rfl

theorem utf8Bytes_plain {s : String} (h : s.toList.all isPlainChar = true) :
    Text.utf8Bytes s = s.toList.map fun c => UInt8.ofNat c.toNat := by
  unfold Text.utf8Bytes
  generalize s.toList = chars at h ⊢
  induction chars with
  | nil => rfl
  | cons c cs ih =>
    rw [all_cons, Bool.and_eq_true] at h
    have hc := toNat_of_isPlainChar h.1
    rw [flatMap_cons, utf8EncodeChar_ascii hc.2.1, ih h.2]
    rfl

/-- Plain texts are read back. -/
theorem asciiText_utf8Bytes {s : String} (h : s.toList.all isPlainChar = true) :
    asciiText (Text.utf8Bytes s) = s := by
  have hback : (s.toList.map fun c => UInt8.ofNat c.toNat).map (fun b => Char.ofNat b.toNat) =
      s.toList := by
    rw [map_map]
    conv_rhs => rw [← map_id s.toList]
    apply map_congr_left
    intro c hc
    have hascii := toNat_of_isPlainChar (all_eq_true.mp h c hc)
    show Char.ofNat (UInt8.ofNat c.toNat).toNat = c
    rw [UInt8.toNat_ofNat', Nat.mod_eq_of_lt (by omega), Char.ofNat_toNat]
  unfold asciiText
  rw [utf8Bytes_plain h, hback, String.ofList_toList]

theorem plain_of_isLowerHex {value : String} (h : Text.isLowerHex value n = true) :
    value.toList.all isPlainChar = true := by
  simp only [Text.isLowerHex, Bool.and_eq_true] at h
  rw [all_eq_true] at h ⊢
  intro c hc
  have hdigit := h.2 c hc
  simp only [Bool.or_eq_true, Bool.and_eq_true, decide_eq_true_eq] at hdigit
  have hcode : (48 ≤ c.toNat ∧ c.toNat ≤ 57) ∨ (97 ≤ c.toNat ∧ c.toNat ≤ 102) := hdigit
  apply isPlainChar_of_toNat <;> omega

theorem length_of_isLowerHex {value : String} (h : Text.isLowerHex value n = true) :
    (Text.utf8Bytes value).length = 2 * n := by
  rw [utf8Bytes_plain (plain_of_isLowerHex h), length_map]
  simp only [Text.isLowerHex, Bool.and_eq_true, beq_iff_eq] at h
  exact h.1

/-- A text between quotation marks. -/
def quoted : Codec String :=
  after "\"" (convert (upTo 34 (by decide)) Text.utf8Bytes (fun bytes => some (asciiText bytes))
    (fun s => s.toList.all isPlainChar = true) (by
      intro s hs
      refine ⟨?_, by rw [asciiText_utf8Bytes hs]⟩
      have hbyte : ∀ b ∈ Text.utf8Bytes s, 32 ≤ b.toNat ∧ b.toNat ≠ 34 := by
        intro b hb
        rw [utf8Bytes_plain hs] at hb
        obtain ⟨c, hc, rfl⟩ := mem_map.mp hb
        have hascii := toNat_of_isPlainChar (all_eq_true.mp hs c hc)
        rw [UInt8.toNat_ofNat', Nat.mod_eq_of_lt (by omega)]
        exact ⟨hascii.1, hascii.2.2⟩
      refine ⟨fun hmem => (hbyte _ hmem).2 rfl, fun b hb => ?_⟩
      exact UInt8.le_iff_toNat_le.mpr (hbyte b hb).1)) isPrintable_quote

/-- A value named by a text. -/
def named (name : α → String) (all : List α)
    (hplain : ∀ a, (name a).toList.all isPlainChar = true)
    (hfind : ∀ a, all.find? (fun b => name b = name a) = some a) : Codec α :=
  convert quoted name (fun s => all.find? fun b => name b = s) (fun _ => True) (by
    intro a _
    exact ⟨hplain a, hfind a⟩)

end Codec

end Serctl.Lib
