import Mathlib.Data.Finset.Sort
import Serctl.Lib.Codec
import Serctl.Lib.Wire

/-!
# JSON values

Codecs for compact JSON: texts with the escapes that a writer of minimal JSON uses, arrays, ordered
sets as arrays of their elements in order, and records of two kinds that a tag tells apart.
-/

namespace Serctl.Lib.Json

open Codec Lib.Text

/-! ## Texts -/

/-- A hexadecimal digit in lower case. -/
def hexDigit (n : Nat) : UInt8 := UInt8.ofNat (if n < 10 then 48 + n else 87 + n)

/-- The value of a hexadecimal digit in lower case. -/
def hexDigitValue (b : UInt8) : Option Nat :=
  if 48 ≤ b ∧ b ≤ 57 then some (b.toNat - 48)
  else if 97 ≤ b ∧ b ≤ 102 then some (b.toNat - 87)
  else none

variable {n : Nat}

theorem hexDigitValue_hexDigit (h : n < 16) : hexDigitValue (hexDigit n) = some n := by
  revert n
  decide

theorem hexDigit_printable (h : n < 16) : 32 ≤ hexDigit n := by
  revert n
  decide

/-- A byte of a text: quotation mark, backslash and what is below the space are escaped. -/
def escapeByte (b : UInt8) : List UInt8 :=
  if b = 34 then [92, 34]
  else if b = 92 then [92, 92]
  else if b = 8 then [92, 98]
  else if b = 9 then [92, 116]
  else if b = 10 then [92, 110]
  else if b = 12 then [92, 102]
  else if b = 13 then [92, 114]
  else if b < 32 then [92, 117, 48, 48, hexDigit (b.toNat / 16), hexDigit (b.toNat % 16)]
  else [b]

/-- Read one byte of a text and return what stands behind it. -/
def unescapeByte : List UInt8 → Option (UInt8 × List UInt8)
  | 92 :: 34 :: rest => some (34, rest)
  | 92 :: 92 :: rest => some (92, rest)
  | 92 :: 98 :: rest => some (8, rest)
  | 92 :: 116 :: rest => some (9, rest)
  | 92 :: 110 :: rest => some (10, rest)
  | 92 :: 102 :: rest => some (12, rest)
  | 92 :: 114 :: rest => some (13, rest)
  | 92 :: 117 :: 48 :: 48 :: high :: low :: rest =>
    (hexDigitValue high).bind fun h => (hexDigitValue low).map fun l =>
      (UInt8.ofNat (16 * h + l), rest)
  | b :: rest => if b = 34 ∨ b = 92 ∨ b < 32 then none else some (b, rest)
  | [] => none

theorem unescapeByte_escapeByte (b : UInt8) (rest : List UInt8) :
    unescapeByte (escapeByte b ++ rest) = some (b, rest) := by
  unfold escapeByte
  split_ifs with hquote hslash h8 h9 h10 h12 h13 hcontrol
  case pos => rw [hquote]; rfl
  case pos => rw [hslash]; rfl
  case pos => rw [h8]; rfl
  case pos => rw [h9]; rfl
  case pos => rw [h10]; rfl
  case pos => rw [h12]; rfl
  case pos => rw [h13]; rfl
  case pos =>
    -- the two digits hold the two halves of the byte
    have hhigh := hexDigitValue_hexDigit (n := b.toNat / 16) (by have := b.toNat_lt; omega)
    have hlow := hexDigitValue_hexDigit (n := b.toNat % 16) (by omega)
    have hback : 16 * (b.toNat / 16) + b.toNat % 16 = b.toNat := by omega
    simp only [List.cons_append, List.nil_append, unescapeByte, hhigh, hlow, Option.bind_some,
      Option.map_some, hback, UInt8.ofNat_toNat]
  case neg =>
    simp [unescapeByte, hquote, hslash, hcontrol]

/-- No escape starts with the quotation mark that ends a text. -/
theorem escapeByte_eq_cons (b : UInt8) : ∃ c tail, escapeByte b = c :: tail ∧ c ≠ 34 := by
  unfold escapeByte
  split_ifs with hquote
  all_goals first
    | exact ⟨_, _, rfl, by decide⟩
    | exact ⟨_, _, rfl, hquote⟩

theorem escapeByte_printable (b : UInt8) : ∀ c ∈ escapeByte b, 32 ≤ c := by
  unfold escapeByte
  split_ifs with _ _ _ _ _ _ _ hcontrol
  -- the escapes of two bytes
  iterate 7 exact List.forall_mem_cons.mpr ⟨by decide, List.forall_mem_singleton.mpr (by decide)⟩
  · intro c hc
    have hhigh := hexDigit_printable (n := b.toNat / 16) (by have := b.toNat_lt; omega)
    have hlow := hexDigit_printable (n := b.toNat % 16) (by omega)
    simp only [List.mem_cons, List.not_mem_nil, or_false] at hc
    rcases hc with rfl | rfl | rfl | rfl | rfl | rfl
    any_goals decide
    · exact hhigh
    · exact hlow
  · intro c hc
    rw [List.mem_singleton.mp hc]
    exact UInt8.not_lt.mp hcontrol

/-- Read bytes of a text up to the quotation mark that ends it, at most a number of them. -/
def readEscaped : Nat → List UInt8 → Option (List UInt8 × List UInt8)
  | _, 34 :: rest => some ([], rest)
  | 0, _ => none
  | n + 1, bytes => (unescapeByte bytes).bind fun (b, rest) =>
      (readEscaped n rest).map fun (bs, rest) => (b :: bs, rest)

theorem readEscaped_flatMap (bs rest : List UInt8) (hn : bs.length ≤ n) :
    readEscaped n (bs.flatMap escapeByte ++ 34 :: rest) = some (bs, rest) := by
  induction bs generalizing n with
  | nil => simp [readEscaped]
  | cons b bs ih =>
    cases n with
    | zero => simp at hn
    | succ n =>
      have hfirst := unescapeByte_escapeByte b (bs.flatMap escapeByte ++ 34 :: rest)
      obtain ⟨c, tail, hescape, hc⟩ := escapeByte_eq_cons b
      rw [List.flatMap_cons, List.append_assoc, hescape, List.cons_append]
      rw [hescape, List.cons_append] at hfirst
      -- the first byte does not end the text, so it is read as an escape
      rw [readEscaped, hfirst]
      · simp [ih (Nat.le_of_succ_le_succ hn)]
      · intro rest' h
        exact hc (List.cons.inj h).1

/-- Escapes make a text no shorter. -/
theorem length_le_length_flatMap_escapeByte (bs : List UInt8) :
    bs.length ≤ (bs.flatMap escapeByte).length := by
  induction bs with
  | nil => simp
  | cons b bs ih =>
    obtain ⟨c, tail, hescape, -⟩ := escapeByte_eq_cons b
    simp only [List.flatMap_cons, List.length_append, List.length_cons, hescape]
    omega

/-- Any text, between quotation marks. -/
def text : Codec String :=
  after "\"" (convert
    { encode := fun bs => bs.flatMap escapeByte ++ [34]
      decode := fun bytes => readEscaped bytes.length bytes
      Fits := fun _ => True
      roundtrip := by
        intro bs _ rest
        rw [List.append_assoc]
        apply readEscaped_flatMap
        have := length_le_length_flatMap_escapeByte bs
        simp only [List.length_append]
        omega
      printable := by
        intro bs _ c hc
        rcases List.mem_append.mp hc with hc | hc
        · obtain ⟨b, _, hb⟩ := List.mem_flatMap.mp hc
          exact escapeByte_printable b c hb
        · rw [List.mem_singleton.mp hc]
          decide }
    utf8Bytes ofUtf8 (fun _ => True)
    (fun _ _ => ⟨trivial, ofUtf8_eq_some.mpr rfl⟩)) isPrintable_quote

/-- Escapes never make a text shorter. -/
theorem lt_length_text (s : String) : byteLen s < (text.encode s).length := by
  have hbytes := length_le_length_flatMap_escapeByte (utf8Bytes s)
  rw [length_utf8Bytes] at hbytes
  simp only [text, after, convert, List.length_append, List.length_cons, List.length_nil]
  omega

theorem length_escapeByte_le (b : UInt8) : (escapeByte b).length ≤ 6 := by
  unfold escapeByte
  split_ifs <;> simp

/-- Escapes make a text at most six times as long. -/
theorem length_text_le (s : String) : (text.encode s).length ≤ 6 * byteLen s + 2 := by
  have hescaped : ∀ bs : List UInt8, (bs.flatMap escapeByte).length ≤ 6 * bs.length := by
    intro bs
    induction bs with
    | nil => simp
    | cons b bs ih =>
      have hb := length_escapeByte_le b
      simp only [List.flatMap_cons, List.length_append, List.length_cons]
      omega
  have hbytes := hescaped (utf8Bytes s)
  have hquote : (utf8Bytes "\"").length = 1 := by decide
  rw [length_utf8Bytes] at hbytes
  simp only [text, after, convert, List.length_append, List.length_cons, List.length_nil, hquote]
  omega

/-! ## Truth values -/

/-- Truth values. -/
def boolean : Codec Bool where
  encode b := utf8Bytes (if b then "true" else "false")
  decode bytes := match strip (utf8Bytes "true") bytes with
    | some rest => some (true, rest)
    | none => (strip (utf8Bytes "false") bytes).map fun rest => (false, rest)
  Fits _ := True
  roundtrip := by
    intro b _ rest
    cases b with
    | true => simp [strip_append]
    | false =>
      have hother : strip (utf8Bytes "true") (utf8Bytes "false" ++ rest) = none := rfl
      simp [hother, strip_append]
  printable := by
    intro b _
    cases b with
    | true => exact (by decide : IsPrintable "true")
    | false => exact (by decide : IsPrintable "false")

/-! ## Arrays -/

variable {α β : Type}

/-- The elements with commas between them and the closing bracket behind. -/
def items (c : Codec α) : List α → List UInt8
  | [] => [93]
  | [a] => c.encode a ++ [93]
  | a :: as => c.encode a ++ 44 :: items c as

/-- Read at least one element, at most a number of them. -/
def readItems (c : Codec α) : Nat → List UInt8 → Option (List α × List UInt8)
  | 0, _ => none
  | n + 1, bytes => match c.decode bytes with
    | some (a, 93 :: rest) => some ([a], rest)
    | some (a, 44 :: rest) => (readItems c n rest).map fun (as, rest) => (a :: as, rest)
    | _ => none

theorem readItems_items (c : Codec α) (a : α) (as : List α) (rest : List UInt8)
    (hfits : ∀ b ∈ a :: as, c.Fits b) (hn : as.length < n) :
    readItems c n (items c (a :: as) ++ rest) = some (a :: as, rest) := by
  induction as generalizing a n with
  | nil =>
    obtain ⟨n, rfl⟩ := Nat.exists_eq_succ_of_ne_zero (by omega : n ≠ 0)
    have hfirst := c.roundtrip a (hfits a (by simp)) (93 :: rest)
    simp [readItems, items, hfirst]
  | cons b as ih =>
    obtain ⟨n, rfl⟩ := Nat.exists_eq_succ_of_ne_zero (by omega : n ≠ 0)
    have hfirst := c.roundtrip a (hfits a (by simp)) (44 :: (items c (b :: as) ++ rest))
    have hlater := ih b (fun x hx => hfits x (List.mem_cons_of_mem a hx))
      (by simpa using hn : as.length < n)
    simp [readItems, items, hfirst, hlater]

theorem length_le_length_items (c : Codec α) (as : List α) : as.length ≤ (items c as).length := by
  induction as with
  | nil => simp [items]
  | cons a as ih =>
    cases as with
    | nil => simp [items]
    | cons b as =>
      simp only [items, List.length_append, List.length_cons] at ih ⊢
      omega

theorem items_printable (c : Codec α) {as : List α} (has : ∀ a ∈ as, c.Fits a) :
    ∀ x ∈ items c as, 32 ≤ x := by
  induction as with
  | nil => simp [items]
  | cons a as ih =>
    have hfirst := c.printable a (has a (by simp))
    have hlater := ih fun b hb => has b (List.mem_cons_of_mem a hb)
    cases as with
    | nil =>
      simp only [items, List.mem_append, List.mem_singleton]
      rintro x (hx | rfl)
      · exact hfirst x hx
      · decide
    | cons b as =>
      simp only [items, List.mem_append, List.mem_cons]
      rintro x (hx | rfl | hx)
      · exact hfirst x hx
      · decide
      · exact hlater x hx

/-- A list between brackets.  No element starts with the closing one. -/
def array (c : Codec α)
    (hopen : ∀ a, c.Fits a → ∃ b tail, c.encode a = b :: tail ∧ b ≠ 93) : Codec (List α) where
  encode as := 91 :: items c as
  decode
    | 91 :: 93 :: rest => some ([], rest)
    | 91 :: bytes => readItems c bytes.length bytes
    | _ => none
  Fits as := ∀ a ∈ as, c.Fits a
  roundtrip := by
    intro as has rest
    cases as with
    | nil => rfl
    | cons a as =>
      have hread := readItems_items c (n := (items c (a :: as) ++ rest).length) a as rest has (by
        have := length_le_length_items c (a :: as)
        simp only [List.length_append, List.length_cons] at this ⊢
        omega)
      obtain ⟨b, tail, hencode, hb⟩ := hopen a (has a (by simp))
      have hitems : ∃ tail', items c (a :: as) ++ rest = b :: tail' := by
        cases as <;> simp [items, hencode]
      obtain ⟨tail', hitems⟩ := hitems
      rw [hitems] at hread
      rw [List.cons_append, hitems]
      -- the first byte opens an element, so the list is not read as the empty one
      split
      · rename_i h
        exact absurd (List.cons.inj (List.cons.inj h).2).1 hb
      · rename_i h
        rw [← (List.cons.inj h).2]
        exact hread
      · rename_i h
        exact absurd rfl (h _)
  printable := by
    intro as has x hx
    rcases List.mem_cons.mp hx with rfl | hx
    · decide
    · exact items_printable c has x hx

/-- A finite set, as the array of its elements in order. -/
def orderedSet [LinearOrder α] (c : Codec α)
    (hopen : ∀ a, c.Fits a → ∃ b tail, c.encode a = b :: tail ∧ b ≠ 93) : Codec (Finset α) :=
  convert (array c hopen) (fun s => s.sort (· ≤ ·)) (fun as => some as.toFinset)
    (fun s => ∀ a ∈ s, c.Fits a) (by
      intro s hs
      refine ⟨fun a ha => hs a ((Finset.mem_sort _).mp ha), ?_⟩
      rw [Finset.sort_toFinset])

/-! ## One of two -/

/-- A value of one of two types, where what is written for the second is never read as one of the
    first. -/
def either (c : Codec α) (d : Codec β)
    (happart : ∀ y, d.Fits y → ∀ rest, c.decode (d.encode y ++ rest) = none) :
    Codec (α ⊕ β) where
  encode := Sum.elim c.encode d.encode
  decode bytes := match c.decode bytes with
    | some (a, rest) => some (.inl a, rest)
    | none => (d.decode bytes).map fun (b, rest) => (.inr b, rest)
  Fits := Sum.elim c.Fits d.Fits
  roundtrip := by
    intro x hx rest
    cases x with
    | inl a => simp [c.roundtrip a hx]
    | inr b => simp [happart b hx, d.roundtrip b hx]
  printable := by
    intro x hx
    cases x with
    | inl a => exact c.printable a hx
    | inr b => exact d.printable b hx

end Serctl.Lib.Json
