import Serctl.Lib.Text

/-!
# Base64

The standard alphabet with padding: three bytes become four digits, and what is left over at the
end is filled up.  Decoding is strict.  It accepts a text only as it is written by the encoder.
-/

namespace Serctl.Lib.Base64

/-! ## The alphabet -/

/-- The digit of a number below 64. -/
def digit (n : Nat) : Char :=
  if n < 26 then Char.ofNat (65 + n)
  else if n < 52 then Char.ofNat (71 + n)
  else if n < 62 then Char.ofNat (n - 4)
  else if n = 62 then '+' else '/'

/-- The number of a digit. -/
def value (c : Char) : Option Nat :=
  if 'A' ≤ c ∧ c ≤ 'Z' then some (c.toNat - 65)
  else if 'a' ≤ c ∧ c ≤ 'z' then some (c.toNat - 71)
  else if '0' ≤ c ∧ c ≤ '9' then some (c.toNat + 4)
  else if c = '+' then some 62
  else if c = '/' then some 63
  else none

theorem value_digit {n : Nat} (h : n < 64) : value (digit n) = some n := by
  have hall : ∀ m : Fin 64, value (digit m.val) = some m.val := by decide
  exact hall ⟨n, h⟩

theorem digit_ne_pad {n : Nat} (h : n < 64) : digit n ≠ '=' := by
  have hall : ∀ m : Fin 64, digit m.val ≠ '=' := by decide
  exact hall ⟨n, h⟩

theorem isPrintable_digit {n : Nat} (h : n < 64) : Text.isPrintable (digit n) = true := by
  have hall : ∀ m : Fin 64, Text.isPrintable (digit m.val) = true := by decide
  exact hall ⟨n, h⟩

/-! ## Encoding -/

/-- The digits of some bytes, in groups of four. -/
def digits : List UInt8 → List Char
  | a :: b :: c :: rest =>
    digit (a.toNat / 4) :: digit (a.toNat % 4 * 16 + b.toNat / 16) ::
      digit (b.toNat % 16 * 4 + c.toNat / 64) :: digit (c.toNat % 64) :: digits rest
  | [a, b] =>
    [digit (a.toNat / 4), digit (a.toNat % 4 * 16 + b.toNat / 16), digit (b.toNat % 16 * 4), '=']
  | [a] => [digit (a.toNat / 4), digit (a.toNat % 4 * 16), '=', '=']
  | [] => []

/-- Bytes as text. -/
def encode (bytes : List UInt8) : String := String.ofList (digits bytes)

/-- The bytes of some digits.  The bits that the padding stands for have to be zero. -/
def bytes : List Char → Option (List UInt8)
  | [] => some []
  | a :: b :: c :: d :: rest => do
    let p ← value a
    let q ← value b
    let first := UInt8.ofNat (p * 4 + q / 16)
    if c = '=' then
      if d = '=' ∧ rest = [] ∧ q % 16 = 0 then some [first] else none
    else do
      let r ← value c
      let second := UInt8.ofNat (q % 16 * 16 + r / 4)
      if d = '=' then
        if rest = [] ∧ r % 4 = 0 then some [first, second] else none
      else do
        let s ← value d
        let others ← bytes rest
        return first :: second :: UInt8.ofNat (r % 4 * 64 + s) :: others
  | _ => none

/-- The bytes that a text stands for. -/
def decode (text : String) : Option (List UInt8) := bytes text.toList

/-! ## Round trips -/

/-- A byte in two parts. -/
theorem ofNat_parts {a : UInt8} {n : Nat} (h : n = a.toNat) : UInt8.ofNat n = a := by
  rw [h, UInt8.ofNat_toNat]

theorem bytes_digits (data : List UInt8) : bytes (digits data) = some data := by
  induction data using digits.induct with
  | case1 a b c rest ih =>
    have ha := a.toNat_lt
    have hb := b.toNat_lt
    have hc := c.toNat_lt
    have h1 : value (digit (a.toNat / 4)) = some (a.toNat / 4) := value_digit (by omega)
    have h2 : value (digit (a.toNat % 4 * 16 + b.toNat / 16)) =
        some (a.toNat % 4 * 16 + b.toNat / 16) := value_digit (by omega)
    have h3 : value (digit (b.toNat % 16 * 4 + c.toNat / 64)) =
        some (b.toNat % 16 * 4 + c.toNat / 64) := value_digit (by omega)
    have h4 : value (digit (c.toNat % 64)) = some (c.toNat % 64) := value_digit (by omega)
    have hthird : digit (b.toNat % 16 * 4 + c.toNat / 64) ≠ '=' := digit_ne_pad (by omega)
    have hfourth : digit (c.toNat % 64) ≠ '=' := digit_ne_pad (by omega)
    simp only [digits, bytes, h1, h2, h3, h4, ih, hthird, hfourth, if_false,
      Option.bind_eq_bind, Option.bind_some, Option.pure_def]
    rw [ofNat_parts (a := a) (by omega), ofNat_parts (a := b) (by omega),
      ofNat_parts (a := c) (by omega)]
  | case2 a b =>
    have ha := a.toNat_lt
    have hb := b.toNat_lt
    have h1 : value (digit (a.toNat / 4)) = some (a.toNat / 4) := value_digit (by omega)
    have h2 : value (digit (a.toNat % 4 * 16 + b.toNat / 16)) =
        some (a.toNat % 4 * 16 + b.toNat / 16) := value_digit (by omega)
    have h3 : value (digit (b.toNat % 16 * 4)) = some (b.toNat % 16 * 4) := value_digit (by omega)
    have hthird : digit (b.toNat % 16 * 4) ≠ '=' := digit_ne_pad (by omega)
    have hzero : b.toNat % 16 * 4 % 4 = 0 := by omega
    simp only [digits, bytes, h1, h2, h3, hthird, hzero, if_false, if_true, and_self,
      Option.bind_eq_bind, Option.bind_some]
    rw [ofNat_parts (a := a) (by omega), ofNat_parts (a := b) (by omega)]
  | case3 a =>
    have ha := a.toNat_lt
    have h1 : value (digit (a.toNat / 4)) = some (a.toNat / 4) := value_digit (by omega)
    have h2 : value (digit (a.toNat % 4 * 16)) = some (a.toNat % 4 * 16) := value_digit (by omega)
    have hzero : a.toNat % 4 * 16 % 16 = 0 := by omega
    simp only [digits, bytes, h1, h2, hzero, if_true, and_self, Option.bind_eq_bind,
      Option.bind_some]
    rw [ofNat_parts (a := a) (by omega)]
  | case4 => rfl

/-- **What was encoded is decoded.** -/
theorem decode_encode (data : List UInt8) : decode (encode data) = some data := by
  rw [decode, encode, String.toList_ofList, bytes_digits]

/-! ## Lengths -/

theorem length_digits (data : List UInt8) : (digits data).length = 4 * ((data.length + 2) / 3) := by
  induction data using digits.induct with
  | case1 a b c rest ih =>
    simp only [digits, List.length_cons, ih]
    omega
  | case2 a b => simp [digits]
  | case3 a => simp [digits]
  | case4 => rfl

theorem isPrintable_digits (data : List UInt8) :
    (digits data).all Text.isPrintable = true := by
  have hpad : Text.isPrintable '=' = true := by decide
  induction data using digits.induct with
  | case1 a b c rest ih =>
    have ha := a.toNat_lt
    have hb := b.toNat_lt
    have hc := c.toNat_lt
    simp (disch := omega) only [digits, List.all_cons, isPrintable_digit, ih, Bool.and_self]
  | case2 a b =>
    have ha := a.toNat_lt
    have hb := b.toNat_lt
    simp (disch := omega) only [digits, List.all_cons, isPrintable_digit, hpad, List.all_nil,
      Bool.and_self]
  | case3 a =>
    have ha := a.toNat_lt
    simp (disch := omega) only [digits, List.all_cons, isPrintable_digit, hpad, List.all_nil,
      Bool.and_self]
  | case4 => rfl

/-- **How long an encoded text is**, in bytes. -/
theorem byteLen_encode (data : List UInt8) :
    Text.byteLen (encode data) = 4 * ((data.length + 2) / 3) := by
  rw [Text.byteLen_of_isPrintable]
  · rw [encode, String.toList_ofList, length_digits]
  · rw [encode, String.toList_ofList]
    exact isPrintable_digits data

example : encode [77, 97] = "TWE=" ∧ decode "TWE=" = some [77, 97] ∧ decode "TWF=" = none := by
  decide

end Serctl.Lib.Base64
