import Mathlib.Algebra.GroupWithZero.Nat
import Mathlib.Data.List.Infix
import Mathlib.Data.String.Basic

/-!
# Text operations

The string operations that byte-oriented code uses, given on the characters of a `String`
so that they compute in the kernel.  A text's length is the length of its UTF-8 encoding;
case folding is ASCII only.
-/

namespace Serctl.Lib.Text

/-- Length of the UTF-8 encoding. -/
def byteLen (s : String) : Nat := s.utf8ByteSize

/-- Unicode category `Cc`: the two control blocks. -/
def isControl (c : Char) : Bool :=
  c.toNat < 0x20 || (0x7f ≤ c.toNat && c.toNat < 0xa0)

/-- Some character is a control character. -/
def hasControl (s : String) : Bool := s.toList.any isControl

/-- All letters are small. -/
def asciiLower (s : String) : String := String.ofList (s.toList.map Char.toLower)

/-- All letters are capitals. -/
def asciiUpper (s : String) : String := String.ofList (s.toList.map Char.toUpper)

def startsWith (s pre : String) : Bool := decide (pre.toList <+: s.toList)

def endsWith (s suf : String) : Bool := decide (suf.toList <:+ s.toList)

def contains (s sub : String) : Bool := decide (sub.toList <:+: s.toList)

def containsChar (s : String) (c : Char) : Bool := s.toList.contains c

/-- The text after a leading `pre`, if the text starts with it. -/
def stripPrefix (s pre : String) : Option String :=
  if startsWith s pre then some (String.ofList (s.toList.drop pre.toList.length)) else none

/-- The text before a trailing `suf`, if the text ends with it. -/
def stripSuffix (s suf : String) : Option String :=
  if endsWith s suf then
    some (String.ofList (s.toList.take (s.toList.length - suf.toList.length)))
  else none

/-- The pieces between the occurrences of a separator; the empty text has one empty piece. -/
def split (s : String) (sep : Char) : List String :=
  (s.toList.splitOn sep).map String.ofList

/-- The lines of a text, without their ends; nothing behind the last end is not a line. -/
def lines (s : String) : List String :=
  let pieces := split s '\n'
  let pieces := if pieces.getLast? = some "" then pieces.dropLast else pieces
  pieces.map fun line => (stripSuffix line "\x0d").getD line

/-- The pieces between ASCII whitespace. -/
def words (s : String) : List String :=
  ((s.toList.splitOnP fun c => c == ' ' || c == '\t' || c == '\n' || c == '\x0c' || c == '\x0d').map
    String.ofList).filter (· ≠ "")

/-- The first bytes of a text, if they end between two characters. -/
def truncateChars : Nat → List Char → Option (List Char)
  | 0, _ => some []
  | _ + 1, [] => some []
  | n + 1, c :: cs =>
    if c.utf8Size ≤ n + 1 then (truncateChars (n + 1 - c.utf8Size) cs).map (c :: ·) else none

/-- The text cut to so many bytes, if that is between characters. -/
def truncate (s : String) (bytes : Nat) : Option String :=
  (truncateChars bytes s.toList).map String.ofList

/-- Pieces joined by a separator. -/
def join (sep : String) : List String → String
  | [] => ""
  | [s] => s
  | s :: ss => s ++ sep ++ join sep ss

/-- The value of a decimal text as an unsigned 32-bit number: one optional plus sign, then
    at least one ASCII digit and nothing else, with no overflow. -/
def parseNat32 (s : String) : Option Nat :=
  let digits := match s.toList with
    | '+' :: rest => rest
    | cs => cs
  if digits.isEmpty || !digits.all Char.isDigit then none
  else
    let value := digits.foldl (fun n c => 10 * n + (c.toNat - '0'.toNat)) 0
    if value < 2 ^ 32 then some value else none

/-- Lower-case hexadecimal digits of a byte string. -/
def hexEncode (bytes : List UInt8) : String :=
  String.ofList (bytes.flatMap fun b =>
    [Nat.digitChar (b.toNat / 16), Nat.digitChar (b.toNat % 16)])

/-- The value of a hexadecimal digit of either case. -/
def hexValue (c : Char) : Option Nat :=
  if '0' ≤ c && c ≤ '9' then some (c.toNat - '0'.toNat)
  else if 'a' ≤ c && c ≤ 'f' then some (c.toNat - 'a'.toNat + 10)
  else if 'A' ≤ c && c ≤ 'F' then some (c.toNat - 'A'.toNat + 10)
  else none

/-- The bytes that pairs of hexadecimal digits spell. -/
def hexDecodeChars : List Char → Option (List UInt8)
  | [] => some []
  | [_] => none
  | hi :: lo :: rest => do
    let h ← hexValue hi
    let l ← hexValue lo
    let bytes ← hexDecodeChars rest
    return UInt8.ofNat (16 * h + l) :: bytes

/-- The bytes that a text spells. -/
def hexDecode (s : String) : Option (List UInt8) := hexDecodeChars s.toList

/-- Exactly `2 * bytes` lower-case hexadecimal digits. -/
def isLowerHex (s : String) (bytes : Nat) : Bool :=
  s.toList.length == 2 * bytes &&
    s.toList.all fun c => ('0' ≤ c && c ≤ '9') || ('a' ≤ c && c ≤ 'f')

/-! ## Printable ASCII -/

/-- The printable characters of one byte. -/
def isPrintable (c : Char) : Bool := 32 ≤ c.toNat && c.toNat < 127

theorem isPrintable_of_isAlphanum {c : Char} (h : c.isAlphanum = true) : isPrintable c = true := by
  delta Char.isAlphanum Char.isAlpha Char.isUpper Char.isLower Char.isDigit at h
  simp only [Bool.or_eq_true, Bool.and_eq_true, decide_eq_true_eq, ge_iff_le,
    UInt32.le_iff_toNat_le] at h
  simp only [isPrintable, Bool.and_eq_true, decide_eq_true_eq]
  rcases h with (h | h) | h <;> simp at h <;> omega

theorem hasControl_of_isPrintable {s : String} (h : s.toList.all isPrintable = true) :
    hasControl s = false := by
  refine List.any_eq_false.mpr fun c hc => ?_
  have hc := List.all_eq_true.mp h c hc
  simp only [isPrintable, isControl, Bool.and_eq_true, Bool.or_eq_true, decide_eq_true_eq] at hc ⊢
  omega

/-- Printable characters take one byte each. -/
theorem byteLen_of_isPrintable {s : String} (h : s.toList.all isPrintable = true) :
    byteLen s = s.toList.length := by
  rw [byteLen, ← String.ofList_toList (s := s), String.utf8ByteSize_ofList, String.toList_ofList]
  generalize s.toList = cs at h
  induction cs with
  | nil => rfl
  | cons c cs ih =>
    simp only [List.all_cons, isPrintable, Bool.and_eq_true, decide_eq_true_eq] at h
    have hsize : c.utf8Size = 1 :=
      Char.utf8Size_eq_one_iff.mpr (UInt32.le_iff_toNat_le.mpr (Nat.le_of_lt h.1.2))
    rw [String.utf8Len_cons, ih h.2, hsize, List.length_cons]

theorem toLower_of_isLower {c : Char} (h : c.isLower = true) : c.toLower = c := by
  refine dif_neg fun hupper => ?_
  delta Char.isLower at h
  simp [UInt32.le_iff_toNat_le] at h hupper
  omega

theorem toLower_cases (c : Char) : c.toLower = c ∨ c.toLower.isLower = true := by
  unfold Char.toLower
  split
  case isFalse => exact .inl rfl
  case isTrue h =>
    delta Char.isLower
    simp [UInt32.le_iff_toNat_le] at h ⊢
    omega

end Serctl.Lib.Text
