import Serctl.Lib.Bytes
import Serctl.Lib.Guard

/-!
# Binary readers

A reader takes a value off the front of a byte string and leaves the rest, or refuses.  A reader
is exact for a writer when it accepts just the texts that the writer produces: then each value has
one text, and nothing else is read as it.
-/

namespace Serctl.Lib

open List

/-! ## Numbers -/

namespace Bytes

/-- The number that the bytes spell, most significant first. -/
def ofBytes (bytes : List UInt8) : Nat := bytes.foldl (fun n b => 256 * n + b.toNat) 0

theorem ofBytes_concat (bytes : List UInt8) (b : UInt8) :
    ofBytes (bytes ++ [b]) = 256 * ofBytes bytes + b.toNat := by
  simp [ofBytes]

theorem ofBytes_lt (bytes : List UInt8) : ofBytes bytes < 256 ^ bytes.length := by
  induction bytes using reverseRecOn with
  | nil => simp [ofBytes]
  | append_singleton bytes b ih =>
    have hb : b.toNat < 256 := b.toNat_lt
    rw [ofBytes_concat, length_append, length_singleton, Nat.pow_succ]
    omega

theorem ofBytes_beBytes : ∀ {n v : Nat}, v < 256 ^ n → ofBytes (beBytes n v).val = v := by
  intro n
  induction n with
  | zero =>
    intro v hv
    simp only [Nat.pow_zero, Nat.lt_one_iff] at hv
    simp [beBytes, ofBytes, hv]
  | succ n ih =>
    intro v hv
    rw [Nat.pow_succ] at hv
    simp only [beBytes, ofBytes_concat, ih (show v / 256 < 256 ^ n by omega)]
    simp only [UInt8.toNat_ofNat', Nat.reducePow]
    omega

theorem beBytes_ofBytes : ∀ {n : Nat} (b : Bytes n), beBytes n (ofBytes b.val) = b := by
  intro n b
  apply Subtype.ext
  obtain ⟨bytes, rfl⟩ := b
  induction bytes using reverseRecOn with
  | nil => rfl
  | append_singleton bytes b ih =>
    have hb : b.toNat < 256 := b.toNat_lt
    -- the last byte is the remainder, the others are the quotient
    have hquot : (256 * ofBytes bytes + b.toNat) / 256 = ofBytes bytes := by omega
    have hbyte : UInt8.ofNat (256 * ofBytes bytes + b.toNat) = b := by
      apply UInt8.toNat_inj.mp
      simp only [UInt8.toNat_ofNat', Nat.reducePow]
      omega
    have hstep : ∀ m, m = bytes.length + 1 →
        (beBytes m (256 * ofBytes bytes + b.toNat)).val = bytes ++ [b] := by
      rintro m rfl
      simp only [beBytes, hquot, hbyte, ih]
    rw [ofBytes_concat]
    exact hstep _ (by simp)

end Bytes

/-! ## Readers -/

/-- Take a value off the front of a byte string. -/
def Reader (ε α : Type) := List UInt8 → Except ε (α × List UInt8)

variable {bytes : List UInt8}

namespace Reader

variable {ε α β : Type}

instance : Monad (Reader ε) where
  pure a := fun bytes => .ok (a, bytes)
  bind r next := fun bytes => r bytes >>= fun read => next read.1 read.2

/-- Let the rest run only if a check passes. -/
def check (r : Except ε α) : Reader ε α := fun bytes => r.map fun a => (a, bytes)

/-- The next `n` bytes. -/
def take (n : Nat) (e : ε) : Reader ε (Bytes n) := fun bytes =>
  if h : n ≤ bytes.length then .ok (⟨bytes.take n, List.length_take_of_le h⟩, bytes.drop n)
  else .error e

/-- The number of bytes that are left. -/
def left : Reader ε Nat := fun bytes => .ok (bytes.length, bytes)

/-- The same reader `n` times. -/
def times (r : Reader ε α) : Nat → Reader ε (List α)
  | 0 => pure []
  | n + 1 => do
    let a ← r
    let as ← times r n
    return a :: as

variable {rest : List UInt8} {a : α}

@[simp] theorem pure_eq_ok {b : α} :
    (pure a : Reader ε α) bytes = .ok (b, rest) ↔ a = b ∧ bytes = rest := by
  show (Except.ok (a, bytes) : Except ε (α × List UInt8)) = .ok (b, rest) ↔ _
  simp

@[simp] theorem bind_eq_ok {r : Reader ε α} {next : α → Reader ε β} {b : β} :
    (r >>= next) bytes = .ok (b, rest) ↔
      ∃ a mid, r bytes = .ok (a, mid) ∧ next a mid = .ok (b, rest) := by
  show (r bytes >>= fun read => next read.1 read.2) = .ok (b, rest) ↔ _
  simp only [Guard.bind_eq_ok, Prod.exists]

@[simp] theorem check_eq_ok {r : Except ε α} :
    check r bytes = .ok (a, rest) ↔ r = .ok a ∧ bytes = rest := by
  cases r <;> simp [check, Except.map]

variable {n : Nat}

@[simp] theorem take_eq_ok {e : ε} {b : Bytes n} :
    take n e bytes = .ok (b, rest) ↔ bytes = b.val ++ rest := by
  constructor
  · intro h
    simp only [take] at h
    split at h
    · cases h
      exact (take_append_drop n bytes).symm
    · cases h
  · intro h
    have hlen : n ≤ bytes.length := by
      rw [h, length_append, b.property]
      exact Nat.le_add_right _ _
    have htake : bytes.take n = b.val := by rw [h, take_left' b.property]
    have hdrop : bytes.drop n = rest := by rw [h, drop_left' b.property]
    simp only [take, hlen, dite_true, hdrop, Except.ok.injEq, Prod.mk.injEq, and_true]
    exact Subtype.ext htake

@[simp] theorem left_eq_ok :
    (left : Reader ε Nat) bytes = .ok (n, rest) ↔ bytes.length = n ∧ bytes = rest := by
  simp [left]

/-! ## Exact readers -/

/-- The reader accepts exactly the texts that the writer produces for the values with `P`. -/
def Exact (P : α → Prop) (write : α → Except ε (List UInt8)) (r : Reader ε α) : Prop :=
  ∀ a bytes rest, r bytes = .ok (a, rest) ↔
    P a ∧ ∃ text, write a = .ok text ∧ bytes = text ++ rest

/-- A list is read exactly if its elements are. -/
theorem times_exact {P : α → Prop} {write : α → Except ε (List UInt8)} {r : Reader ε α}
    (h : Exact P write r) :
    ∀ {n : Nat} {as : List α} {bytes rest : List UInt8}, r.times n bytes = .ok (as, rest) ↔
      as.length = n ∧ (∀ a ∈ as, P a) ∧ ∃ texts, Guard.collect write as = .ok texts ∧
        bytes = texts.flatten ++ rest := by
  intro n
  induction n with
  | zero =>
    intro as bytes rest
    rw [show r.times 0 = pure [] from rfl, pure_eq_ok]
    constructor
    · rintro ⟨rfl, rfl⟩
      exact ⟨rfl, by simp, [], rfl, rfl⟩
    · rintro ⟨hlen, -, texts, hwrite, rfl⟩
      cases length_eq_zero_iff.mp hlen
      cases hwrite
      exact ⟨rfl, rfl⟩
  | succ n ih =>
    intro as bytes rest
    simp only [times, bind_eq_ok, pure_eq_ok, h _, ih]
    constructor
    · rintro ⟨a, _, ⟨ha, text, hwrite, rfl⟩, as', _, ⟨hlen, has, texts, hcollect, rfl⟩, rfl, rfl⟩
      refine ⟨by rw [length_cons, hlen], ?_, text :: texts, ?_, ?_⟩
      · simpa using ⟨ha, has⟩
      · simp [Guard.collect, hwrite, hcollect]
      · simp
    · rintro ⟨hlen, has, texts, hcollect, rfl⟩
      cases as with
      | nil => cases hlen
      | cons a as =>
        simp only [Guard.collect, Guard.bind_eq_ok, Guard.pure_eq_ok] at hcollect
        obtain ⟨text, hwrite, texts', htexts, rfl⟩ := hcollect
        have hall : P a ∧ ∀ a' ∈ as, P a' := by simpa using has
        refine ⟨a, texts'.flatten ++ rest, ⟨hall.1, text, hwrite, ?_⟩, as, rest,
          ⟨?_, hall.2, texts', htexts, rfl⟩, rfl, rfl⟩
        · simp
        · simpa using hlen

/-- A number of `n` bytes, in a type of that width. -/
theorem word_eq_ok {e : ε} {f : Nat → α} {g : α → Nat} (hf : ∀ a, f (g a) = a)
    (hg : ∀ m, m < 256 ^ n → g (f m) = m) (hlt : ∀ a, g a < 256 ^ n) :
    (do let b ← take n e; return f (Bytes.ofBytes b.val) : Reader ε α) bytes = .ok (a, rest) ↔
      bytes = (Bytes.beBytes n (g a)).val ++ rest := by
  simp only [bind_eq_ok, take_eq_ok, pure_eq_ok]
  constructor
  · rintro ⟨b, _, rfl, rfl, rfl⟩
    have hb : Bytes.ofBytes b.val < 256 ^ n := by
      have hlen := Bytes.ofBytes_lt b.val
      rwa [b.property] at hlen
    rw [hg _ hb, Bytes.beBytes_ofBytes]
  · rintro rfl
    refine ⟨Bytes.beBytes n (g a), rest, rfl, ?_, rfl⟩
    rw [Bytes.ofBytes_beBytes (hlt a), hf]

theorem byte_eq_ok {e : ε} {v : UInt8} :
    (do let b ← take 1 e; return UInt8.ofNat (Bytes.ofBytes b.val) : Reader ε UInt8) bytes =
      .ok (v, rest) ↔ bytes = v :: rest := by
  rw [word_eq_ok (g := UInt8.toNat) (by simp) (by intro m hm; simp; omega) fun v => v.toNat_lt]
  simp [Bytes.beBytes]

end Reader

/-! ## Texts -/

namespace Text

/-- The text that the bytes encode, if they are UTF-8. -/
def ofUtf8 (bytes : List UInt8) : Option String := String.fromUTF8? bytes.toByteArray

theorem toByteArray_injective {a b : List UInt8} (h : a.toByteArray = b.toByteArray) : a = b := by
  have hdata := congrArg (fun x => x.data.toList) h
  simpa using hdata

theorem ofUtf8_eq_some {s : String} :
    ofUtf8 bytes = some s ↔ bytes = utf8Bytes s := by
  have hbytes : s.toByteArray = (utf8Bytes s).toByteArray := String.utf8Encode_toList.symm
  constructor
  · intro h
    unfold ofUtf8 String.fromUTF8? at h
    split at h
    · cases h
      exact toByteArray_injective hbytes
    · cases h
  · rintro rfl
    unfold ofUtf8 String.fromUTF8?
    rw [← hbytes]
    simp [s.isValidUTF8, String.fromUTF8]

theorem utf8Bytes_injective {s t : String} (h : utf8Bytes s = utf8Bytes t) : s = t :=
  Option.some.inj ((ofUtf8_eq_some.mpr rfl).symm.trans (ofUtf8_eq_some.mpr h))

end Text

/-! ## Texts that begin alike -/

/-- Where two texts begin with values of the property, equal texts begin with the same value and
    go on alike. -/
def PrefixFree {α : Type} (P : α → Prop) (write : α → List UInt8) : Prop :=
  ∀ a b r s, P a → P b → write a ++ r = write b ++ s → a = b ∧ r = s

/-- A number of values one after the other. -/
theorem PrefixFree.flatMap {α : Type} {P : α → Prop} {write : α → List UInt8}
    (hw : PrefixFree P write) {as bs : List α} {r s : List UInt8} (has : ∀ a ∈ as, P a)
    (hbs : ∀ b ∈ bs, P b) (hlen : as.length = bs.length)
    (h : as.flatMap write ++ r = bs.flatMap write ++ s) : as = bs ∧ r = s := by
  induction as generalizing bs with
  | nil =>
    cases bs with
    | nil => exact ⟨rfl, h⟩
    | cons b bs => cases hlen
  | cons a as ih =>
    cases bs with
    | nil => cases hlen
    | cons b bs =>
      simp only [flatMap_cons, append_assoc] at h
      obtain ⟨rfl, hrest⟩ := hw a b _ _ (has a (by simp)) (hbs b (by simp)) h
      obtain ⟨rfl, rfl⟩ := ih (fun x hx => has x (mem_cons_of_mem a hx))
        (fun x hx => hbs x (mem_cons_of_mem a hx)) (Nat.succ.inj hlen) hrest
      exact ⟨rfl, rfl⟩

end Serctl.Lib
