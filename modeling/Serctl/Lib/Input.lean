import Serctl.Lib.Guard
import Serctl.Lib.Wire

/-!
# Reading from a stream

A reader hands out bytes in pieces of its own choice: one read returns some bytes of what is left,
at least one, and nothing only at the end.  A program that reads keeps what it has read where it
fails.  What a program makes of its input is said once for the whole input and for every cut of it.
-/

namespace Serctl.Lib

open List Lib.Guard

/-- A reader: a read of at most `n` bytes returns none only where none are left. -/
class AsyncRead (σ : Type) where
  read : Nat → σ → List UInt8 × σ
  /-- What the reader still delivers. -/
  bytes : σ → List UInt8
  read_append : ∀ n s, (read n s).1 ++ bytes (read n s).2 = bytes s
  length_read_le : ∀ n s, (read n s).1.length ≤ n
  read_ne_nil : ∀ {n s}, 0 < n → bytes s ≠ [] → (read n s).1 ≠ []

/-- A program that reads. -/
def Input (ε σ α : Type) := σ → Except ε α × σ

namespace Input

open AsyncRead (bytes)

variable {ε σ α β : Type}

instance : Monad (Input ε σ) where
  pure a := fun s => (.ok a, s)
  bind x f := fun s => match x s with
    | (.ok a, s') => f a s'
    | (.error e, s') => (.error e, s')

variable {x : Input ε σ α} {f : α → Input ε σ β} {s : σ} {a : α} {e : ε}

theorem bind_of_ok (h : (x s).1 = .ok a) : (x >>= f) s = f a (x s).2 := by
  show (match x s with | (.ok a, s') => f a s' | (.error e, s') => (.error e, s')) = _
  rw [show x s = (.ok a, (x s).2) from Prod.ext h rfl]

theorem bind_of_error (h : (x s).1 = .error e) : (x >>= f) s = (.error e, (x s).2) := by
  show (match x s with | (.ok a, s') => f a s' | (.error e, s') => (.error e, s')) = _
  rw [show x s = (.error e, (x s).2) from Prod.ext h rfl]

/-- Fail where a check fails. -/
def check (r : Except ε α) : Input ε σ α := fun s => (r, s)

variable [AsyncRead σ]

/-- At most `n` bytes. -/
def read (n : Nat) : Input ε σ (List UInt8) := fun s =>
  (.ok (AsyncRead.read n s).1, (AsyncRead.read n s).2)

/-- Read until `n` bytes are there; every read is one round. -/
def fill (e : ε) : Nat → Nat → Input ε σ (List UInt8)
  | 0, _ => pure []
  | rounds + 1, n =>
    if n = 0 then pure []
    else do
      let got ← read n
      if got = [] then check (.error e)
      else do
        let more ← fill e rounds (n - got.length)
        return got ++ more

/-- Exactly `n` bytes, or an error at the end of the input. -/
def readExact (e : ε) (n : Nat) : Input ε σ (List UInt8) := fill e n n

/-- As many bytes as the array has. -/
def readArray (e : ε) (n : Nat) : Input ε σ (Bytes n) := do
  let got ← readExact e n
  if h : got.length = n then return ⟨got, h⟩ else check (.error e)

/-- A number, most significant byte first. -/
def readWord (e : ε) (n : Nat) : Input ε σ Nat := do
  let got ← readExact e n
  return Bytes.ofBytes got

/-! ## What programs do with their input -/

/-- The result and what is left. -/
def Yields (x : Input ε σ α) (s : σ) (r : Except ε α) (left : List UInt8) : Prop :=
  (x s).1 = r ∧ bytes (x s).2 = left

/-- The program takes the bytes for a value, and where only some of them are there it fails. -/
structure Reads (x : Input ε σ α) (b : List UInt8) (a : α) : Prop where
  whole : ∀ s left, bytes s = b ++ left → Yields x s (.ok a) left
  cut : ∀ s d, d ≠ [] → bytes s ++ d = b → ∃ e, (x s).1 = .error e

variable {left mid : List UInt8} {r : Except ε β}

theorem Yields.bind (hx : Yields x s (.ok a) mid)
    (hf : ∀ s', bytes s' = mid → Yields (f a) s' r left) : Yields (x >>= f) s r left := by
  unfold Yields
  rw [bind_of_ok hx.1]
  exact hf (x s).2 hx.2

theorem Yields.bind_error (hx : Yields x s (.error e) left) :
    Yields (x >>= f) s (.error e) left := by
  unfold Yields
  rw [bind_of_error hx.1]
  exact ⟨rfl, hx.2⟩

section RejectIf

variable {q : Prop} [Decidable q] {g : Unit → Input ε σ β}

/-- A check that refuses reads nothing. -/
theorem yields_rejected (h : q) (hs : bytes s = left) :
    Yields (check (rejectIf q e) >>= g) s (.error e) left :=
  Yields.bind_error ⟨if_pos h, hs⟩

theorem yields_accepted (h : ¬q) (hg : Yields (g ()) s r left) :
    Yields (check (rejectIf q e) >>= g) s r left := by
  unfold Yields
  rw [bind_of_ok (a := ()) (if_neg h)]
  exact hg

end RejectIf

theorem reads_pure (a : α) : Reads (pure a : Input ε σ α) [] a where
  whole _ _ h := ⟨rfl, h⟩
  cut _ _ hd h := absurd (append_eq_nil_iff.mp h).2 hd

theorem reads_check {r : Except ε α} (h : r = .ok a) : Reads (check r : Input ε σ α) [] a where
  whole _ _ hs := ⟨h, hs⟩
  cut _ _ hd hs := absurd (append_eq_nil_iff.mp hs).2 hd

variable {b c : List UInt8} {v : β}

/-- **Programs one after the other** read what they read one after the other. -/
theorem Reads.bind (hx : Reads x b a) (hf : Reads (f a) c v) :
    Reads (x >>= f) (b ++ c) v where
  whole s left h := by
    rw [append_assoc] at h
    exact (hx.whole s _ h).bind fun s' hs' => hf.whole s' left hs'
  cut s d hd h := by
    by_cases hshort : (bytes s).length < b.length
    · -- the input ends before the first program is done
      obtain ⟨rest, hb⟩ : bytes s <+: b := prefix_of_prefix_length_le ⟨d, h⟩ ⟨c, rfl⟩ (by omega)
      have hrest : rest ≠ [] := by
        rintro rfl
        rw [← hb, append_nil] at hshort
        exact Nat.lt_irrefl _ hshort
      obtain ⟨e, he⟩ := hx.cut s rest hrest hb
      exact ⟨e, by rw [bind_of_error he]⟩
    · -- the first program is done, and the second one meets the end
      obtain ⟨rest, hb⟩ : b <+: bytes s := prefix_of_prefix_length_le ⟨c, rfl⟩ ⟨d, h⟩ (by omega)
      have hfirst := hx.whole s rest hb.symm
      rw [← hb, append_assoc, append_cancel_left_eq] at h
      obtain ⟨e, he⟩ := hf.cut (x s).2 d hd (by rw [hfirst.2, h])
      exact ⟨e, by rw [bind_of_ok hfirst.1]; exact he⟩

theorem Reads.bind_check {r : Except ε α} (h : r = .ok a)
    (hf : Reads (f a) c v) : Reads (check r >>= f) c v :=
  (reads_check h).bind hf

theorem Reads.bind_rejectIf {q : Prop} [Decidable q] {f : Unit → Input ε σ β}
    (h : ¬q) (hf : Reads (f ()) c v) : Reads (check (rejectIf q e) >>= f) c v :=
  .bind_check (rejectIf_eq_ok.mpr h) hf

/-- The last program reads what is left to read. -/
theorem Reads.bind_last (hx : Reads x b a) (hf : Reads (f a) [] v) :
    Reads (x >>= f) b v := by
  have h := hx.bind hf
  rwa [append_nil] at h

/-! ## Reading a number of bytes -/

/-- Every round gets at least one byte, so as many rounds as bytes are enough. -/
theorem yields_fill (e : ε) {rounds n : Nat} (hn : n ≤ rounds) (s : σ) :
    (n ≤ (bytes s).length → Yields (fill e rounds n) s (.ok ((bytes s).take n))
      ((bytes s).drop n)) ∧
    ((bytes s).length < n → Yields (fill e rounds n) s (.error e) []) := by
  induction rounds generalizing n s with
  | zero =>
    obtain rfl : n = 0 := by omega
    exact ⟨fun _ => ⟨rfl, rfl⟩, fun h => absurd h (by omega)⟩
  | succ rounds ih =>
    unfold fill
    by_cases hzero : n = 0
    · subst hzero
      exact ⟨fun _ => ⟨rfl, rfl⟩, fun h => absurd h (by omega)⟩
    rw [if_neg hzero]
    have happend := AsyncRead.read_append n s
    have hle := AsyncRead.length_read_le n s
    by_cases hempty : bytes s = []
    · -- nothing is left
      have hgot : (AsyncRead.read n s).1 = [] ∧ bytes (AsyncRead.read n s).2 = [] := by
        rw [hempty] at happend
        exact append_eq_nil_iff.mp happend
      refine ⟨fun h => absurd h (by simp [hempty, hzero]), fun _ => ?_⟩
      have hnothing : Yields (ε := ε) (read n) s (.ok []) [] := ⟨congrArg _ hgot.1, hgot.2⟩
      apply hnothing.bind
      intro s' hs'
      exact ⟨rfl, hs'⟩
    · have hgot := AsyncRead.read_ne_nil (Nat.pos_of_ne_zero hzero) hempty
      have hpos := length_pos_of_ne_nil hgot
      obtain ⟨got, hread⟩ : ∃ got, (AsyncRead.read n s).1 = got := ⟨_, rfl⟩
      rw [hread] at happend hle hgot hpos
      have hlength : (bytes s).length = got.length + (bytes (AsyncRead.read n s).2).length := by
        rw [← happend, length_append]
      have hfirst : Yields (ε := ε) (read n) s (.ok got) (bytes (AsyncRead.read n s).2) :=
        ⟨congrArg _ hread, rfl⟩
      constructor
      · intro henough
        apply hfirst.bind
        intro s' hs'
        rw [if_neg hgot]
        have hmore := (ih (n := n - got.length) (by omega) s').1 (by rw [hs']; omega)
        apply hmore.bind
        intro s'' hs''
        refine ⟨congrArg Except.ok ?_, ?_⟩
        · rw [hs', ← happend, take_append, take_of_length_le hle]
        · rw [← happend, drop_append, drop_eq_nil_of_le hle, nil_append, ← hs']
          exact hs''
      · intro hshort
        apply hfirst.bind
        intro s' hs'
        rw [if_neg hgot]
        exact ((ih (n := n - got.length) (by omega) s').2 (by rw [hs']; omega)).bind_error

theorem reads_readExact (e : ε) {n : Nat} (hb : b.length = n) :
    Reads (readExact e n : Input ε σ (List UInt8)) b b where
  whole s left h := by
    have hyields := (yields_fill e (Nat.le_refl n) s).1 (by
      rw [h, length_append]
      omega)
    rw [h, take_append_of_le_length (by omega), take_of_length_le (by omega),
      drop_append_of_le_length (by omega), drop_eq_nil_of_le (by omega),
      nil_append] at hyields
    exact hyields
  cut s d hd h := by
    have hpos := length_pos_of_ne_nil hd
    have hlength := congrArg length h
    rw [length_append] at hlength
    exact ⟨e, ((yields_fill e (Nat.le_refl n) s).2 (by omega)).1⟩

theorem reads_readArray (e : ε) {n : Nat} (b : Bytes n) :
    Reads (readArray e n : Input ε σ (Bytes n)) b.val b := by
  apply (reads_readExact e b.property).bind_last
  rw [dif_pos b.property]
  exact reads_pure b

theorem reads_readWord (e : ε) {n v : Nat} (hv : v < 256 ^ n) :
    Reads (readWord e n : Input ε σ Nat) (Bytes.beBytes n v).val v := by
  apply (reads_readExact e (Bytes.beBytes n v).property).bind_last
  rw [Bytes.ofBytes_beBytes hv]
  exact reads_pure v

/-- The first byte tells whether anything is left. -/
theorem yields_read_one (s : σ) : Yields (read 1 : Input ε σ (List UInt8)) s
    (.ok ((bytes s).take 1)) ((bytes s).drop 1) := by
  have happend := AsyncRead.read_append 1 s
  have hle := AsyncRead.length_read_le 1 s
  show Except.ok (AsyncRead.read 1 s).1 = _ ∧ bytes (AsyncRead.read 1 s).2 = _
  cases hbytes : bytes s with
  | nil =>
    rw [hbytes] at happend
    obtain ⟨hgot, hleft⟩ := append_eq_nil_iff.mp happend
    rw [hgot, hleft]
    exact ⟨rfl, rfl⟩
  | cons b rest =>
    have hne := AsyncRead.read_ne_nil (n := 1) (s := s) (by decide) (by simp [hbytes])
    obtain ⟨c, hgot⟩ : ∃ c, (AsyncRead.read 1 s).1 = [c] := by
      apply length_eq_one_iff.mp
      have hpos := length_pos_of_ne_nil hne
      omega
    rw [hgot, hbytes, singleton_append, cons.injEq] at happend
    rw [hgot, happend.1, happend.2]
    exact ⟨rfl, rfl⟩

end Input

/-! ## Given pieces -/

/-- A reader that delivers given pieces, each as far as the caller has room for it. -/
structure Pieces where
  pieces : List (List UInt8)
  nonempty : ∀ p ∈ pieces, p ≠ []

namespace Pieces

/-- All that is left. -/
def bytes (s : Pieces) : List UInt8 := s.pieces.flatten

def read (n : Nat) : Pieces → List UInt8 × Pieces
  | ⟨[], h⟩ => ([], ⟨[], h⟩)
  | ⟨p :: ps, h⟩ =>
    if hlong : n < p.length then
      (p.take n, ⟨p.drop n :: ps, by
        intro q hq
        rcases mem_cons.mp hq with rfl | hq
        · exact ne_nil_of_length_pos (by rw [length_drop]; omega)
        · exact h q (mem_cons_of_mem p hq)⟩)
    else (p, ⟨ps, fun q hq => h q (mem_cons_of_mem p hq)⟩)

variable {n : Nat} {p : List UInt8} {ps : List (List UInt8)} {h : ∀ q ∈ p :: ps, q ≠ []}

theorem read_long (hlong : n < p.length) :
    (read n ⟨p :: ps, h⟩).1 = p.take n ∧ (read n ⟨p :: ps, h⟩).2.pieces = p.drop n :: ps := by
  simp only [read, dif_pos hlong, and_self]

theorem read_short (hlong : ¬n < p.length) :
    (read n ⟨p :: ps, h⟩).1 = p ∧ (read n ⟨p :: ps, h⟩).2.pieces = ps := by
  simp only [read, dif_neg hlong, and_self]

instance : AsyncRead Pieces where
  read := read
  bytes := bytes
  read_append n s := by
    obtain ⟨pieces, h⟩ := s
    cases pieces with
    | nil => rfl
    | cons p ps =>
      by_cases hlong : n < p.length
      · simp only [bytes, read_long hlong, flatten_cons]
        rw [← append_assoc, take_append_drop]
      · simp [bytes, read_short hlong]
  length_read_le n s := by
    obtain ⟨pieces, h⟩ := s
    cases pieces with
    | nil => exact Nat.zero_le n
    | cons p ps =>
      by_cases hlong : n < p.length
      · rw [(read_long hlong).1, length_take]
        omega
      · rw [(read_short hlong).1]
        omega
  read_ne_nil := by
    intro n s hn hbytes
    obtain ⟨pieces, h⟩ := s
    cases pieces with
    | nil => exact absurd rfl hbytes
    | cons p ps =>
      have hp := h p mem_cons_self
      by_cases hlong : n < p.length
      · rw [(read_long hlong).1]
        intro htake
        rcases take_eq_nil_iff.mp htake with hzero | hnil
        · omega
        · exact hp hnil
      · rw [(read_short hlong).1]
        exact hp

end Pieces

end Serctl.Lib
