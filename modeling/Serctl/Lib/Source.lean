import Serctl.Lib.Input

/-!
# Reading from a source that may fail

A source is met one read at a time: a read brings some bytes, or it fails, and behind the last
read is the end of the input.  A failure that is only an interruption is retried by a program that
wants a number of bytes, but not by one that reads once.

A program consumes a part of the bytes of its source, whether it succeeds or not.
-/

namespace Serctl.Lib

open List

/-- Why a read failed. -/
structure ReadFailure where
  message : String
  /-- Only a signal came in between. -/
  interrupted : Bool := false
  deriving DecidableEq, Repr

/-- What one read comes to. -/
inductive Delivery where
  | data (first : UInt8) (more : List UInt8)
  | failed (e : ReadFailure)
  deriving DecidableEq, Repr

/-- What the reads come to, one after the other. -/
abbrev Source := List Delivery

namespace Source

/-- All bytes that the source has. -/
def bytes : Source → List UInt8
  | [] => []
  | .data first more :: s => first :: more ++ bytes s
  | .failed _ :: s => bytes s

/-- Bytes for which there was no room are left for the next read. -/
def putBack : List UInt8 → Source → Source
  | [], s => s
  | first :: more, s => .data first more :: s

/-- One read of at most `n` bytes. -/
def read (n : Nat) : Input ReadFailure Source (List UInt8)
  | [] => (.ok [], [])
  | .data first more :: s =>
    (.ok ((first :: more).take n), putBack ((first :: more).drop n) s)
  | .failed e :: s => (.error e, s)

/-- The input has ended before the buffer was full. -/
def unexpectedEof : ReadFailure := ⟨"failed to fill whole buffer", false⟩

/-- Reads until `n` bytes are there. -/
def readExact (n : Nat) : Input ReadFailure Source (List UInt8)
  | [] => if n = 0 then (.ok [], []) else (.error unexpectedEof, [])
  | .data first more :: s =>
    -- a read for which there is enough is the last one, and for no bytes there is none
    if n ≤ more.length + 1 then
      (.ok ((first :: more).take n), putBack ((first :: more).drop n) s)
    else match readExact (n - (more.length + 1)) s with
      | (.ok rest, s') => (.ok (first :: more ++ rest), s')
      | (.error e, s') => (.error e, s')
  | .failed e :: s =>
    if n = 0 then (.ok [], .failed e :: s)
    else if e.interrupted then readExact n s
    else (.error e, s)

/-- No read fails. -/
def Calm (s : Source) : Prop := ∀ e, Delivery.failed e ∉ s

variable {n : Nat} {s s' : Source} {got : List UInt8} {e : ReadFailure}

@[simp] theorem bytes_putBack (left : List UInt8) (s : Source) :
    bytes (putBack left s) = left ++ bytes s := by
  cases left <;> rfl

theorem calm_putBack {left : List UInt8} (h : Calm s) : Calm (putBack left s) := by
  cases left with
  | nil => exact h
  | cons first more =>
    intro e he
    rcases mem_cons.mp he with heq | hmem
    · cases heq
    · exact h e hmem

theorem Calm.tail {d : Delivery} (h : Calm (d :: s)) : Calm s :=
  fun e he => h e (mem_cons_of_mem d he)

/-! ## What is consumed -/

theorem read_ok (h : read n s = (.ok got, s')) : got ++ bytes s' = bytes s := by
  cases s with
  | nil => cases h; rfl
  | cons d s =>
    cases d with
    | data first more =>
      cases h
      rw [bytes_putBack, ← append_assoc, take_append_drop]
      rfl
    | failed e => cases h

theorem read_error (h : read n s = (.error e, s')) : bytes s' = bytes s := by
  cases s with
  | nil => cases h
  | cons d s =>
    cases d with
    | data first more => cases h
    | failed e' => cases h; rfl

/-- Nothing is read only at the end. -/
theorem read_one_ok (h : read 1 s = (.ok got, s')) :
    (got = [] ∧ bytes s = []) ∨ ∃ first, got = [first] := by
  cases s with
  | nil => cases h; exact .inl ⟨rfl, rfl⟩
  | cons d s =>
    cases d with
    | data first more => cases h; exact .inr ⟨first, rfl⟩
    | failed e => cases h

/-- The reads take as many bytes as were wanted, or fail and take fewer. -/
theorem readExact_cases {r : Except ReadFailure (List UInt8)} (h : readExact n s = (r, s')) :
    ∃ taken, taken ++ bytes s' = bytes s ∧
      (r = .ok taken ∧ taken.length = n ∨ (∃ e, r = .error e) ∧ taken.length < n) := by
  induction s generalizing n r s' with
  | nil =>
    by_cases hn : n = 0
    · simp only [readExact, hn, if_true] at h
      cases h
      exact ⟨[], rfl, .inl ⟨rfl, hn.symm⟩⟩
    · simp only [readExact, hn, if_false] at h
      cases h
      exact ⟨[], rfl, .inr ⟨⟨_, rfl⟩, Nat.pos_of_ne_zero hn⟩⟩
  | cons d s ih =>
    cases d with
    | data first more =>
      by_cases henough : n ≤ more.length + 1
      · simp only [readExact, henough, if_true] at h
        cases h
        refine ⟨_, ?_, .inl ⟨rfl, length_take_of_le henough⟩⟩
        rw [bytes_putBack, ← append_assoc, take_append_drop]
        rfl
      · simp only [readExact, henough, if_false] at h
        cases hrest : readExact (n - (more.length + 1)) s with
        | mk r t =>
          rw [hrest] at h
          obtain ⟨taken, hbytes, htaken⟩ := ih hrest
          refine ⟨first :: more ++ taken, ?_, ?_⟩
          · cases r <;> cases h <;> rw [append_assoc, hbytes] <;> rfl
          · rw [length_append, length_cons]
            rcases htaken with ⟨rfl, hlength⟩ | ⟨⟨e, rfl⟩, hlength⟩
            · cases h
              exact .inl ⟨rfl, by omega⟩
            · cases h
              exact .inr ⟨⟨e, rfl⟩, by omega⟩
    | failed e' =>
      by_cases hn : n = 0
      · simp only [readExact, hn, if_true] at h
        cases h
        exact ⟨[], rfl, .inl ⟨rfl, hn.symm⟩⟩
      · simp only [readExact, hn, if_false] at h
        split at h
        · exact ih h
        · cases h
          exact ⟨[], rfl, .inr ⟨⟨_, rfl⟩, Nat.pos_of_ne_zero hn⟩⟩

theorem readExact_ok (h : readExact n s = (.ok got, s')) :
    got.length = n ∧ got ++ bytes s' = bytes s := by
  obtain ⟨taken, hbytes, ⟨htaken, hlength⟩ | ⟨⟨e, he⟩, -⟩⟩ := readExact_cases h
  · cases htaken
    exact ⟨hlength, hbytes⟩
  · cases he

/-- Where the reads fail, fewer bytes are gone than were wanted. -/
theorem readExact_error (h : readExact n s = (.error e, s')) :
    ∃ lost, lost.length < n ∧ lost ++ bytes s' = bytes s := by
  obtain ⟨taken, hbytes, ⟨htaken, -⟩ | ⟨-, hlength⟩⟩ := readExact_cases h
  · cases htaken
  · exact ⟨taken, hlength, hbytes⟩

/-! ## Sources that do not fail -/

theorem read_one_of_calm (h : Calm s) :
    ∃ s', read 1 s = (.ok ((bytes s).take 1), s') ∧ Calm s' := by
  cases s with
  | nil => exact ⟨[], rfl, h⟩
  | cons d s =>
    cases d with
    | data first more => exact ⟨_, rfl, calm_putBack h.tail⟩
    | failed e => exact absurd mem_cons_self (h e)

/-- **A source that does not fail** delivers the bytes it has, however they are cut. -/
theorem readExact_of_calm (h : Calm s) (hn : n ≤ (bytes s).length) :
    ∃ s', readExact n s = (.ok ((bytes s).take n), s') ∧ Calm s' := by
  induction s generalizing n with
  | nil =>
    obtain rfl : n = 0 := Nat.le_zero.mp hn
    exact ⟨[], rfl, h⟩
  | cons d s ih =>
    cases d with
    | data first more =>
      by_cases henough : n ≤ more.length + 1
      · refine ⟨putBack ((first :: more).drop n) s, ?_, calm_putBack h.tail⟩
        simp only [readExact, henough, if_true]
        rw [show bytes (.data first more :: s) = (first :: more) ++ bytes s from rfl,
          take_append_of_le_length henough]
      · have hbytes : bytes (.data first more :: s) = (first :: more) ++ bytes s := rfl
        rw [hbytes, length_append, length_cons] at hn
        obtain ⟨s', hrest, hcalm⟩ := ih h.tail (n := n - (more.length + 1)) (by omega)
        refine ⟨s', ?_, hcalm⟩
        simp only [readExact, henough, if_false, hrest]
        rw [hbytes, take_append, length_cons,
          take_of_length_le (l := first :: more) (by rw [length_cons]; omega)]
    | failed e => exact absurd mem_cons_self (h e)

end Source

end Serctl.Lib
