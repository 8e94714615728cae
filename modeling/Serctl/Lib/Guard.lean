import Mathlib.Data.List.Basic

/-!
# Guard sequences in `Except`

Validators are written as sequences of guards: each one either refuses with its error or
lets the rest run.  The lemmas here say what a successful sequence has established, so that
a proof about a validator peels its guards off in order and never unfolds the monad.
-/

namespace Serctl.Lib.Guard

open List

variable {ε ε' α β σ : Type}

/-- Refuse with `e` when `c` holds. -/
def rejectIf (c : Prop) [Decidable c] (e : ε) : Except ε Unit :=
  if c then .error e else .ok ()

/-- Run `f` over the list, left to right, stopping at the first error. -/
def collect (f : α → Except ε β) : List α → Except ε (List β)
  | [] => .ok []
  | a :: as => do
    let b ← f a
    let bs ← collect f as
    return b :: bs

@[simp] theorem bind_eq_ok (r : Except ε α) (next : α → Except ε β) (v : β) :
    (r >>= next) = .ok v ↔ ∃ a, r = .ok a ∧ next a = .ok v := by
  rcases r with e | a <;> simp [bind, Except.bind]

/-- A check followed by the rest. -/
theorem check_eq_ok (r : Except ε Unit) (next : Unit → Except ε β) (v : β) :
    (r >>= next) = .ok v ↔ r = .ok () ∧ next () = .ok v := by
  rcases r with e | a <;> simp [bind, Except.bind]

@[simp] theorem pure_eq_ok (a v : α) : (pure a : Except ε α) = .ok v ↔ a = v := by
  rw [show (pure a : Except ε α) = .ok a from rfl, Except.ok.injEq]

@[simp] theorem rejectIf_eq_ok {c : Prop} [Decidable c] {e : ε} {u : Unit} :
    rejectIf c e = .ok u ↔ ¬c := by
  by_cases hc : c <;> simp [rejectIf, hc]

@[simp] theorem map_eq_ok (g : α → β) (r : Except ε α) (v : β) :
    r.map g = .ok v ↔ ∃ a, r = .ok a ∧ g a = v := by
  rcases r with e | a <;> simp [Except.map]

@[simp] theorem mapError_eq_ok (g : ε → ε') (r : Except ε α) (v : α) :
    r.mapError g = .ok v ↔ r = .ok v := by
  rcases r with e | a <;> simp only [Except.mapError, Except.ok.injEq, reduceCtorEq]

variable {f : α → Except ε β} {as : List α} {bs : List β}

theorem collect_eq_ok
    (h : collect f as = .ok bs) : Forall₂ (fun a b => f a = .ok b) as bs := by
  induction as generalizing bs with
  | nil =>
    simp only [collect, Except.ok.injEq] at h
    exact h ▸ .nil
  | cons a as ih =>
    simp only [collect, bind_eq_ok, pure_eq_ok] at h
    obtain ⟨b, hb, bs', hbs', rfl⟩ := h
    exact .cons hb (ih hbs')

/-- A successful traversal succeeded at every element. -/
theorem collect_ok_of_mem (h : collect f as = .ok bs) {a : α} (ha : a ∈ as) : ∃ b, f a = .ok b := by
  induction as generalizing bs with
  | nil => cases ha
  | cons a' as ih =>
    simp only [collect, bind_eq_ok, pure_eq_ok] at h
    obtain ⟨b, hb, bs', hbs', rfl⟩ := h
    rcases mem_cons.mp ha with rfl | hmem
    · exact ⟨b, hb⟩
    · exact ih hbs' hmem

/-- A successful traversal returns just what it succeeded with. -/
theorem mem_collect (h : collect f as = .ok bs) {b : β} : b ∈ bs ↔ ∃ a ∈ as, f a = .ok b := by
  induction as generalizing bs with
  | nil =>
    cases h
    simp
  | cons a as ih =>
    simp only [collect, bind_eq_ok, pure_eq_ok] at h
    obtain ⟨b', hb', bs', hbs', rfl⟩ := h
    simp only [mem_cons, ih hbs', or_and_right, exists_or, exists_eq_left, hb',
      Except.ok.injEq, @eq_comm _ b b']

/-- A fallible loop preserves what each of its steps preserves. -/
theorem foldlM_invariant {f : σ → α → Except ε σ} (P : σ → Prop)
    (hstep : ∀ s a s', P s → f s a = .ok s' → P s') :
    ∀ (as : List α) (s s' : σ), P s → as.foldlM f s = .ok s' → P s' := by
  intro as
  induction as with
  | nil =>
    intro s s' hs h
    simp only [foldlM_nil, pure_eq_ok] at h
    exact h ▸ hs
  | cons a as ih =>
    intro s s' hs h
    simp only [foldlM_cons, bind_eq_ok] at h
    obtain ⟨t, ht, hrest⟩ := h
    exact ih t s' (hstep s a t hs ht) hrest

/-- A fallible loop that ends has accepted every element it went over. -/
theorem foldlM_forall {f : σ → α → Except ε σ} (P : α → Prop)
    (hstep : ∀ s a s', f s a = .ok s' → P a) :
    ∀ (as : List α) (s s' : σ), as.foldlM f s = .ok s' → ∀ a ∈ as, P a := by
  intro as
  induction as with
  | nil => intro _ _ _ a ha; cases ha
  | cons b as ih =>
    intro s s' h a ha
    simp only [foldlM_cons, bind_eq_ok] at h
    obtain ⟨t, ht, hrest⟩ := h
    rcases mem_cons.mp ha with rfl | hmem
    · exact hstep s a t ht
    · exact ih t s' hrest a hmem

end Serctl.Lib.Guard
