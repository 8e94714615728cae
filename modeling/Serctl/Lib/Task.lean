import Serctl.Lib.Prog

/-!
# Tasks with timers

Asynchronous code runs inside timers.  When a timer fires, the code that it surrounds is dropped
at the operation it is waiting for, whatever is left of that operation, and the code around the
timer goes on.

A `Task` is a program that knows how many timers surround it.  Each of its operations is answered,
or one of these timers fires first.  `Task.timed` surrounds a task with one more timer.
-/

namespace Serctl.Lib

open Option Lib.Prog

/-- How a task ended: with a value, with an error, or because a timer around it fired.  Timers
    are numbered from the outside. -/
inductive Ended (ε α : Type) where
  | done (a : α)
  | failed (e : ε)
  | cut (timer : Nat)
  deriving DecidableEq, Repr

/-- The answer of an operation inside a number of timers, or the timer that fired first. -/
abbrev Timed {Op : Type} (Ans : Op → Type) (call : Op × Nat) : Type := Except Nat (Ans call.1)

/-- A program with errors `ε` inside a number of timers. -/
def Task (ε Op : Type) (Ans : Op → Type) (α : Type) : Type :=
  Nat → Prog (Op × Nat) (Timed Ans) (Ended ε α)

/-- A system in which operations can be dropped.  An operation that is done at once cannot. -/
structure AsyncSystem (W Op : Type) (Ans : Op → Type) (Choice : Type) extends
    System W Op Ans Choice where
  /-- What a dropped operation leaves behind. -/
  drop : W → Op → Choice → Option W

/-- An operation gets its answer, or a timer fires. -/
inductive Firing (Choice : Type) where
  | go (c : Choice)
  | fire (timer : Nat) (c : Choice)
  deriving DecidableEq, Repr

variable {W Op : Type} {Ans : Op → Type} {Choice ε ε' α β : Type}

/-- The operations inside their timers. -/
def AsyncSystem.inTimers (S : AsyncSystem W Op Ans Choice) :
    System W (Op × Nat) (Timed Ans) (Firing Choice) where
  exec w call
    | .go c => (S.exec w call.1 c).map fun (a, w') => (.ok a, w')
    | .fire timer c =>
      if timer < call.2 then (S.drop w call.1 c).map fun w' => (.error timer, w') else none
  env w
    | .go c => S.env w c
    | .fire _ _ => none
  crash w
    | .go c => S.crash w c
    | .fire _ _ => none

/-- The system in which an operation is answered only as permitted; it can be dropped as before. -/
def AsyncSystem.restrict (S : AsyncSystem W Op Ans Choice) (permitted : W → Op → Choice → Bool) :
    AsyncSystem W Op Ans Choice :=
  { S with toSystem := S.toSystem.restrict permitted }

variable {permitted : W → Op → Choice → Bool} {op : Op}

theorem AsyncSystem.restrict_exec {S : AsyncSystem W Op Ans Choice}
    {w : W} {c : Choice} {r : Ans op × W} :
    (S.restrict permitted).exec w op c = some r ↔
      permitted w op c = true ∧ S.exec w op c = some r :=
  System.restrict_exec

/-- The system in which an operation is answered only as permitted, and only some operations can be
    dropped. -/
def AsyncSystem.limit (S : AsyncSystem W Op Ans Choice) (permitted : W → Op → Choice → Bool)
    (droppable : Op → Bool) : AsyncSystem W Op Ans Choice :=
  { S.restrict permitted with drop := fun w op c => if droppable op then S.drop w op c else none }

section

variable {S : AsyncSystem W Op Ans Choice} {droppable : Op → Bool} {c : Choice}

theorem AsyncSystem.limit_exec {w : W} {r : Ans op × W} :
    (S.limit permitted droppable).exec w op c = some r ↔
      permitted w op c = true ∧ S.exec w op c = some r :=
  System.restrict_exec

theorem AsyncSystem.limit_drop {w w' : W} :
    (S.limit permitted droppable).drop w op c = some w' ↔
      droppable op = true ∧ S.drop w op c = some w' := by
  by_cases h : droppable op = true <;> simp [AsyncSystem.limit, h]

end

/-- The same terms inside timers. -/
def Contract.inTimers (C : Contract W Op) : Contract W (Op × Nat) where
  inv := C.inv
  rely := C.rely
  guar := C.guar
  ok w call := C.ok w call.1
  rely_refl := C.rely_refl
  rely_trans := C.rely_trans

/-- The same program inside timers under other terms, in a system that can do less. -/
theorem Safe.strengthen_inTimers {S S' : AsyncSystem W Op Ans Choice} {C C' : Contract W Op}
    {Q : α → W → Prop} (hrely : ∀ w w', C'.rely w w' → C.rely w w')
    (hinv : ∀ w, C'.inv w → C.inv w)
    (hstep : ∀ w op, C'.inv w → C.ok w op → C'.ok w op ∧
      (∀ c a w', S'.exec w op c = some (a, w') → S.exec w op c = some (a, w') ∧
        (C.inv w' → C.guar w w' → C'.inv w' ∧ C'.guar w w')) ∧
      (∀ c w', S'.drop w op c = some w' → S.drop w op c = some w' ∧
        (C.inv w' → C.guar w w' → C'.inv w' ∧ C'.guar w w')))
    {p : Prog (Op × Nat) (Timed Ans) α} {w : W} (h : Safe S.inTimers C.inTimers Q p w) :
    Safe S'.inTimers C'.inTimers Q p w := by
  apply Safe.strengthen (C := C.inTimers) hrely hinv _ h
  intro w1 call hinv1 hok
  obtain ⟨hok', hexec, hdrop⟩ := hstep w1 call.1 hinv1 hok
  refine ⟨hok', fun choice a w2 hw2 => ?_⟩
  cases choice with
  | go c =>
    simp only [AsyncSystem.inTimers, map_eq_some_iff, Prod.mk.injEq] at hw2
    obtain ⟨⟨b, w'⟩, hb, rfl, rfl⟩ := hw2
    obtain ⟨hold, hkeeps⟩ := hexec c b w' hb
    exact ⟨by simp [AsyncSystem.inTimers, hold], hkeeps⟩
  | fire timer c =>
    simp only [AsyncSystem.inTimers] at hw2
    split at hw2
    · rename_i ht
      simp only [map_eq_some_iff, Prod.mk.injEq] at hw2
      obtain ⟨w', hw', rfl, rfl⟩ := hw2
      obtain ⟨hold, hkeeps⟩ := hdrop c w' hw'
      exact ⟨by simp [AsyncSystem.inTimers, hold, ht], hkeeps⟩
    · cases hw2

namespace Task

instance : Monad (Task ε Op Ans) where
  pure a := fun _ => .ret (.done a)
  bind x f := fun n => x n >>= fun
    | .done a => f a n
    | .failed e => .ret (.failed e)
    | .cut timer => .ret (.cut timer)

/-- Return early with an error. -/
def fail (e : ε) : Task ε Op Ans α := fun _ => .ret (.failed e)

/-- Go on only if the condition holds. -/
def require (c : Prop) [Decidable c] (e : ε) : Task ε Op Ans Unit :=
  if c then pure () else fail e

/-- Run only if the condition holds. -/
def onlyIf (c : Prop) [Decidable c] (x : Task ε Op Ans Unit) : Task ε Op Ans Unit :=
  if c then x else pure ()

/-- Issue an operation. -/
def call (op : Op) : Task ε Op Ans (Ans op) := fun n => .ask (op, n) fun
  | .ok a => .ret (.done a)
  | .error timer => .ret (.cut timer)

/-- The value of a result, or an early return with its error as `f` presents it. -/
def orElseFail (f : ε' → ε) : Except ε' α → Task ε Op Ans α
  | .ok a => pure a
  | .error e => fail (f e)

/-- Run to the end and hand over the result, be it a value or an error. -/
def attempt (x : Task ε Op Ans α) : Task ε' Op Ans (Except ε α) := fun n => x n >>= fun
  | .done a => .ret (.done (.ok a))
  | .failed e => .ret (.done (.error e))
  | .cut timer => .ret (.cut timer)

/-- Run inside one more timer; there is no result if it fires.  Any timer that is not further
    outside is this one. -/
def timed (x : Task ε Op Ans α) : Task ε' Op Ans (Option (Except ε α)) :=
  fun n => x (n + 1) >>= fun
    | .done a => .ret (.done (some (.ok a)))
    | .failed e => .ret (.done (some (.error e)))
    | .cut timer => if timer < n then .ret (.cut timer) else .ret (.done none)

/-- The task keeps its contract from `w` on; it returns only where `Q` holds, fails only where
    `E` holds, and is dropped by a timer only where `K` holds for it. -/
def wp (S : AsyncSystem W Op Ans Choice) (C : Contract W Op) (x : Task ε Op Ans α)
    (Q : α → W → Prop) (E : ε → W → Prop) (K : Nat → W → Prop) (n : Nat) (w : W) : Prop :=
  Safe S.inTimers C.inTimers (fun r w' => match r with
    | .done a => Q a w'
    | .failed e => E e w'
    | .cut timer => K timer w') (x n) w

/-- Whatever happens, the task issues only operations with the property. -/
def Only (P : Op → Prop) (x : Task ε Op Ans α) : Prop := ∀ n, (x n).Only fun c => P c.1

namespace Only

variable {P : Op → Prop}

theorem pure (a : α) : Only P (pure a : Task ε Op Ans α) := fun _ => trivial

theorem fail (e : ε) : Only P (fail e : Task ε Op Ans α) := fun _ => trivial

theorem require {c : Prop} [Decidable c] {e : ε} :
    Only P (require c e : Task ε Op Ans Unit) := by
  by_cases hc : c
  · simp only [Task.require, hc, if_true]
    exact pure ()
  · simp only [Task.require, hc, if_false]
    exact fail e

theorem orElseFail {f : ε' → ε} {r : Except ε' α} :
    Only P (orElseFail f r : Task ε Op Ans α) := by
  cases r with
  | ok a => exact pure a
  | error e => exact fail (f e)

theorem call {op : Op} (h : P op) : Only P (call op : Task ε Op Ans (Ans op)) := by
  intro n
  refine ⟨h, fun r => ?_⟩
  cases r <;> exact trivial

theorem bind {x : Task ε Op Ans α} {f : α → Task ε Op Ans β} (hx : Only P x)
    (hf : ∀ a, Only P (f a)) : Only P (x >>= f) := by
  intro n
  apply (hx n).bind
  intro r
  cases r with
  | done a => exact hf a n
  | failed e => exact trivial
  | cut timer => exact trivial

theorem onlyIf {c : Prop} [Decidable c] {x : Task ε Op Ans Unit} (hx : Only P x) :
    Only P (onlyIf c x) := by
  by_cases hc : c
  · simpa only [Task.onlyIf, hc, if_true] using hx
  · simp only [Task.onlyIf, hc, if_false]
    exact pure ()

theorem attempt {x : Task ε Op Ans α} (hx : Only P x) :
    Only P (attempt x : Task ε' Op Ans (Except ε α)) := by
  intro n
  apply (hx n).bind
  intro r
  cases r <;> exact trivial

theorem timed {x : Task ε Op Ans α} (hx : Only P x) :
    Only P (timed x : Task ε' Op Ans (Option (Except ε α))) := by
  intro n
  apply (hx (n + 1)).bind
  intro r
  cases r with
  | done a => exact trivial
  | failed e => exact trivial
  | cut timer =>
    by_cases houter : timer < n
    · simp only [houter, if_true]
      exact trivial
    · simp only [houter, if_false]
      exact trivial

end Only

section Rules

variable {S : AsyncSystem W Op Ans Choice} {C : Contract W Op} {Q : α → W → Prop}
  {E : ε → W → Prop} {K : Nat → W → Prop} {n : Nat} {w : W}

@[simp] theorem wp_pure (a : α) : wp S C (pure a) Q E K n w ↔ Q a w := Iff.rfl

@[simp] theorem wp_fail (e : ε) : wp S C (fail e) Q E K n w ↔ E e w := Iff.rfl

@[simp] theorem wp_require {Q : Unit → W → Prop} (c : Prop) [Decidable c] (e : ε) :
    wp S C (require c e) Q E K n w ↔ (c → Q () w) ∧ (¬c → E e w) := by
  by_cases hc : c <;> simp [require, hc]

@[simp] theorem wp_onlyIf {Q : Unit → W → Prop} (c : Prop) [Decidable c]
    (x : Task ε Op Ans Unit) :
    wp S C (onlyIf c x) Q E K n w ↔ (c → wp S C x Q E K n w) ∧ (¬c → Q () w) := by
  by_cases hc : c <;> simp [onlyIf, hc]

@[simp] theorem wp_orElseFail (f : ε' → ε) (r : Except ε' α) :
    wp S C (orElseFail f r) Q E K n w ↔
      (∀ a, r = .ok a → Q a w) ∧ (∀ e, r = .error e → E (f e) w) := by
  cases r <;> simp [orElseFail]

@[simp] theorem wp_bind {Q : β → W → Prop} (x : Task ε Op Ans α) (f : α → Task ε Op Ans β) :
    wp S C (x >>= f) Q E K n w ↔ wp S C x (fun a w' => wp S C (f a) Q E K n w') E K n w := by
  apply Safe.bind_iff.trans
  constructor <;>
  · apply Safe.mono
    intro r w' h
    cases r <;> exact h

@[simp] theorem wp_attempt {E' : ε' → W → Prop} {Q : Except ε α → W → Prop}
    (x : Task ε Op Ans α) :
    wp S C (attempt x) Q E' K n w ↔
      wp S C x (fun a w' => Q (.ok a) w') (fun e w' => Q (.error e) w') K n w := by
  apply Safe.bind_iff.trans
  constructor <;>
  · apply Safe.mono
    intro r w' h
    cases r <;> exact h

/-- The new timer is the innermost one: if it fires there is no result, and the others are left
    to the code around. -/
@[simp] theorem wp_timed {E' : ε' → W → Prop} {Q : Option (Except ε α) → W → Prop}
    (x : Task ε Op Ans α) :
    wp S C (timed x) Q E' K n w ↔
      wp S C x (fun a w' => Q (some (.ok a)) w') (fun e w' => Q (some (.error e)) w')
        (fun timer w' => if timer < n then K timer w' else Q none w') (n + 1) w := by
  apply Safe.bind_iff.trans
  constructor <;>
  · apply Safe.mono
    intro r w' h
    cases r with
    | done a => exact h
    | failed e => exact h
    | cut timer =>
      by_cases houter : timer < n
      · simpa [houter, Safe] using h
      · simpa [houter, Safe] using h

section Seq

variable {Q : β → W → Prop} {x : Task ε Op Ans α}

theorem wp_seq {f : α → Task ε Op Ans β}
    (h : wp S C x (fun a w' => wp S C (f a) Q E K n w') E K n w) : wp S C (x >>= f) Q E K n w :=
  (wp_bind x f).mpr h

theorem wp_requiring {c : Prop} [Decidable c] {e : ε} {f : Unit → Task ε Op Ans β}
    (hok : c → wp S C (f ()) Q E K n w) (herror : ¬c → E e w) :
    wp S C (require c e >>= f) Q E K n w :=
  wp_seq ((wp_require c e).mpr ⟨hok, herror⟩)

theorem wp_checking {r : Except ε α} {f : α → Task ε Op Ans β}
    (hok : ∀ a, r = .ok a → wp S C (f a) Q E K n w) (herror : ∀ e, r = .error e → E e w) :
    wp S C (orElseFail id r >>= f) Q E K n w :=
  wp_seq ((wp_orElseFail id r).mpr ⟨hok, herror⟩)

theorem wp_attempting {E : ε' → W → Prop} {f : Except ε α → Task ε' Op Ans β}
    (h : wp S C x (fun a w' => wp S C (f (.ok a)) Q E K n w')
      (fun e w' => wp S C (f (.error e)) Q E K n w') K n w) :
    wp S C (attempt x >>= f) Q E K n w :=
  wp_seq ((wp_attempt x).mpr h)

theorem wp_timing {E : ε' → W → Prop} {f : Option (Except ε α) → Task ε' Op Ans β}
    (h : wp S C x (fun a w' => wp S C (f (some (.ok a))) Q E K n w')
      (fun e w' => wp S C (f (some (.error e))) Q E K n w')
      (fun timer w' => if timer < n then K timer w' else wp S C (f none) Q E K n w') (n + 1) w) :
    wp S C (timed x >>= f) Q E K n w :=
  wp_seq ((wp_timed x).mpr h)

end Seq

theorem wp_mono {Q' : α → W → Prop} {E' : ε → W → Prop} {K' : Nat → W → Prop}
    {x : Task ε Op Ans α} (h : wp S C x Q E K n w) (hQ : ∀ a w', Q a w' → Q' a w')
    (hE : ∀ e w', E e w' → E' e w') (hK : ∀ timer w', K timer w' → K' timer w') :
    wp S C x Q' E' K' n w := by
  apply Safe.mono _ h
  intro r w' hr
  cases r with
  | done a => exact hQ a w' hr
  | failed e => exact hE e w' hr
  | cut timer => exact hK timer w' hr

/-- What neither the task nor the others can change may be used in the postconditions. -/
theorem wp_of_kept {P : W → Prop} {x : Task ε Op Ans α}
    (hrely : ∀ w w', C.rely w w' → P w → P w') (hguar : ∀ w w', C.guar w w' → P w → P w')
    (hw : P w) (h : wp S C x (fun a w' => P w' → Q a w') (fun e w' => P w' → E e w')
      (fun timer w' => P w' → K timer w') n w) : wp S C x Q E K n w := by
  have hrely' : ∀ w w', C.inTimers.rely w w' → P w → P w' := hrely
  have hguar' : ∀ w w', C.inTimers.guar w w' → P w → P w' := hguar
  apply Safe.of_kept hrely' hguar' hw
  apply Safe.mono _ h
  intro r w' hr hw'
  cases r <;> exact hr hw'

/-- One operation: it must be permitted after any interference, and keep the invariant and
    establish a postcondition both when it is answered and when one of the timers fires. -/
theorem wp_call (op : Op) {Q : Ans op → W → Prop} :
    wp S C (call op) Q E K n w ↔ ∀ w1, C.rely w w1 → C.inv w1 → C.ok w1 op ∧
      (∀ c a w2, S.exec w1 op c = some (a, w2) → C.inv w2 ∧ C.guar w1 w2 ∧ Q a w2) ∧
      (∀ timer < n, ∀ c w2, S.drop w1 op c = some w2 →
        C.inv w2 ∧ C.guar w1 w2 ∧ K timer w2) := by
  constructor
  · intro h w1 hrely hinv
    obtain ⟨hok, hstep⟩ := h w1 hrely hinv
    refine ⟨hok, fun c a w2 hexec => ?_, fun timer ht c w2 hdrop => ?_⟩
    · exact hstep (.go c) (.ok a) w2 (by simp [AsyncSystem.inTimers, hexec])
    · exact hstep (.fire timer c) (.error timer) w2 (by simp [AsyncSystem.inTimers, hdrop, ht])
  · intro h w1 hrely hinv
    obtain ⟨hok, hanswer, hfire⟩ := h w1 hrely hinv
    refine ⟨hok, fun choice a w2 hexec => ?_⟩
    cases choice with
    | go c =>
      simp only [AsyncSystem.inTimers, map_eq_some_iff, Prod.mk.injEq] at hexec
      obtain ⟨⟨b, w'⟩, hexec, rfl, rfl⟩ := hexec
      exact hanswer c b w' hexec
    | fire timer c =>
      simp only [AsyncSystem.inTimers] at hexec
      split at hexec
      · rename_i ht
        simp only [map_eq_some_iff, Prod.mk.injEq] at hexec
        obtain ⟨w', hdrop, rfl, rfl⟩ := hexec
        exact hfire timer ht c w' hdrop
      · cases hexec

/-- What others keep, and what every operation that the task may issue keeps when it is answered
    and when it is dropped, the task keeps. -/
theorem wp_of_only {P : Op → Prop} {J : W → Prop} {x : Task ε Op Ans α}
    (hrely : ∀ w w', C.rely w w' → J w → J w')
    (hstep : ∀ op, P op → ∀ w, C.inv w → J w → C.ok w op ∧
      (∀ c a w', S.exec w op c = some (a, w') → C.inv w' ∧ C.guar w w' ∧ J w') ∧
      (∀ c w', S.drop w op c = some w' → C.inv w' ∧ C.guar w w' ∧ J w'))
    (hx : Only P x) (hw : J w) :
    wp S C x (fun _ w' => J w') (fun _ w' => J w') (fun _ w' => J w') n w := by
  have hsafe : Safe S.inTimers C.inTimers (fun _ w' => J w') (x n) w := by
    have hrely' : ∀ w w', C.inTimers.rely w w' → J w → J w' := hrely
    apply Safe.of_only hrely' _ (hx n) hw
    intro op hop w1 hinv hw1
    obtain ⟨hok, hexec, hdrop⟩ := hstep op.1 hop w1 hinv hw1
    refine ⟨hok, fun choice a w2 h => ?_⟩
    cases choice with
    | go c =>
      simp only [AsyncSystem.inTimers, map_eq_some_iff, Prod.mk.injEq] at h
      obtain ⟨⟨b, w'⟩, hb, -, rfl⟩ := h
      exact hexec c b w' hb
    | fire timer c =>
      simp only [AsyncSystem.inTimers] at h
      split at h
      · simp only [map_eq_some_iff, Prod.mk.injEq] at h
        obtain ⟨w', hw', -, rfl⟩ := h
        exact hdrop c w' hw'
      · cases h
  apply Safe.mono _ hsafe
  intro r w' h
  cases r <;> exact h

end Rules

/-! ## Single runs -/

/-- With nobody else around, the task may go from `w` to `w'` and end with `r`. -/
def CanEnd (S : AsyncSystem W Op Ans Choice) (x : Task ε Op Ans α) (n : Nat) (w : W)
    (r : Ended ε α) (w' : W) : Prop :=
  ∃ cs, (x n).follow S.inTimers cs w = some (.ret r, w')

variable {g : Ended ε α → Prog _ _ (Ended ε' β)}

namespace CanEnd

variable {S : AsyncSystem W Op Ans Choice} {n : Nat} {w w1 w2 : W} {x : Task ε Op Ans α}
  {f : α → Task ε Op Ans β}

theorem pure (a : α) : CanEnd S (pure a : Task ε Op Ans α) n w (.done a) w := ⟨[], rfl⟩

theorem fail (e : ε) : CanEnd S (fail e : Task ε Op Ans α) n w (.failed e) w := ⟨[], rfl⟩

/-- An operation gets its answer. -/
theorem call {op : Op} {c : Choice} {a : Ans op} (h : S.exec w op c = some (a, w1)) :
    CanEnd S (call op : Task ε Op Ans (Ans op)) n w (.done a) w1 :=
  ⟨[.go c], by simp [Task.call, follow, AsyncSystem.inTimers, h]⟩

variable {timer : Nat}

/-- A timer fires. -/
theorem drop {c : Choice} (ht : timer < n) (h : S.drop w op c = some w1) :
    CanEnd S (Task.call op : Task ε Op Ans (Ans op)) n w (.cut timer) w1 :=
  ⟨[.fire timer c], by simp [Task.call, follow, AsyncSystem.inTimers, h, ht]⟩

/-- How a task ended decides what comes after it. -/
theorem after {r : Ended ε α} {r' : Ended ε' β} (hx : CanEnd S x n w r w1)
    (hg : ∃ cs, (g r).follow S.inTimers cs w1 = some (.ret r', w2)) :
    ∃ cs, (x n >>= g).follow S.inTimers cs w = some (.ret r', w2) := by
  obtain ⟨cs1, hcs1⟩ := hx
  obtain ⟨cs2, hcs2⟩ := hg
  exact ⟨cs1 ++ cs2, by rw [follow_bind _ hcs1, hcs2]⟩

variable {a : α}

theorem bind {r : Ended ε β} (hx : CanEnd S x n w (.done a) w1)
    (hf : CanEnd S (f a) n w1 r w2) : CanEnd S (x >>= f) n w r w2 :=
  hx.after hf

variable {e : ε}

theorem bind_failed (hx : CanEnd S x n w (.failed e) w1) :
    CanEnd S (x >>= f) n w (.failed e) w1 :=
  hx.after ⟨[], rfl⟩

theorem bind_cut (hx : CanEnd S x n w (.cut timer) w1) :
    CanEnd S (x >>= f) n w (.cut timer) w1 :=
  hx.after ⟨[], rfl⟩

theorem attempt_done (hx : CanEnd S x n w (.done a) w1) :
    CanEnd S (attempt x : Task ε' Op Ans _) n w (.done (.ok a)) w1 :=
  hx.after ⟨[], rfl⟩

theorem attempt_failed (hx : CanEnd S x n w (.failed e) w1) :
    CanEnd S (attempt x : Task ε' Op Ans _) n w (.done (.error e)) w1 :=
  hx.after ⟨[], rfl⟩

theorem attempt_cut (hx : CanEnd S x n w (.cut timer) w1) :
    CanEnd S (attempt x : Task ε' Op Ans _) n w (.cut timer) w1 :=
  hx.after ⟨[], rfl⟩

theorem timed_done (hx : CanEnd S x (n + 1) w (.done a) w1) :
    CanEnd S (timed x : Task ε' Op Ans _) n w (.done (some (.ok a))) w1 :=
  hx.after ⟨[], rfl⟩

theorem timed_failed (hx : CanEnd S x (n + 1) w (.failed e) w1) :
    CanEnd S (timed x : Task ε' Op Ans _) n w (.done (some (.error e))) w1 :=
  hx.after ⟨[], rfl⟩

/-- The new timer fires. -/
theorem timed_own (htimer : ¬timer < n) (hx : CanEnd S x (n + 1) w (.cut timer) w1) :
    CanEnd S (timed x : Task ε' Op Ans _) n w (.done none) w1 :=
  hx.after ⟨[], by simp only [htimer, if_false]; rfl⟩

/-- A timer further outside fires. -/
theorem timed_outer (htimer : timer < n) (hx : CanEnd S x (n + 1) w (.cut timer) w1) :
    CanEnd S (timed x : Task ε' Op Ans _) n w (.cut timer) w1 :=
  hx.after ⟨[], by simp only [htimer, if_true]; rfl⟩

theorem require {c : Prop} [Decidable c] {e : ε} (hc : c) :
    CanEnd S (require c e : Task ε Op Ans Unit) n w (.done ()) w := by
  simp only [Task.require, hc, if_true]
  exact pure ()

theorem require_fails {c : Prop} [Decidable c] (hc : ¬c) :
    CanEnd S (Task.require c e : Task ε Op Ans Unit) n w (.failed e) w := by
  simp only [Task.require, hc, if_false]
  exact fail e

theorem orElseFail {g : ε' → ε} {r : Except ε' α} {a : α} (hr : r = .ok a) :
    CanEnd S (orElseFail g r : Task ε Op Ans α) n w (.done a) w := by
  subst hr
  exact pure a

end CanEnd

/-- With nobody else around, the task may go from `w` to `w'`, where it is about to issue `c`. -/
def CanIssue (S : AsyncSystem W Op Ans Choice) (x : Task ε Op Ans α) (n : Nat) (w : W)
    (c : Op × Nat) (w' : W) : Prop :=
  ∃ cs p, (x n).follow S.inTimers cs w = some (p, w') ∧ p.next = some c

namespace CanIssue

variable {S : AsyncSystem W Op Ans Choice} {n : Nat} {w w1 w2 : W} {x : Task ε Op Ans α}
  {f : α → Task ε Op Ans β} {c : Op × Nat}

theorem call (op : Op) : CanIssue S (call op : Task ε Op Ans (Ans op)) n w (op, n) w :=
  ⟨[], _, rfl, rfl⟩

/-- Whatever comes after the task. -/
theorem before (hx : CanIssue S x n w c w1) :
    ∃ cs p, (x n >>= g).follow S.inTimers cs w = some (p, w1) ∧ p.next = some c := by
  obtain ⟨cs, p, hfollow, hnext⟩ := hx
  exact ⟨cs, p >>= g, follow_bind_left _ hfollow, next_bind hnext⟩

theorem bind {a : α} (hx : CanEnd S x n w (.done a) w1) (hf : CanIssue S (f a) n w1 c w2) :
    CanIssue S (x >>= f) n w c w2 := by
  obtain ⟨cs1, hcs1⟩ := hx
  obtain ⟨cs2, p, hcs2, hnext⟩ := hf
  exact ⟨cs1 ++ cs2, p, (follow_bind _ hcs1).trans hcs2, hnext⟩

end CanIssue

/-- With nobody else around, the task may go from `w` to `w'`, where `y` is left to do. -/
def Leads (S : AsyncSystem W Op Ans Choice) (x : Task ε Op Ans α) (n : Nat) (w : W)
    (y : Task ε Op Ans α) (w' : W) : Prop :=
  ∃ cs, (x n).follow S.inTimers cs w = some (y n, w')

/-- With nobody else around, the program may go from `w` to `w1`, where it is about to issue `c`;
    the answer `choice` takes it to `w2`, with `p'` left to do. -/
def CanPass (S : AsyncSystem W Op Ans Choice) (p : Prog (Op × Nat) (Timed Ans) α) (w : W)
    (c : Op × Nat) (w1 : W) (choice : Firing Choice) (p' : Prog (Op × Nat) (Timed Ans) α)
    (w2 : W) : Prop :=
  ∃ cs q, p.follow S.inTimers cs w = some (q, w1) ∧ q.next = some c ∧
    q.follow S.inTimers [choice] w1 = some (p', w2)

section Passing

variable {S : AsyncSystem W Op Ans Choice} {n : Nat} {w w1 w2 w3 : W} {x y : Task ε Op Ans α}
  {f : α → Task ε Op Ans β} {c : Op × Nat} {choice : Firing Choice}

theorem Leads.refl : Leads S x n w x w := ⟨[], rfl⟩

/-- What comes after the end of a task. -/
theorem Leads.bind {a : α} {z : Task ε Op Ans β} (hx : CanEnd S x n w (.done a) w1)
    (hf : Leads S (f a) n w1 z w2) : Leads S (x >>= f) n w z w2 := by
  obtain ⟨cs1, hcs1⟩ := hx
  obtain ⟨cs2, hcs2⟩ := hf
  exact ⟨cs1 ++ cs2, (follow_bind _ hcs1).trans hcs2⟩

theorem Leads.canEnd {r : Ended ε α} (h : Leads S x n w y w1) (hy : CanEnd S y n w1 r w2) :
    CanEnd S x n w r w2 := by
  obtain ⟨cs1, hcs1⟩ := h
  obtain ⟨cs2, hcs2⟩ := hy
  exact ⟨cs1 ++ cs2, (follow_append hcs1).trans hcs2⟩

theorem CanPass.call {op : Op} {c : Choice} {a : Ans op} (h : S.exec w op c = some (a, w1)) :
    CanPass S (Task.call op n : Prog _ _ (Ended ε (Ans op))) w (op, n) w (.go c) (.ret (.done a))
      w1 :=
  ⟨[], _, rfl, rfl, by simp [Task.call, follow, AsyncSystem.inTimers, h]⟩

/-- Whatever comes after the program. -/
theorem CanPass.before {γ : Type} {p p' : Prog (Op × Nat) (Timed Ans) α}
    {g : α → Prog (Op × Nat) (Timed Ans) γ} (h : CanPass S p w c w1 choice p' w2) :
    CanPass S (p >>= g) w c w1 choice (p' >>= g) w2 := by
  obtain ⟨cs, q, hfollow, hnext, hstep⟩ := h
  exact ⟨cs, q >>= g, follow_bind_left _ hfollow, next_bind hnext,
    follow_bind_left _ hstep⟩

theorem CanPass.bind {a : α} {p' : Prog (Op × Nat) (Timed Ans) (Ended ε β)}
    (hx : CanEnd S x n w (.done a) w1) (hf : CanPass S (f a n) w1 c w2 choice p' w3) :
    CanPass S ((x >>= f) n) w c w2 choice p' w3 := by
  obtain ⟨cs1, hcs1⟩ := hx
  obtain ⟨cs2, q, hcs2, hnext, hstep⟩ := hf
  exact ⟨cs1 ++ cs2, q, (follow_bind _ hcs1).trans hcs2, hnext, hstep⟩

end Passing

end Task

end Serctl.Lib
