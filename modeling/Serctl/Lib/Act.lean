import Serctl.Lib.Prog

/-!
# Fallible programs with local variables

Code that returns early on an error while its local variables stay visible to the caller's
cleanup is an `Act`: a program that takes the local variables and returns a result together
with the variables as they were when it ended.

`Act.wp` is its proof rule, stated over `Safe`, with one postcondition for a normal return
and one for an error.  The lemmas push it through the monad, so that a proof about a program
is left with one goal for each operation the program issues.
-/

namespace Serctl.Lib

/-- A program with local variables `σ` and errors `ε`. -/
def Act (σ ε Op : Type) (Ans : Op → Type) (α : Type) : Type :=
  σ → Prog Op Ans (Except ε α × σ)

namespace Act

variable {W Op : Type} {Ans : Op → Type} {Choice σ τ ε ε' α β : Type}

instance : Monad (Act σ ε Op Ans) where
  pure a := fun s => .ret (.ok a, s)
  bind x f := fun s => x s >>= fun
    | (.ok a, s') => f a s'
    | (.error e, s') => .ret (.error e, s')

/-- Return early with an error. -/
def fail (e : ε) : Act σ ε Op Ans α := fun s => .ret (.error e, s)

/-- The local variables. -/
def vars : Act σ ε Op Ans σ := fun s => .ret (.ok s, s)

/-- Assign local variables. -/
def assign (f : σ → σ) : Act σ ε Op Ans Unit := fun s => .ret (.ok (), f s)

/-- Go on only if the condition holds. -/
def require (c : Prop) [Decidable c] (e : ε) : Act σ ε Op Ans Unit :=
  if c then pure () else fail e

/-- Run only if the condition holds. -/
def onlyIf (c : Prop) [Decidable c] (x : Act σ ε Op Ans Unit) : Act σ ε Op Ans Unit :=
  if c then x else pure ()

/-- Issue an operation. -/
def call (op : Op) : Act σ ε Op Ans (Ans op) := fun s => .ask op fun a => .ret (.ok a, s)

/-- The value of a result, or an early return with its error as `f` presents it. -/
def orElseFail (f : ε' → ε) : Except ε' α → Act σ ε Op Ans α
  | .ok a => pure a
  | .error e => fail (f e)

/-- Run to the end and hand over the result, be it a value or an error. -/
def attempt (x : Act σ ε Op Ans α) : Act σ ε' Op Ans (Except ε α) :=
  fun s => x s >>= fun (r, s') => .ret (.ok r, s')

/-- Change how errors are presented. -/
def mapError (f : ε → ε') (x : Act σ ε Op Ans α) : Act σ ε' Op Ans α :=
  fun s => x s >>= fun (r, s') => .ret (r.mapError f, s')

/-- A program with its own local variables, run inside another. -/
def within (init : τ) (x : Act τ ε Op Ans α) : Act σ ε' Op Ans (Except ε α × τ) :=
  fun s => x init >>= fun r => .ret (.ok r, s)

theorem bind_assoc {γ : Type} (x : Act σ ε Op Ans α) (f : α → Act σ ε Op Ans β)
    (g : β → Act σ ε Op Ans γ) : x >>= f >>= g = x >>= fun a => f a >>= g := by
  funext s
  refine (Prog.bind_assoc _ _ (x s)).trans (congrArg (x s >>= ·) (funext ?_))
  rintro ⟨_ | _, _⟩ <;> rfl

/-- An attempt whose error is returned after all. -/
theorem attempt_bind_orElseFail (x : Act σ ε Op Ans α) :
    (attempt x : Act σ ε Op Ans (Except ε α)) >>= orElseFail id = x := by
  funext s
  refine (Prog.bind_assoc _ _ (x s)).trans ((congrArg (x s >>= ·) (funext ?_)).trans
    (Prog.bind_ret (x s)))
  rintro ⟨_ | _, _⟩ <;> rfl

/-- The program keeps its contract from local variables `s` and world `w` on; it returns only
    where `Q` holds and fails only where `E` holds. -/
def wp (S : System W Op Ans Choice) (C : Contract W Op) (x : Act σ ε Op Ans α)
    (Q : α → σ → W → Prop) (E : ε → σ → W → Prop) (s : σ) (w : W) : Prop :=
  Safe S C (fun r w' => match r with
    | (.ok a, s') => Q a s' w'
    | (.error e, s') => E e s' w') (x s) w

section Rules

variable {S : System W Op Ans Choice} {C : Contract W Op} {Q : α → σ → W → Prop}
  {E : ε → σ → W → Prop} {s : σ} {w : W}

@[simp] theorem wp_pure (a : α) : wp S C (pure a) Q E s w ↔ Q a s w := Iff.rfl

@[simp] theorem wp_fail (e : ε) : wp S C (fail e) Q E s w ↔ E e s w := Iff.rfl

@[simp] theorem wp_vars {Q : σ → σ → W → Prop} : wp S C vars Q E s w ↔ Q s s w := Iff.rfl

@[simp] theorem wp_assign {Q : Unit → σ → W → Prop} (f : σ → σ) :
    wp S C (assign f) Q E s w ↔ Q () (f s) w := Iff.rfl

@[simp] theorem wp_require {Q : Unit → σ → W → Prop} (c : Prop) [Decidable c] (e : ε) :
    wp S C (require c e) Q E s w ↔ (c → Q () s w) ∧ (¬c → E e s w) := by
  by_cases hc : c <;> simp [require, hc]

@[simp] theorem wp_onlyIf {Q : Unit → σ → W → Prop} (c : Prop) [Decidable c]
    (x : Act σ ε Op Ans Unit) :
    wp S C (onlyIf c x) Q E s w ↔ (c → wp S C x Q E s w) ∧ (¬c → Q () s w) := by
  by_cases hc : c <;> simp [onlyIf, hc]

@[simp] theorem wp_orElseFail (f : ε' → ε) (r : Except ε' α) :
    wp S C (orElseFail f r) Q E s w ↔
      (∀ a, r = .ok a → Q a s w) ∧ (∀ e, r = .error e → E (f e) s w) := by
  cases r <;> simp [orElseFail]

@[simp] theorem wp_bind {Q : β → σ → W → Prop} (x : Act σ ε Op Ans α)
    (f : α → Act σ ε Op Ans β) :
    wp S C (x >>= f) Q E s w ↔ wp S C x (fun a s' w' => wp S C (f a) Q E s' w') E s w := by
  refine Safe.bind_iff.trans ⟨?_, ?_⟩ <;>
  · apply Safe.mono
    rintro ⟨r | r, s'⟩ w' h <;> exact h

variable {E' : ε' → σ → W → Prop}

@[simp] theorem wp_attempt {Q : Except ε α → σ → W → Prop} (x : Act σ ε Op Ans α) :
    wp S C (attempt x) Q E' s w ↔
      wp S C x (fun a s' w' => Q (.ok a) s' w') (fun e s' w' => Q (.error e) s' w') s w := by
  refine Safe.bind_iff.trans ⟨?_, ?_⟩ <;>
  · apply Safe.mono
    rintro ⟨r | r, s'⟩ w' h <;> exact h

@[simp] theorem wp_mapError (f : ε → ε') (x : Act σ ε Op Ans α) :
    wp S C (mapError f x) Q E' s w ↔ wp S C x Q (fun e s' w' => E' (f e) s' w') s w := by
  refine Safe.bind_iff.trans ⟨?_, ?_⟩ <;>
  · apply Safe.mono
    rintro ⟨r | r, s'⟩ w' h <;> exact h

@[simp] theorem wp_within {Q : Except ε α × τ → σ → W → Prop} (init : τ) (x : Act τ ε Op Ans α) :
    wp S C (within init x) Q E' s w ↔
      wp S C x (fun a t w' => Q (.ok a, t) s w') (fun e t w' => Q (.error e, t) s w') init w := by
  refine Safe.bind_iff.trans ⟨?_, ?_⟩ <;>
  · apply Safe.mono
    rintro ⟨r | r, s'⟩ w' h <;> exact h

section

variable {Q' : α → σ → W → Prop} {E' : ε → σ → W → Prop} {x : Act σ ε Op Ans α}

theorem wp_mono (h : wp S C x Q E s w) (hQ : ∀ a s' w', Q a s' w' → Q' a s' w')
    (hE : ∀ e s' w', E e s' w' → E' e s' w') : wp S C x Q' E' s w := by
  refine Safe.mono ?_ h
  rintro ⟨r | r, s'⟩ w' h
  · exact hE r s' w' h
  · exact hQ r s' w' h

/-- The invariant may be used in both postconditions. -/
theorem wp_of_inv (hinv : C.inv w)
    (h : wp S C x (fun a s' w' => C.inv w' → Q a s' w') (fun e s' w' => C.inv w' → E e s' w') s w) :
    wp S C x Q E s w := by
  refine Safe.of_inv hinv (Safe.mono ?_ h)
  rintro ⟨r | r, s'⟩ w' hr hinv'
  · exact hr hinv'
  · exact hr hinv'

/-- Two things that are known where a program ends are known together. -/
theorem wp_and (h : wp S C x Q E s w) (h' : wp S C x Q' E' s w) :
    wp S C x (fun a s' w' => Q a s' w' ∧ Q' a s' w') (fun e s' w' => E e s' w' ∧ E' e s' w')
      s w := by
  refine Safe.mono ?_ (Safe.and h h')
  rintro ⟨r | r, s'⟩ w' h
  · exact h
  · exact h

end

/-- One operation: it must be permitted after any interference, and whatever it answers must
    keep the invariant and establish the postcondition. -/
theorem wp_call (op : Op) {Q : Ans op → σ → W → Prop} :
    wp S C (call op) Q E s w ↔ ∀ w1, C.rely w w1 → C.inv w1 → C.ok w1 op ∧
      ∀ c a w2, S.exec w1 op c = some (a, w2) → C.inv w2 ∧ C.guar w1 w2 ∧ Q a s w2 :=
  Iff.rfl

end Rules

/-! ### Programs that issue only certain operations -/

/-- The program issues only operations with the property `P`, and local variables with the
    property `K` still have it when it ends. -/
def Tame (P : Op → Prop) (K : σ → Prop) (x : Act σ ε Op Ans α) : Prop :=
  ∀ s, K s → (x s).Within P fun r => K r.2

variable {f : α → Act σ ε Op Ans β} {a : α}

section Tame

variable {P : Op → Prop} {K : σ → Prop}

theorem tame_pure (a : α) : Tame P K (pure a : Act σ ε Op Ans α) := fun _ hs => hs

theorem tame_fail (e : ε) : Tame P K (fail e : Act σ ε Op Ans α) := fun _ hs => hs

theorem tame_vars : Tame P K (vars : Act σ ε Op Ans σ) := fun _ hs => hs

theorem tame_assign {f : σ → σ} (hf : ∀ s, K s → K (f s)) :
    Tame P K (assign f : Act σ ε Op Ans Unit) := hf

theorem tame_call {op : Op} (hop : P op) : Tame P K (call op : Act σ ε Op Ans (Ans op)) :=
  fun _ hs => ⟨hop, fun _ => hs⟩

theorem tame_require (c : Prop) [Decidable c] (e : ε) :
    Tame P K (require c e : Act σ ε Op Ans Unit) := by
  unfold require
  split
  · exact tame_pure ()
  · exact tame_fail e

theorem tame_onlyIf {c : Prop} [Decidable c] {x : Act σ ε Op Ans Unit} (hx : Tame P K x) :
    Tame P K (onlyIf c x) := by
  unfold onlyIf
  split
  · exact hx
  · exact tame_pure ()

theorem tame_orElseFail (f : ε' → ε) (r : Except ε' α) :
    Tame P K (orElseFail f r : Act σ ε Op Ans α) := by
  cases r with
  | ok a => exact tame_pure a
  | error e => exact tame_fail (f e)

variable {x : Act σ ε Op Ans α}

theorem Tame.bind (hx : Tame P K x) (hf : ∀ a, Tame P K (f a)) : Tame P K (x >>= f) := by
  intro s hs
  refine (hx s hs).bind ?_
  rintro ⟨r | a, s'⟩ hs'
  · exact hs'
  · exact hf a s' hs'

theorem Tame.attempt (hx : Tame P K x) :
    Tame P K (attempt x : Act σ ε' Op Ans (Except ε α)) :=
  fun s hs => (hx s hs).bind fun _ hr => hr

theorem Tame.mapError (hx : Tame P K x) (f : ε → ε') :
    Tame P K (mapError f x) :=
  fun s hs => (hx s hs).bind fun _ hr => hr

theorem Tame.mono {P' : Op → Prop} (hx : Tame P K x) (h : ∀ op, P op → P' op) : Tame P' K x :=
  fun s hs => .mono h (fun _ hr => hr) (hx s hs)

/-- What others keep, and what the operations of the program keep, holds where it ends. -/
theorem Tame.wp {S : System W Op Ans Choice} {C : Contract W Op} {J : W → Prop}
    (hx : Tame P K x) (hrely : ∀ w w', C.rely w w' → J w → J w')
    (hstep : ∀ op, P op → ∀ w, C.inv w → J w → C.ok w op ∧
      ∀ c a w', S.exec w op c = some (a, w') → C.inv w' ∧ C.guar w w' ∧ J w')
    {s : σ} {w : W} (hs : K s) (hw : J w) :
    wp S C x (fun _ s' w' => K s' ∧ J w') (fun _ s' w' => K s' ∧ J w') s w := by
  refine Safe.mono ?_ (Safe.of_within hrely hstep (hx s hs) hw)
  rintro ⟨r | a, s'⟩ w' h
  · exact h
  · exact h

end Tame

/-! ### Runs without faults -/

/-- Run to the end with one choice at every operation. -/
def steady (S : System W Op Ans Choice) (c : Choice) (x : Act σ ε Op Ans α) (s : σ) (w : W) :
    Option ((Except ε α × σ) × W) :=
  (x s).steadily S c w

section Steady

variable {S : System W Op Ans Choice} {c : Choice} {s : σ} {w : W}

@[simp] theorem steady_orElseFail_ok (f : ε' → ε) (a : α) :
    steady S c (orElseFail f (.ok a) : Act σ ε Op Ans α) s w = some ((.ok a, s), w) := rfl

theorem steady_call {op : Op} {a : Ans op} {w' : W} (h : S.exec w op c = some (a, w')) :
    steady S c (call op : Act σ ε Op Ans (Ans op)) s w = some ((.ok a, s), w') := by
  simp [steady, call, Prog.steadily, h]

/-- The rest runs from where the first part has returned. -/
theorem steady_bind {x : Act σ ε Op Ans α} {s' : σ} {w' : W}
    (h : steady S c x s w = some ((.ok a, s'), w')) :
    steady S c (x >>= f) s w = steady S c (f a) s' w' := by
  change ((x s) >>= _).steadily S c w = _
  rw [Prog.steadily_bind]
  unfold steady at h
  rw [h]
  rfl

theorem steady_attempt {x : Act σ ε Op Ans α} {s' : σ} {w' : W}
    (h : steady S c x s w = some ((.ok a, s'), w')) :
    steady S c (attempt x : Act σ ε' Op Ans (Except ε α)) s w = some ((.ok (.ok a), s'), w') := by
  change ((x s) >>= _).steadily S c w = _
  rw [Prog.steadily_bind]
  unfold steady at h
  rw [h]
  rfl

end Steady

end Act

end Serctl.Lib
