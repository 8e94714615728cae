import Mathlib.Logic.Relation

/-!
# Programs over a changing world

A program is a tree: it has returned, or it has issued one operation and says how it goes on
after each answer.  What the operations do is given by a `System`: on a world and a choice
(which fault happens, which identifier is allocated, what a peer sends) an operation has an
answer and a new world, or the choice is not open to it.

`Safe` is the proof rule.  Between any two operations of a program other parties may change
the world as far as its `Contract` relies on; each operation must be permitted where it is
issued, keep the invariant and stay within the guarantee; and when the program returns, its
postcondition holds.  The program may stop between any two operations, so the invariant holds
at a crash as well.
-/

namespace Serctl.Lib

open Option List

/-- A program that issues operations `Op` and returns an `α`. -/
inductive Prog (Op : Type) (Ans : Op → Type) (α : Type) where
  | ret (a : α)
  | ask (op : Op) (k : Ans op → Prog Op Ans α)

namespace Prog

variable {Op : Type} {Ans : Op → Type} {α β : Type}

/-- One program after another. -/
def bind : Prog Op Ans α → (α → Prog Op Ans β) → Prog Op Ans β
  | .ret a, f => f a
  | .ask op k, f => .ask op fun a => bind (k a) f

instance : Monad (Prog Op Ans) where
  pure := .ret
  bind := Prog.bind

/-- The operation a program is about to issue. -/
def next : Prog Op Ans α → Option Op
  | .ret _ => none
  | .ask op _ => some op

@[simp] theorem ask_bind (op : Op) (k : Ans op → Prog Op Ans α) (f : α → Prog Op Ans β) :
    Prog.ask op k >>= f = .ask op fun a => k a >>= f := rfl

@[simp] theorem pure_def (a : α) : (pure a : Prog Op Ans α) = .ret a := rfl

theorem bind_assoc {γ : Type} (f : α → Prog Op Ans β) (g : β → Prog Op Ans γ) :
    ∀ p : Prog Op Ans α, p >>= f >>= g = p >>= fun a => f a >>= g := by
  intro p
  induction p with
  | ret a => rfl
  | ask op k ih =>
    simp only [ask_bind, ask.injEq, heq_eq_eq, true_and]
    exact funext ih

@[simp] theorem bind_ret : ∀ p : Prog Op Ans α, p >>= Prog.ret = p := by
  intro p
  induction p with
  | ret a => rfl
  | ask op k ih =>
    simp only [ask_bind, ask.injEq, heq_eq_eq, true_and]
    exact funext ih

end Prog

/-- What operations do to a world of type `W`, and what happens to it besides. -/
structure System (W Op : Type) (Ans : Op → Type) (Choice : Type) where
  /-- The answer and the world after an operation, for the choices open to it. -/
  exec : W → (op : Op) → Choice → Option (Ans op × W)
  /-- A change made by other parties. -/
  env : W → Choice → Option W
  /-- What is left of the world when every program stops. -/
  crash : W → Choice → Option W

variable {W Op : Type} {Ans : Op → Type} {Choice α β ε σ : Type}

/-- The system in which an operation goes only as permitted. -/
def System.restrict (S : System W Op Ans Choice) (permitted : W → Op → Choice → Bool) :
    System W Op Ans Choice :=
  { S with exec := fun w op c => if permitted w op c then S.exec w op c else none }

variable {c : Choice} {w : W}

theorem System.restrict_exec {S : System W Op Ans Choice} {permitted : W → Op → Choice → Bool}
    {op : Op} {r : Ans op × W} :
    (S.restrict permitted).exec w op c = some r ↔
      permitted w op c = true ∧ S.exec w op c = some r := by
  by_cases h : permitted w op c = true <;> simp [System.restrict, h]

@[simp] theorem System.restrict_true (S : System W Op Ans Choice) :
    S.restrict (fun _ _ _ => true) = S := rfl

/-- Run a program to its end with one choice at every operation and nobody else around. -/
def Prog.steadily (S : System W Op Ans Choice) (c : Choice) :
    Prog Op Ans α → W → Option (α × W)
  | .ret a, w => some (a, w)
  | .ask op k, w => (S.exec w op c).bind fun (a, w') => (k a).steadily S c w'

variable {f : α → Prog Op Ans β} {p : Prog Op Ans α}

theorem Prog.steadily_bind (S : System W Op Ans Choice) (c : Choice) :
    ∀ {w : W}, (p >>= f).steadily S c w =
      (p.steadily S c w).bind fun (a, w') => (f a).steadily S c w' := by
  induction p with
  | ret a =>
    intro w
    rfl
  | ask op k ih =>
    intro w
    simp only [Prog.ask_bind, Prog.steadily, Option.bind_assoc, ih]

/-- Go on along the choices, one for each operation, with nobody else around. -/
def Prog.follow (S : System W Op Ans Choice) :
    List Choice → Prog Op Ans α → W → Option (Prog Op Ans α × W)
  | [], p, w => some (p, w)
  | _ :: _, .ret _, _ => none
  | c :: cs, .ask op k, w => (S.exec w op c).bind fun (a, w') => Prog.follow S cs (k a) w'

variable {cs : List Choice} {a : α}

theorem Prog.follow_cons (S : System W Op Ans Choice) {op : Op} {k : Ans op → Prog Op Ans α} :
    (Prog.ask op k).follow S (c :: cs) w =
      (S.exec w op c).bind fun (a, w') => (k a).follow S cs w' := rfl

/-- Where a program has returned, what comes after it goes on. -/
theorem Prog.follow_bind (S : System W Op Ans Choice) {cs' : List Choice} :
    ∀ {p : Prog Op Ans α} {w w' : W}, p.follow S cs w = some (.ret a, w') →
      (p >>= f).follow S (cs ++ cs') w = (f a).follow S cs' w' := by
  induction cs with
  | nil =>
    intro p w w' h
    cases h
    rfl
  | cons c cs ih =>
    intro p w w' h
    cases p with
    | ret b => cases h
    | ask op k =>
      obtain ⟨⟨b, w1⟩, hexec, hrest⟩ := bind_eq_some_iff.mp h
      simp only [Prog.ask_bind, cons_append, Prog.follow_cons, hexec, bind_some]
      exact ih hrest

/-- Where a program has come, it comes with anything after it as well. -/
theorem Prog.follow_bind_left (S : System W Op Ans Choice) :
    ∀ {p p' : Prog Op Ans α} {w w' : W}, p.follow S cs w = some (p', w') →
      (p >>= f).follow S cs w = some (p' >>= f, w') := by
  induction cs with
  | nil =>
    intro p p' w w' h
    cases h
    rfl
  | cons c cs ih =>
    intro p p' w w' h
    cases p with
    | ret a => cases h
    | ask op k =>
      obtain ⟨⟨a, w1⟩, hexec, hrest⟩ := bind_eq_some_iff.mp h
      simp only [Prog.ask_bind, Prog.follow_cons, hexec, bind_some]
      exact ih hrest

/-- More choices go on from there. -/
theorem Prog.follow_append {S : System W Op Ans Choice} {cs' : List Choice} :
    ∀ {p p' : Prog Op Ans α} {w w' : W}, p.follow S cs w = some (p', w') →
      p.follow S (cs ++ cs') w = p'.follow S cs' w' := by
  induction cs with
  | nil =>
    intro p p' w w' h
    cases h
    rfl
  | cons c cs ih =>
    intro p p' w w' h
    cases p with
    | ret a => cases h
    | ask op k =>
      obtain ⟨⟨a, w1⟩, hexec, hrest⟩ := bind_eq_some_iff.mp h
      simp only [cons_append, Prog.follow_cons, hexec, bind_some]
      exact ih hrest

theorem Prog.next_bind {op : Op} (h : p.next = some op) : (p >>= f).next = some op := by
  cases p with
  | ret a => cases h
  | ask op' k => exact h

/-- A run without faults follows one choice as often as it has operations. -/
theorem Prog.follow_of_steadily (S : System W Op Ans Choice) :
    ∀ {p : Prog Op Ans α} {w w' : W}, p.steadily S c w = some (a, w') →
      ∃ n, p.follow S (replicate n c) w = some (.ret a, w') := by
  intro p
  induction p with
  | ret b =>
    intro w w' h
    cases h
    exact ⟨0, rfl⟩
  | ask op k ih =>
    intro w w' h
    obtain ⟨⟨b, w1⟩, hexec, hrest⟩ := bind_eq_some_iff.mp h
    obtain ⟨n, hn⟩ := ih b hrest
    refine ⟨n + 1, ?_⟩
    simp only [replicate_succ, Prog.follow_cons, hexec, bind_some]
    exact hn

/-- There is no other way to follow that one choice to an end. -/
theorem Prog.ret_of_follow_steadily (S : System W Op Ans Choice) {b : α} :
    ∀ {p : Prog Op Ans α} {w w' w'' : W}, p.steadily S c w = some (a, w') →
      p.follow S cs w = some (.ret b, w'') → (∀ d ∈ cs, d = c) → b = a ∧ w'' = w' := by
  induction cs with
  | nil =>
    intro p w w' w'' hsteady hfollow _
    cases hfollow
    cases hsteady
    exact ⟨rfl, rfl⟩
  | cons d cs ih =>
    intro p w w' w'' hsteady hfollow hall
    cases p with
    | ret a' => cases hfollow
    | ask op k =>
      obtain ⟨rfl, hcs⟩ := forall_mem_cons.mp hall
      obtain ⟨⟨a1, w1⟩, hexec, hrest⟩ := bind_eq_some_iff.mp hsteady
      simp only [Prog.follow_cons, hexec, bind_some] at hfollow
      exact ih hrest hfollow hcs

/-- The program with every operation carried out by a program of its own. -/
def Prog.expand {Op' : Type} {Ans' : Op' → Type} (f : (op : Op) → Prog Op' Ans' (Ans op)) :
    Prog Op Ans α → Prog Op' Ans' α
  | .ret a => .ret a
  | .ask op k => f op >>= fun a => (k a).expand f

/-- Whatever the answers, the program issues only operations with the property. -/
def Prog.Only (P : Op → Prop) : Prog Op Ans α → Prop
  | .ret _ => True
  | .ask op k => P op ∧ ∀ a, (k a).Only P

variable {P : Op → Prop}

theorem Prog.Only.bind :
    ∀ {p : Prog Op Ans α}, p.Only P → (∀ a, (f a).Only P) → (p >>= f).Only P := by
  intro p
  induction p with
  | ret a => exact fun _ hf => hf a
  | ask op k ih => exact fun hp hf => ⟨hp.1, fun a => ih a (hp.2 a) hf⟩

/-- Whatever the answers, the program issues only operations with the property `P`, and returns
    only values with the property `R`. -/
def Prog.Within (P : Op → Prop) (R : α → Prop) : Prog Op Ans α → Prop
  | .ret a => R a
  | .ask op k => P op ∧ ∀ a, (k a).Within P R

variable {R : α → Prop}

theorem Prog.Within.bind {R' : β → Prop} :
    ∀ {p : Prog Op Ans α}, p.Within P R → (∀ a, R a → (f a).Within P R') →
      (p >>= f).Within P R' := by
  intro p
  induction p with
  | ret a => exact fun hp hf => hf a hp
  | ask op k ih => exact fun hp hf => ⟨hp.1, fun a => ih a (hp.2 a) hf⟩

theorem Prog.Within.mono {P' : Op → Prop} {R' : α → Prop} (hP : ∀ op, P op → P' op)
    (hR : ∀ a, R a → R' a) :
    ∀ {p : Prog Op Ans α}, p.Within P R → p.Within P' R' := by
  intro p
  induction p with
  | ret a => exact fun hp => hR a hp
  | ask op k ih => exact fun hp => ⟨hP op hp.1, fun a => ih a (hp.2 a)⟩

theorem Prog.Only.within :
    ∀ {p : Prog Op Ans α}, p.Only P → p.Within P fun _ => True := by
  intro p
  induction p with
  | ret a => exact fun _ => trivial
  | ask op k ih => exact fun hp => ⟨hp.1, fun a => ih a (hp.2 a)⟩

theorem Prog.Only.expand {Op' : Type} {Ans' : Op' → Type} {P : Op' → Prop}
    {f : (op : Op) → Prog Op' Ans' (Ans op)} (hf : ∀ op, (f op).Only P) :
    ∀ {p : Prog Op Ans α}, (p.expand f).Only P := by
  intro p
  induction p with
  | ret a => exact trivial
  | ask op k ih => exact (hf op).bind ih

/-- The terms on which one program runs among others. -/
structure Contract (W Op : Type) where
  /-- Holds in every state. -/
  inv : W → Prop
  /-- What others may do between two operations of the program. -/
  rely : W → W → Prop
  /-- What an operation of the program may do. -/
  guar : W → W → Prop
  /-- The operations that may be issued in a world. -/
  ok : W → Op → Prop
  rely_refl : ∀ w, rely w w
  rely_trans : ∀ {w₁ w₂ w₃}, rely w₁ w₂ → rely w₂ w₃ → rely w₁ w₃

/-- The program keeps its contract from `w` on, and returns only where `Q` holds. -/
def Safe (S : System W Op Ans Choice) (C : Contract W Op) (Q : α → W → Prop) :
    Prog Op Ans α → W → Prop
  | .ret a, w => Q a w
  | .ask op k, w => ∀ w₁, C.rely w w₁ → C.inv w₁ → C.ok w₁ op ∧
      ∀ c a w₂, S.exec w₁ op c = some (a, w₂) →
        C.inv w₂ ∧ C.guar w₁ w₂ ∧ Safe S C Q (k a) w₂

namespace Safe

variable {S : System W Op Ans Choice} {C : Contract W Op} {Q : α → W → Prop}

theorem mono {R : α → W → Prop} (hQR : ∀ a w, Q a w → R a w) :
    ∀ {p : Prog Op Ans α} {w : W}, Safe S C Q p w → Safe S C R p w := by
  intro p
  induction p with
  | ret a => intro w h; exact hQR a w h
  | ask op k ih =>
    intro w h w1 hrely hinv
    obtain ⟨hok, hstep⟩ := h w1 hrely hinv
    refine ⟨hok, fun c a w2 hexec => ?_⟩
    obtain ⟨hinv2, hguar, hrest⟩ := hstep c a w2 hexec
    exact ⟨hinv2, hguar, ih a hrest⟩

/-- Sequential composition: the second program starts wherever the first may return. -/
theorem bind_iff {Q : β → W → Prop} :
    ∀ {p : Prog Op Ans α} {w : W},
      Safe S C Q (p >>= f) w ↔ Safe S C (fun a w' => Safe S C Q (f a) w') p w := by
  intro p
  induction p with
  | ret a => exact Iff.rfl
  | ask op k ih =>
    intro w
    refine forall_congr' fun w1 => forall_congr' fun _ => forall_congr' fun _ =>
      and_congr_right fun _ => ?_
    exact forall_congr' fun c => forall_congr' fun a => forall_congr' fun w2 =>
      forall_congr' fun _ => and_congr_right fun _ => and_congr_right fun _ => ih a

section

variable {P : W → Prop}

/-- What every step of the program keeps may be used where the program returns. -/
theorem of_step (hstep : ∀ w w1 w2, C.rely w w1 → C.guar w1 w2 → C.inv w2 → P w → P w2) :
    ∀ {p : Prog Op Ans α} {w : W}, P w → Safe S C (fun a w' => P w' → Q a w') p w →
      Safe S C Q p w := by
  intro p
  induction p with
  | ret a => exact fun hw h => h hw
  | ask op k ih =>
    intro w hw h w1 hrely hinv
    obtain ⟨hok, hanswer⟩ := h w1 hrely hinv
    refine ⟨hok, fun c a w2 hexec => ?_⟩
    obtain ⟨hinv2, hguar, hrest⟩ := hanswer c a w2 hexec
    exact ⟨hinv2, hguar, ih a (hstep w w1 w2 hrely hguar hinv2 hw) hrest⟩

/-- The invariant may be used where the program returns. -/
theorem of_inv : C.inv w → Safe S C (fun a w' => C.inv w' → Q a w') p w → Safe S C Q p w :=
  of_step fun _ _ _ _ _ hinv _ => hinv

/-- What neither the program nor the others can change may be used where the program returns. -/
theorem of_kept (hrely : ∀ w w', C.rely w w' → P w → P w')
    (hguar : ∀ w w', C.guar w w' → P w → P w') :
    P w → Safe S C (fun a w' => P w' → Q a w') p w → Safe S C Q p w :=
  of_step fun w w1 w2 hr hg _ hw => hguar w1 w2 hg (hrely w w1 hr hw)

end

/-- Interference before the program goes on changes nothing, if its postcondition can stand
    interference after the program has returned. -/
theorem of_rely (hQ : ∀ a w w', C.rely w w' → Q a w → Q a w')
    {w' : W} (h : Safe S C Q p w) (hrely : C.rely w w') :
    Safe S C Q p w' := by
  cases p with
  | ret a => exact hQ a w w' hrely h
  | ask op k => exact fun w1 hrely1 => h w1 (C.rely_trans hrely hrely1)

/-- Along any choices a safe program makes only permitted changes, and goes on safely. -/
theorem follow :
    ∀ {p p' : Prog Op Ans α} {w w' : W}, C.inv w → Safe S C Q p w →
      Prog.follow S cs p w = some (p', w') →
      C.inv w' ∧ Relation.ReflTransGen C.guar w w' ∧ Safe S C Q p' w' := by
  induction cs with
  | nil =>
    intro p p' w w' hinv hsafe h
    cases h
    exact ⟨hinv, .refl, hsafe⟩
  | cons c cs ih =>
    intro p p' w w' hinv hsafe h
    cases p with
    | ret a => cases h
    | ask op k =>
      simp only [Prog.follow_cons, bind_eq_some_iff] at h
      obtain ⟨⟨a, w1⟩, hexec, hrest⟩ := h
      -- nobody interferes before the operation
      obtain ⟨hinv1, hguar, hsafe1⟩ := (hsafe w (C.rely_refl w) hinv).2 c a w1 hexec
      obtain ⟨hinv', hguars, hsafe'⟩ := ih hinv1 hsafe1 hrest
      exact ⟨hinv', .head hguar hguars, hsafe'⟩

variable {J : W → Prop}

/-- What every expanded operation keeps, the whole program keeps. -/
theorem expand {Op' : Type} {Ans' : Op' → Type} {S : System W Op' Ans' Choice}
    {C : Contract W Op'} {f : (op : Op) → Prog Op' Ans' (Ans op)}
    (hf : ∀ op w, J w → Safe S C (fun _ w' => J w') (f op) w) :
    ∀ {p : Prog Op Ans α} {w : W}, J w → Safe S C (fun _ w' => J w') (p.expand f) w := by
  intro p
  induction p with
  | ret a =>
    intro w hw
    exact hw
  | ask op k ih =>
    intro w hw
    apply bind_iff.mpr
    apply mono _ (hf op w hw)
    intro a w' hw'
    exact ih a hw'

section

variable (hrely : ∀ w w', C.rely w w' → J w → J w')
    (hstep : ∀ op, P op → ∀ w, C.inv w → J w → C.ok w op ∧
      ∀ c a w', S.exec w op c = some (a, w') → C.inv w' ∧ C.guar w w' ∧ J w')

include hrely hstep

/-- What others keep, and what every operation that the program may issue keeps, the program
    keeps; what it returns is as it has to be. -/
theorem of_within :
    ∀ {p : Prog Op Ans α} {w : W}, p.Within P R → J w →
      Safe S C (fun a w' => R a ∧ J w') p w := by
  intro p
  induction p with
  | ret a =>
    intro w hp hw
    exact ⟨hp, hw⟩
  | ask op k ih =>
    intro w hp hw w1 hrely1 hinv
    obtain ⟨hok, hexec⟩ := hstep op hp.1 w1 hinv (hrely w w1 hrely1 hw)
    refine ⟨hok, fun c a w2 h => ?_⟩
    obtain ⟨hinv2, hguar, hw2⟩ := hexec c a w2 h
    exact ⟨hinv2, hguar, ih a (hp.2 a) hw2⟩

theorem of_only (hp : p.Only P) (hw : J w) : Safe S C (fun _ w' => J w') p w :=
  mono (fun _ _ h => h.2) (of_within hrely hstep hp.within hw)

end

/-- The same program under other terms, in a system that can do less: each of its operations has
    to keep the new terms where it kept the old ones. -/
theorem strengthen {S' : System W Op Ans Choice} {C' : Contract W Op}
    (hrely : ∀ w w', C'.rely w w' → C.rely w w') (hinv : ∀ w, C'.inv w → C.inv w)
    (hstep : ∀ w op, C'.inv w → C.ok w op → C'.ok w op ∧
      ∀ c a w', S'.exec w op c = some (a, w') → S.exec w op c = some (a, w') ∧
        (C.inv w' → C.guar w w' → C'.inv w' ∧ C'.guar w w')) :
    ∀ {p : Prog Op Ans α} {w : W}, Safe S C Q p w → Safe S' C' Q p w := by
  intro p
  induction p with
  | ret a => exact fun h => h
  | ask op k ih =>
    intro w h w1 hrely1 hinv1
    obtain ⟨hok, hold⟩ := h w1 (hrely w w1 hrely1) (hinv w1 hinv1)
    obtain ⟨hok', hnew⟩ := hstep w1 op hinv1 hok
    refine ⟨hok', fun c a w2 hexec => ?_⟩
    obtain ⟨hexec', hkeeps⟩ := hnew c a w2 hexec
    obtain ⟨hinv2, hguar, hrest⟩ := hold c a w2 hexec'
    obtain ⟨hinv2', hguar'⟩ := hkeeps hinv2 hguar
    exact ⟨hinv2', hguar', ih a hrest⟩

/-- Two things that are known where a program returns are known together. -/
theorem and {R : α → W → Prop} :
    ∀ {p : Prog Op Ans α} {w : W}, Safe S C Q p w → Safe S C R p w →
      Safe S C (fun a w' => Q a w' ∧ R a w') p w := by
  intro p
  induction p with
  | ret a =>
    intro w hQ hR
    exact ⟨hQ, hR⟩
  | ask op k ih =>
    intro w hQ hR w1 hrely hinv
    obtain ⟨hok, hstep⟩ := hQ w1 hrely hinv
    refine ⟨hok, fun c a w2 hexec => ?_⟩
    obtain ⟨hinv2, hguar, hQ2⟩ := hstep c a w2 hexec
    obtain ⟨-, -, hR2⟩ := (hR w1 hrely hinv).2 c a w2 hexec
    exact ⟨hinv2, hguar, ih a hQ2 hR2⟩

end Safe

end Serctl.Lib
