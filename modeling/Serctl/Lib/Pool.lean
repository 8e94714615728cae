import Mathlib.Logic.Function.Basic
import Serctl.Lib.Prog

/-!
# Runs of many programs

A pool runs any number of programs over one world: requests arrive and start programs,
programs take turns operation by operation, other parties change the world in between, and a
crash stops every program at once.  Every run is a list of moves, so a run can be computed.

`Sound` collects what has to be shown about a pool: each launched program is safe under its
contract, no program breaks what another relies on, and neither the other parties nor a crash
break the invariant.  `Sound.run_good` then gives the invariant in every state of every run.
-/

namespace Serctl.Lib

open Function Option

/-- Programs started by requests `Req` and running under the names `ι`. -/
structure Pool (ι Req W Op : Type) (Ans : Op → Type) (Choice α : Type) where
  sys : System W Op Ans Choice
  /-- The program that a request starts, if it can start in this world. -/
  launch : ι → Req → W → Option (Prog Op Ans α)

namespace Pool

variable {ι Req W Op : Type} {Ans : Op → Type} {Choice α : Type}

/-- The world and the programs that are running. -/
structure Config (ι W Op : Type) (Ans : Op → Type) (α : Type) where
  world : W
  threads : ι → Option (Prog Op Ans α)

/-- One move of a run. -/
inductive Move (ι Req Choice : Type) where
  | start (i : ι) (r : Req)
  | step (i : ι) (c : Choice)
  | finish (i : ι)
  | env (c : Choice)
  | crash (c : Choice)

/-- No program is running. -/
def idle (w : W) : Config ι W Op Ans α := ⟨w, fun _ => none⟩

/-- What has to be shown about a pool whose programs run under the contracts `C` and return
    under the postconditions `Q`. -/
structure Sound (P : Pool ι Req W Op Ans Choice α) (I : W → Prop) (C : ι → Contract W Op)
    (Q : ι → α → W → Prop) : Prop where
  inv_iff : ∀ i w, (C i).inv w ↔ I w
  stable : ∀ i a w w', (C i).rely w w' → Q i a w → Q i a w'
  apart : ∀ i j w w', i ≠ j → (C i).guar w w' → (C j).rely w w'
  env : ∀ w c w', P.sys.env w c = some w' → I w → I w' ∧ ∀ i, (C i).rely w w'
  crash : ∀ w c w', P.sys.crash w c = some w' → I w → I w'
  launch : ∀ i r w p, P.launch i r w = some p → I w → Safe P.sys (C i) (Q i) p w

/-- The invariant holds and every running program is safe. -/
def Good (P : Pool ι Req W Op Ans Choice α) (I : W → Prop) (C : ι → Contract W Op)
    (Q : ι → α → W → Prop) (cfg : Config ι W Op Ans α) : Prop :=
  I cfg.world ∧ ∀ i p, cfg.threads i = some p → Safe P.sys (C i) (Q i) p cfg.world

variable {P : Pool ι Req W Op Ans Choice α} {I : W → Prop} {C : ι → Contract W Op}
  {Q : ι → α → W → Prop}

/-- What a program has returned, if it has. -/
def Config.returned (cfg : Config ι W Op Ans α) (i : ι) : Option α :=
  match cfg.threads i with
  | some (.ret a) => some a
  | _ => none

variable {cfg : Config ι W Op Ans α} {i : ι} {a : α}

theorem Config.threads_of_returned
    (h : cfg.returned i = some a) : cfg.threads i = some (.ret a) := by
  unfold returned at h
  split at h
  · rename_i b hb
    rw [hb, Option.some.inj h]
  · cases h

variable {w : W}

theorem good_idle (hw : I w) : Good P I C Q (idle w) :=
  ⟨hw, fun _ _ h => by cases h⟩

variable {p : Prog Op Ans α}

/-- An operation is issued only where its contract permits it. -/
theorem Sound.ok_of_next (hs : P.Sound I C Q)
    (hg : Good P I C Q cfg) (hi : cfg.threads i = some p) {op : Op}
    (hop : p.next = some op) : (C i).ok cfg.world op := by
  cases p with
  | ret a => cases hop
  | ask op' k =>
    cases hop
    exact (hg.2 i _ hi _ ((C i).rely_refl _) ((hs.inv_iff i _).mpr hg.1)).1

/-- What a step of a safe program has kept. -/
theorem Sound.step_spec (hs : P.Sound I C Q) (hg : Good P I C Q cfg)
    {op : Op} {k : Ans op → Prog Op Ans α} (hi : cfg.threads i = some (.ask op k))
    {c : Choice} {a : Ans op} (h : P.sys.exec cfg.world op c = some (a, w)) :
    I w ∧ (C i).guar cfg.world w ∧ Safe P.sys (C i) (Q i) (k a) w := by
  -- the program's own safety, with no interference before the operation
  obtain ⟨-, hstep⟩ := hg.2 i _ hi _ ((C i).rely_refl _) ((hs.inv_iff i _).mpr hg.1)
  obtain ⟨hinv, hguar, hrest⟩ := hstep c a w h
  exact ⟨(hs.inv_iff i w).mp hinv, hguar, hrest⟩

/-- A program has returned only where its postcondition holds. -/
theorem Good.post_of_ret (hg : Good P I C Q cfg)
    (hi : cfg.threads i = some (.ret a)) : Q i a cfg.world :=
  hg.2 i _ hi

/-! ## Moves and runs -/

variable [DecidableEq ι]

/-- The configuration after a move, if the move is possible. -/
def move (P : Pool ι Req W Op Ans Choice α) (cfg : Config ι W Op Ans α) :
    Move ι Req Choice → Option (Config ι W Op Ans α)
  | .start i r =>
    match cfg.threads i with
    | some _ => none
    | none => (P.launch i r cfg.world).map fun p =>
        { cfg with threads := Function.update cfg.threads i (some p) }
  | .step i c =>
    match cfg.threads i with
    | some (.ask op k) => (P.sys.exec cfg.world op c).map fun (a, w) =>
        ⟨w, Function.update cfg.threads i (some (k a))⟩
    | _ => none
  | .finish i =>
    match cfg.threads i with
    | some (.ret _) => some { cfg with threads := Function.update cfg.threads i none }
    | _ => none
  | .env c => (P.sys.env cfg.world c).map fun w => { cfg with world := w }
  | .crash c => (P.sys.crash cfg.world c).map fun w => idle w

/-- The configuration after a list of moves. -/
def run (P : Pool ι Req W Op Ans Choice α) :
    Config ι W Op Ans α → List (Move ι Req Choice) → Option (Config ι W Op Ans α)
  | cfg, [] => some cfg
  | cfg, m :: ms => (P.move cfg m).bind fun cfg' => P.run cfg' ms

variable {ms : List (Move ι Req Choice)}

/-- Runs one after the other. -/
theorem run_append (P : Pool ι Req W Op Ans Choice α) {ms' : List (Move ι Req Choice)} :
    ∀ {cfg : Config ι W Op Ans α},
      P.run cfg (ms ++ ms') = (P.run cfg ms).bind fun cfg' => P.run cfg' ms' := by
  induction ms with
  | nil =>
    intro cfg
    rfl
  | cons m ms ih =>
    intro cfg
    simp only [List.cons_append, run, ih, Option.bind_assoc]

variable {w' : W}

/-- A step of a thread, and what is left of the thread. -/
theorem move_step (P : Pool ι Req W Op Ans Choice α) {op : Op} {k : Ans op → Prog Op Ans α}
    {c : Choice} {b : Ans op} (hi : cfg.threads i = some (.ask op k))
    (hexec : P.sys.exec cfg.world op c = some (b, w)) :
    let next : Config ι W Op Ans α := ⟨w, update cfg.threads i (some (k b))⟩
    P.move cfg (.step i c) = some next ∧ next.threads i = some (k b) :=
  ⟨by simp [move, hi, hexec], update_self i _ cfg.threads⟩

/-- A program that runs to its end without interference is a run of the pool. -/
theorem run_steadily (P : Pool ι Req W Op Ans Choice α) {c : Choice} :
    ∀ {p : Prog Op Ans α} {cfg : Config ι W Op Ans α}, cfg.threads i = some p →
      p.steadily P.sys c cfg.world = some (a, w') →
      ∃ ms cfg', P.run cfg ms = some cfg' ∧ cfg'.world = w' ∧ cfg'.threads i = some (.ret a) := by
  intro p
  induction p with
  | ret b =>
    intro cfg hi h
    simp only [Prog.steadily, Option.some.injEq, Prod.mk.injEq] at h
    obtain ⟨rfl, rfl⟩ := h
    exact ⟨[], cfg, rfl, rfl, hi⟩
  | ask op k ih =>
    intro cfg hi h
    simp only [Prog.steadily, bind_eq_some_iff] at h
    obtain ⟨⟨b, w⟩, hexec, hrest⟩ := h
    -- one step, and then the rest from where it leads
    obtain ⟨hmove, hthread⟩ := P.move_step hi hexec
    obtain ⟨ms, cfg', hrun, hworld, hret⟩ := ih b hthread hrest
    refine ⟨.step i c :: ms, cfg', ?_, hworld, hret⟩
    simp only [run, hmove]
    exact hrun

variable {cs : List Choice}

/-- A program that goes on along some choices without interference is a run of the pool. -/
theorem run_follow (P : Pool ι Req W Op Ans Choice α) :
    ∀ {p p' : Prog Op Ans α} {cfg : Config ι W Op Ans α} {w' : W}, cfg.threads i = some p →
      p.follow P.sys cs cfg.world = some (p', w') →
      P.run cfg (cs.map (.step i)) = some ⟨w', update cfg.threads i (some p')⟩ := by
  induction cs with
  | nil =>
    intro p p' cfg w' hi h
    cases h
    rw [← hi, update_eq_self]
    rfl
  | cons c cs ih =>
    intro p p' cfg w' hi h
    cases p with
    | ret a => cases h
    | ask op k =>
      obtain ⟨⟨b, w⟩, hexec, hrest⟩ := bind_eq_some_iff.mp h
      obtain ⟨hmove, hthread⟩ := P.move_step hi hexec
      have hrun := ih hthread hrest
      simp only [update_idem] at hrun
      simp only [List.map_cons, run, hmove]
      exact hrun

variable {threads : ι → Option (Prog Op Ans α)}

/-- A program starts, and goes on along some choices without interference. -/
theorem run_start (P : Pool ι Req W Op Ans Choice α) {r : Req} {p' : Prog Op Ans α}
    (hidle : threads i = none) (hlaunch : P.launch i r w = some p)
    (hfollow : p.follow P.sys cs w = some (p', w')) :
    P.run ⟨w, threads⟩ (.start i r :: cs.map (.step i)) =
      some ⟨w', update threads i (some p')⟩ := by
  have hstart : P.move ⟨w, threads⟩ (.start i r) = some ⟨w, update threads i (some p)⟩ := by
    simp [move, hidle, hlaunch]
  have hthread : (⟨w, update threads i (some p)⟩ : Config ι W Op Ans α).threads i =
      some p := update_self _ _ _
  have hrest := run_follow P hthread hfollow
  simp only [update_idem] at hrest
  simp only [run, hstart]
  exact hrest

/-- What a move can do. -/
inductive Moved (P : Pool ι Req W Op Ans Choice α) (cfg : Config ι W Op Ans α) :
    Config ι W Op Ans α → Prop where
  | start (i : ι) (r : Req) (p : Prog Op Ans α) (h : P.launch i r cfg.world = some p) :
      Moved P cfg { cfg with threads := Function.update cfg.threads i (some p) }
  | step (i : ι) (op : Op) (k : Ans op → Prog Op Ans α) (c : Choice) (a : Ans op) (w : W)
      (hi : cfg.threads i = some (.ask op k)) (h : P.sys.exec cfg.world op c = some (a, w)) :
      Moved P cfg ⟨w, Function.update cfg.threads i (some (k a))⟩
  | finish (i : ι) : Moved P cfg { cfg with threads := Function.update cfg.threads i none }
  | env (c : Choice) (w : W) (h : P.sys.env cfg.world c = some w) :
      Moved P cfg { cfg with world := w }
  | crash (c : Choice) (w : W) (h : P.sys.crash cfg.world c = some w) : Moved P cfg (idle w)

theorem moved_of_move {cfg' : Config ι W Op Ans α} {m : Move ι Req Choice}
    (hm : P.move cfg m = some cfg') : Moved P cfg cfg' := by
  cases m with
  | start i r =>
    simp only [move] at hm
    split at hm
    · cases hm
    · obtain ⟨p, hp, rfl⟩ := map_eq_some_iff.mp hm
      exact .start i r p hp
  | step i c =>
    simp only [move] at hm
    split at hm
    · rename_i op k hi
      obtain ⟨⟨a, w⟩, hexec, rfl⟩ := map_eq_some_iff.mp hm
      exact .step i op k c a w hi hexec
    · cases hm
  | finish i =>
    simp only [move] at hm
    split at hm
    · cases hm
      exact .finish i
    · cases hm
  | env c =>
    obtain ⟨w, hw, rfl⟩ := map_eq_some_iff.mp hm
    exact .env c w hw
  | crash c =>
    obtain ⟨w, hw, rfl⟩ := map_eq_some_iff.mp hm
    exact .crash c w hw

/-- Safety of all running programs after the program `i` was set to `p'` and the world moved
    within what the others rely on. -/
private theorem safe_update (hs : P.Sound I C Q)
    (hsafe : ∀ j p, threads j = some p → Safe P.sys (C j) (Q j) p w)
    {p' : Option (Prog Op Ans α)} (hrely : ∀ j, j ≠ i → (C j).rely w w')
    (hp' : ∀ p, p' = some p → Safe P.sys (C i) (Q i) p w') (j : ι) (p : Prog Op Ans α)
    (hj : update threads i p' j = some p) : Safe P.sys (C j) (Q j) p w' := by
  by_cases hji : j = i
  · subst hji
    rw [update_self] at hj
    exact hp' p hj
  · rw [update_of_ne hji] at hj
    exact (hsafe j p hj).of_rely (hs.stable j) (hrely j hji)

namespace Sound

/-- One move keeps the invariant and the safety of every running program. -/
theorem moved_good (hs : P.Sound I C Q) {cfg' : Config ι W Op Ans α}
    (hm : Moved P cfg cfg') (hg : Good P I C Q cfg) : Good P I C Q cfg' := by
  cases hm with
  | start i r p hp =>
    refine ⟨hg.1, safe_update hs hg.2 (fun j _ => (C j).rely_refl _) ?_⟩
    rintro _ ⟨rfl⟩
    exact hs.launch i r _ p hp hg.1
  | step i op k c a w hi hexec =>
    obtain ⟨hinv, hguar, hrest⟩ := hs.step_spec hg hi hexec
    refine ⟨hinv, safe_update hs hg.2 ?_ ?_⟩
    · exact fun j hji => hs.apart i j _ _ (Ne.symm hji) hguar
    · rintro _ ⟨rfl⟩
      exact hrest
  | finish i =>
    exact ⟨hg.1, safe_update hs hg.2 (fun j _ => (C j).rely_refl _) (fun _ h => by cases h)⟩
  | env c w hw =>
    obtain ⟨hinv, hrely⟩ := hs.env _ c w hw hg.1
    exact ⟨hinv, fun i p hi => (hg.2 i p hi).of_rely (hs.stable i) (hrely i)⟩
  | crash c w hw => exact good_idle (hs.crash _ c w hw hg.1)

/-- **Every state of every run** satisfies the invariant, and every running program is safe
    there. -/
theorem run_good (hs : P.Sound I C Q) :
    ∀ {cfg cfg' : Config ι W Op Ans α}, P.run cfg ms = some cfg' → Good P I C Q cfg →
      Good P I C Q cfg' := by
  induction ms with
  | nil =>
    intro cfg cfg' h hg
    cases h
    exact hg
  | cons m ms ih =>
    intro cfg cfg' h hg
    obtain ⟨mid, hmid, hrest⟩ := bind_eq_some_iff.mp h
    exact ih hrest (hs.moved_good (moved_of_move hmid) hg)

/-- A reflexive and transitive relation that operations, other parties and crashes keep
    relates the worlds at both ends of every run. -/
theorem run_rel (hs : P.Sound I C Q) {T : W → W → Prop} (hrefl : ∀ w, T w w)
    (htrans : ∀ {w1 w2 w3}, T w1 w2 → T w2 w3 → T w1 w3)
    (hguar : ∀ i w w', (C i).guar w w' → T w w')
    (henv : ∀ w c w', P.sys.env w c = some w' → I w → T w w')
    (hcrash : ∀ w c w', P.sys.crash w c = some w' → I w → T w w') :
    ∀ {cfg cfg' : Config ι W Op Ans α}, P.run cfg ms = some cfg' → Good P I C Q cfg →
      T cfg.world cfg'.world := by
  induction ms with
  | nil =>
    intro cfg cfg' h _
    cases h
    exact hrefl _
  | cons m ms ih =>
    intro cfg cfg' h hg
    obtain ⟨mid, hmid, hrest⟩ := bind_eq_some_iff.mp h
    have hmoved := moved_of_move hmid
    refine htrans ?_ (ih hrest (hs.moved_good hmoved hg))
    cases hmoved with
    | start i r p hp => exact hrefl _
    | step i op k c a w hi hexec => exact hguar i _ _ (hs.step_spec hg hi hexec).2.1
    | finish i => exact hrefl _
    | env c w hw => exact henv _ c w hw hg.1
    | crash c w hw => exact hcrash _ c w hw hg.1

end Sound

/-! ## One program -/

/-- One program among the other parties of a system; nothing else is ever started. -/
def solo (S : System W Op Ans Choice) : Pool Unit Empty W Op Ans Choice α where
  sys := S
  launch _ r _ := nomatch r

/-- One program, about to start. -/
def running (p : Prog Op Ans α) (w : W) : Config Unit W Op Ans α := ⟨w, fun _ => some p⟩

section Solo

variable {S : System W Op Ans Choice} {D : Contract W Op} {R : α → W → Prop}

theorem solo_sound (hstable : ∀ a w w', D.rely w w' → R a w → R a w')
    (henv : ∀ w c w', S.env w c = some w' → D.inv w → D.inv w' ∧ D.rely w w')
    (hcrash : ∀ w c w', S.crash w c = some w' → D.inv w → D.inv w') :
    (solo S).Sound D.inv (fun _ => D) (fun _ => R) where
  inv_iff _ _ := Iff.rfl
  stable _ := hstable
  apart _ _ _ _ hne _ := absurd rfl hne
  env w c w' h hw := ⟨(henv w c w' h hw).1, fun _ => (henv w c w' h hw).2⟩
  crash := hcrash
  launch _ r := nomatch r

/-- **A safe program stays safe** along every run, whatever the other parties do. -/
theorem solo_good (hsound : (solo S).Sound D.inv (fun _ => D) (fun _ => R))
    (hw : D.inv w) (hp : Safe S D R p w) {ms : List (Move Unit Empty Choice)}
    {cfg : Config Unit W Op Ans α} (hrun : (solo S).run (running p w) ms = some cfg) :
    Good (solo S) D.inv (fun _ => D) (fun _ => R) cfg := by
  refine hsound.run_good hrun ⟨hw, fun _ q hq => ?_⟩
  cases hq
  exact hp

end Solo

end Pool

end Serctl.Lib
