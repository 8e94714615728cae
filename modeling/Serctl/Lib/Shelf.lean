import Serctl.Lib.Table

/-!
# Shelves

A shelf is a table of entries that belong to owners and are finished at some time.  Entries that
have not finished stay.  Finished ones are kept for a while, and at most a number of them for each
owner and for all owners; where there are too many, the one that was finished first has to go.
-/

namespace Serctl.Lib

open List Lib.Table

/-- Whose an entry is, and when and as which one it was finished. -/
class Shelved (ν : Type) (ω : outParam Type) where
  owner : ν → ω
  finishedAt : ν → Option Nat
  finishedOrder : ν → Option Nat

namespace Shelf

open Shelved

variable {κ ν ω : Type} [DecidableEq κ] [DecidableEq ω] [LT κ] [DecidableLT κ] [Shelved ν ω]

/-- Not finished. -/
def isActive (v : ν) : Bool := (finishedAt v).isNone

/-- Finished at some time. -/
def isFinished (v : ν) : Bool := (finishedAt v).isSome

/-- Is it an entry of the owner, where one is given? -/
def isOf (owner : Option ω) (v : ν) : Bool := owner.all fun o => Shelved.owner v = o

/-- Drop what was finished too long ago. -/
def prune (retention : Nat) (t : Table κ ν) (now : Nat) : Table κ ν :=
  t.keep fun _ v => (finishedAt v).all fun finished => now - finished < retention

/-- The place of an entry among the finished ones. -/
def place (v : ν) : Nat := (finishedOrder v).elim 0 (· + 1)

/-- Was the first one finished before the second? -/
def finishedBefore (left right : κ × ν) : Bool :=
  place left.2 < place right.2 || (place left.2 == place right.2 && left.1 < right.1)

/-- The one that was finished first. -/
def oldest : List (κ × ν) → Option (κ × ν)
  | [] => none
  | entry :: entries => match oldest entries with
    | none => some entry
    | some other => if finishedBefore other entry then some other else some entry

/-- Drop the entry that was finished first, if there is one. -/
def removeOldest (t : Table κ ν) (owner : Option ω) : Bool × Table κ ν :=
  match oldest (t.entries.filter fun entry => isFinished entry.2 && isOf owner entry.2) with
  | some (k, _) => (true, t.erase k)
  | none => (false, t)

/-- Drop the oldest until there are not too many; `rounds` bounds the loop. -/
def enforceCap (cap : Nat) (owner : Option ω) : Nat → Table κ ν → Table κ ν
  | 0, t => t
  | rounds + 1, t =>
    if cap < t.countP fun v => isOf owner v && isFinished v then
      match removeOldest t owner with
      | (true, t) => enforceCap cap owner rounds t
      | (false, t) => t
    else t

/-- The two loops, over the entries of one owner and over all of them. -/
def enforceCaps (capPerOwner capOverall : Nat) (t : Table κ ν) (owner : ω) : Table κ ν :=
  let t := enforceCap capPerOwner (some owner) t.entries.length t
  enforceCap capOverall none t.entries.length t

/-! ## What dropping can do -/

variable {k : κ} {v v' : ν} {now capPerOwner capOverall : Nat}

section Thinned

omit [DecidableEq ω] [LT κ] [DecidableLT κ]

/-- The second table is the first one without some finished entries. -/
def Thinned (before after : Table κ ν) : Prop :=
  ∀ k, after.find k = before.find k ∨
    (after.find k = none ∧ ∃ v, before.find k = some v ∧ finishedAt v ≠ none)

theorem Thinned.refl (t : Table κ ν) : Thinned t t := fun _ => .inl rfl

theorem Thinned.trans {a b c : Table κ ν} (hab : Thinned a b) (hbc : Thinned b c) :
    Thinned a c := by
  intro k
  rcases hbc k with hc | ⟨hc, v, hb, hfinished⟩
  · rw [hc]
    exact hab k
  · rcases hab k with hb' | ⟨hb', -⟩
    · exact .inr ⟨hc, v, hb' ▸ hb, hfinished⟩
    · rw [hb'] at hb
      cases hb

/-- What is left was there before. -/
theorem Thinned.find_of_find {before after : Table κ ν} (h : Thinned before after)
    (hafter : after.find k = some v) : before.find k = some v := by
  rcases h k with hsame | ⟨hnone, -⟩
  · rw [← hsame, hafter]
  · rw [hnone] at hafter
    cases hafter

/-- What was there before is left, or it was finished. -/
theorem Thinned.find_or {before after : Table κ ν} (h : Thinned before after)
    (hbefore : before.find k = some v) :
    after.find k = some v ∨ after.find k = none ∧ finishedAt v ≠ none := by
  rcases h k with hsame | ⟨hnone, v', hv', hfinished⟩
  · exact .inl (hsame.trans hbefore)
  · rw [hbefore] at hv'
    cases hv'
    exact .inr ⟨hnone, hfinished⟩

theorem Thinned.find_none {before after : Table κ ν} (h : Thinned before after)
    (hbefore : before.find k = none) : after.find k = none :=
  (h k).elim (fun hsame => hsame.trans hbefore) And.left

theorem Thinned.countP_le {before after : Table κ ν} (h : Thinned before after) (p : ν → Bool) :
    after.countP p ≤ before.countP p :=
  countP_le_of_imp fun _ v hfind hp => ⟨v, h.find_of_find hfind, hp⟩

theorem thinned_keep {t : Table κ ν} {p : κ → ν → Bool}
    (h : ∀ k v, t.find k = some v → finishedAt v = none → p k v = true) :
    Thinned t (t.keep p) := by
  intro k
  rw [find_keep]
  cases hfind : t.find k with
  | none => exact .inl rfl
  | some v =>
    by_cases hp : p k v = true
    · simp [hp]
    · refine .inr ⟨by simp [hp], v, rfl, ?_⟩
      exact fun hactive => hp (h k v hfind hactive)

theorem thinned_prune (retention : Nat) (t : Table κ ν) (now : Nat) :
    Thinned t (prune retention t now) := by
  apply thinned_keep
  intro k v _ hactive
  simp [hactive]

/-- What is dropped for its age is old enough. -/
theorem old_of_prune {retention : Nat} {t : Table κ ν}
    (hfind : t.find k = some v) (hgone : (prune retention t now).find k = none) :
    ∃ finished, finishedAt v = some finished ∧ retention ≤ now - finished := by
  rw [prune, find_keep, hfind] at hgone
  cases hv : finishedAt v with
  | none => simp [hv] at hgone
  | some finished =>
    refine ⟨finished, rfl, ?_⟩
    simpa [hv] using hgone

end Thinned

section Dropping

variable {t : Table κ ν} {owner : Option ω} {entries : List (κ × ν)}

omit [DecidableEq κ] [DecidableEq ω] in
theorem mem_of_oldest {entry : κ × ν} (h : oldest entries = some entry) :
    entry ∈ entries := by
  induction entries generalizing entry with
  | nil => cases h
  | cons first entries ih =>
    unfold oldest at h
    split at h
    · cases h
      exact mem_cons_self
    · rename_i other hother
      split at h
      · cases h
        exact mem_cons_of_mem _ (ih hother)
      · cases h
        exact mem_cons_self

omit [DecidableEq κ] [DecidableEq ω] in
theorem eq_nil_of_oldest (h : oldest entries = none) : entries = [] := by
  cases entries with
  | nil => rfl
  | cons first entries =>
    unfold oldest at h
    split at h
    · cases h
    · split at h <;> cases h

omit [DecidableEq κ] [DecidableEq ω] in
/-- No entry was finished before the oldest one. -/
theorem place_oldest_le {entry : κ × ν}
    (h : oldest entries = some entry) : ∀ e ∈ entries, place entry.2 ≤ place e.2 := by
  induction entries generalizing entry with
  | nil => cases h
  | cons first entries ih =>
    unfold oldest at h
    split at h
    · rename_i hnone
      cases h
      simp [eq_nil_of_oldest hnone]
    · rename_i other hother
      have hbelow := ih hother
      split at h
      · rename_i hbefore
        cases h
        have hle : place entry.2 ≤ place first.2 := by
          simp only [finishedBefore, Bool.or_eq_true, decide_eq_true_eq, Bool.and_eq_true,
            beq_iff_eq] at hbefore
          omega
        simpa using ⟨hle, fun k v hmem => hbelow (k, v) hmem⟩
      · rename_i hbefore
        cases h
        have hle : place first.2 ≤ place other.2 := by
          simp only [finishedBefore, Bool.or_eq_true, decide_eq_true_eq, not_or] at hbefore
          omega
        intro e hmem
        rcases mem_cons.mp hmem with rfl | hrest
        · exact Nat.le_refl _
        · exact Nat.le_trans hle (hbelow e hrest)

/-- Removing the oldest takes away a finished entry of the owner that no other one was finished
    before, or there is none. -/
theorem removeOldest_cases (t : Table κ ν) (owner : Option ω) :
    (∃ k v, t.find k = some v ∧ isFinished v = true ∧ isOf owner v = true ∧
      (∀ k' v', t.find k' = some v' → isFinished v' = true → isOf owner v' = true →
        place v ≤ place v') ∧
      removeOldest t owner = (true, t.erase k)) ∨
    (∀ k v, t.find k = some v → ¬ (isOf owner v && isFinished v) = true) ∧
      removeOldest t owner = (false, t) := by
  unfold removeOldest
  split
  · rename_i k v holdest
    have hmem := mem_of_oldest holdest
    simp only [mem_filter, Bool.and_eq_true, mem_entries] at hmem
    obtain ⟨hfind, hfinished, hof⟩ := hmem
    refine .inl ⟨k, v, hfind, hfinished, hof, ?_, rfl⟩
    intro k' v' hfind' hfinished' hof'
    refine place_oldest_le holdest (k', v') ?_
    simp only [mem_filter, Bool.and_eq_true, mem_entries]
    exact ⟨hfind', hfinished', hof'⟩
  · rename_i hnone
    refine .inr ⟨?_, rfl⟩
    intro k v hfind hmatch
    rw [Bool.and_eq_true] at hmatch
    have hmem : (k, v) ∈ t.entries.filter fun entry =>
        isFinished entry.2 && isOf owner entry.2 := by
      simp only [mem_filter, Bool.and_eq_true, mem_entries]
      exact ⟨hfind, hmatch.2, hmatch.1⟩
    rw [eq_nil_of_oldest hnone] at hmem
    cases hmem

omit [DecidableEq ω] [LT κ] [DecidableLT κ] in
theorem thinned_erase (hfind : t.find k = some v)
    (hfinished : isFinished v = true) : Thinned t (t.erase k) := by
  apply thinned_keep
  intro k' v' hfind' hactive
  simp only [decide_eq_true_eq, ne_eq]
  rintro rfl
  rw [hfind] at hfind'
  cases hfind'
  simp [isFinished, hactive] at hfinished

/-- One round of the loop: it is over, or the oldest entry is dropped. -/
theorem enforceCap_succ_cases (cap : Nat) (owner : Option ω) (rounds : Nat) (t : Table κ ν) :
    ((t.countP fun v => isOf owner v && isFinished v) ≤ cap ∧
      enforceCap cap owner (rounds + 1) t = t) ∨
    ∃ k v, cap < (t.countP fun v => isOf owner v && isFinished v) ∧ t.find k = some v ∧
      isFinished v = true ∧ isOf owner v = true ∧
      (∀ k' v', t.find k' = some v' → isFinished v' = true → isOf owner v' = true →
        place v ≤ place v') ∧
      enforceCap cap owner (rounds + 1) t = enforceCap cap owner rounds (t.erase k) := by
  rw [enforceCap]
  split
  · rename_i hover
    right
    rcases removeOldest_cases t owner with ⟨k, v, hfind, hfinished, hof, hfirst, heq⟩ | ⟨hnone, -⟩
    · exact ⟨k, v, hover, hfind, hfinished, hof, hfirst, by rw [heq]⟩
    · -- there are some, so the oldest was found
      have hempty : (t.countP fun v => isOf owner v && isFinished v) ≤
          (empty : Table κ ν).countP fun v => isOf owner v && isFinished v :=
        countP_le_of_imp fun k v hfind hp => absurd hp (hnone k v hfind)
      have hzero : ((empty : Table κ ν).countP fun v => isOf owner v && isFinished v) = 0 :=
        rfl
      omega
  · rename_i hover
    exact .inl ⟨Nat.le_of_not_lt hover, rfl⟩

theorem thinned_enforceCap (cap : Nat) (owner : Option ω) (rounds : Nat) (t : Table κ ν) :
    Thinned t (enforceCap cap owner rounds t) := by
  induction rounds generalizing t with
  | zero => exact Thinned.refl t
  | succ rounds ih =>
    rcases enforceCap_succ_cases cap owner rounds t with
      ⟨-, heq⟩ | ⟨k, v, -, hfind, hfinished, -, -, heq⟩
    · rw [heq]
      exact Thinned.refl t
    · rw [heq]
      exact (thinned_erase hfind hfinished).trans (ih _)

theorem thinned_enforceCaps (capPerOwner capOverall : Nat) (t : Table κ ν) (owner : ω) :
    Thinned t (enforceCaps capPerOwner capOverall t owner) :=
  (thinned_enforceCap _ _ _ t).trans (thinned_enforceCap _ _ _ _)

/-- Enough rounds leave no more finished entries than allowed. -/
theorem countP_enforceCap_le {cap rounds : Nat} {t : Table κ ν}
    (h : (t.countP fun v => isOf owner v && isFinished v) ≤ cap + rounds) :
    ((enforceCap cap owner rounds t).countP fun v => isOf owner v && isFinished v) ≤ cap := by
  induction rounds generalizing t with
  | zero => exact h
  | succ rounds ih =>
    rcases enforceCap_succ_cases cap owner rounds t with
      ⟨hle, heq⟩ | ⟨k, v, -, hfind, hfinished, hof, -, heq⟩
    · rw [heq]
      exact hle
    · rw [heq]
      have hless := countP_erase_lt (p := fun v => isOf owner v && isFinished v) hfind
        (by simp [hof, hfinished])
      exact ih (by omega)

omit [DecidableEq κ] [DecidableEq ω] [LT κ] [DecidableLT κ] [Shelved ν ω] in
theorem countP_le_length (t : Table κ ν) (p : ν → Bool) : t.countP p ≤ t.entries.length := by
  refine Nat.le_trans List.countP_le_length (Nat.le_of_eq ?_)
  simp [values]

/-- How many finished entries the two loops leave. -/
theorem countP_enforceCaps_le (capPerOwner capOverall : Nat) (t : Table κ ν) (owner : ω) :
    ((enforceCaps capPerOwner capOverall t owner).countP fun v =>
        isOf (some owner) v && isFinished v) ≤ capPerOwner ∧
      ((enforceCaps capPerOwner capOverall t owner).countP fun v =>
        isOf none v && isFinished v) ≤ capOverall := by
  constructor
  · refine Nat.le_trans ((thinned_enforceCap _ _ _ _).countP_le _) ?_
    exact countP_enforceCap_le (Nat.le_trans (countP_le_length t _) (Nat.le_add_left _ _))
  · exact countP_enforceCap_le (Nat.le_trans (countP_le_length _ _) (Nat.le_add_left _ _))

end Dropping

/-! ## Finished one after the other -/

/-- The first entry was finished before the second. -/
def Before (v v' : ν) : Prop :=
  ∃ n n' a a', finishedOrder v = some n ∧ finishedOrder v' = some n' ∧ finishedAt v = some a ∧
    finishedAt v' = some a' ∧ n < n' ∧ a ≤ a'

section Dated

omit [DecidableEq ω] [LT κ] [DecidableLT κ]

/-- The finished entries have been finished one after the other, under numbers up to `next` and at
    times up to `clock`. -/
structure Dated (t : Table κ ν) (next clock : Nat) : Prop where
  stamped : ∀ k v, t.find k = some v → finishedAt v = none ∨ ∃ a n, finishedAt v = some a ∧
    finishedOrder v = some n ∧ n < next ∧ a ≤ clock
  ordered : ∀ k k' v v', k ≠ k' → t.find k = some v → t.find k' = some v' →
    finishedAt v ≠ none → finishedAt v' ≠ none → Before v v' ∨ Before v' v

omit [DecidableEq κ] in
theorem Before.place_lt (h : Before v v') : place v < place v' := by
  obtain ⟨n, n', -, -, hn, hn', -, -, hlt, -⟩ := h
  simpa [place, hn, hn'] using hlt

theorem dated_empty (next clock : Nat) : Dated (empty : Table κ ν) next clock :=
  ⟨fun _ _ h => by simp at h, fun _ _ _ _ _ h => by simp at h⟩

variable {t t' : Table κ ν} {next clock now : Nat} (h : Dated t next clock)

include h

theorem Dated.later {next' clock' : Nat} (hnext : next ≤ next') (hclock : clock ≤ clock') :
    Dated t next' clock' := by
  refine ⟨fun k v hfind => ?_, h.ordered⟩
  rcases h.stamped k v hfind with hactive | ⟨a, n, ha, hn, hlt, hle⟩
  · exact .inl hactive
  · exact .inr ⟨a, n, ha, hn, by omega, by omega⟩

/-- A table of entries with the stamps of another table's entries. -/
theorem Dated.of_stamps
    (hsame : ∀ k v', t'.find k = some v' → finishedAt v' = none ∨ ∃ v, t.find k = some v ∧
      finishedAt v' = finishedAt v ∧ finishedOrder v' = finishedOrder v) :
    Dated t' next clock := by
  constructor
  · intro k v' hfind'
    rcases hsame k v' hfind' with hactive | ⟨v, hfind, hat, horder⟩
    · exact .inl hactive
    · rw [hat, horder]
      exact h.stamped k v hfind
  · intro k k' v v' hne hfind hfind' hfinished hfinished'
    rcases hsame k v hfind with hactive | ⟨w, hw, hat, horder⟩
    · exact absurd hactive hfinished
    · rcases hsame k' v' hfind' with hactive' | ⟨w', hw', hat', horder'⟩
      · exact absurd hactive' hfinished'
      · rw [hat] at hfinished
        rw [hat'] at hfinished'
        simp only [Before, hat, horder, hat', horder']
        exact h.ordered k k' w w' hne hw hw' hfinished hfinished'

theorem Dated.thinned (hthinned : Thinned t t') : Dated t' next clock :=
  h.of_stamps fun _ v hfind => .inr ⟨v, hthinned.find_of_find hfind, rfl, rfl⟩

/-- What is finished now was finished after everything else. -/
theorem Dated.before_new (hclock : clock ≤ now) (hat : finishedAt v = some now)
    (horder : finishedOrder v = some next) {k' : κ} {v' : ν} (hfind : t.find k' = some v')
    (hfinished : finishedAt v' ≠ none) : Before v' v := by
  rcases h.stamped k' v' hfind with hactive | ⟨a, n, ha, hn, hlt, hle⟩
  · exact absurd hactive hfinished
  · exact ⟨n, next, a, now, hn, horder, ha, hat, hlt, Nat.le_trans hle hclock⟩

/-- **One more entry is finished.** -/
theorem Dated.insert_finished (hclock : clock ≤ now) (k : κ) (hat : finishedAt v = some now)
    (horder : finishedOrder v = some next) : Dated (t.insert k v) (next + 1) now := by
  have hlater := h.later (Nat.le_succ next) hclock
  constructor
  · exact forall_insert hlater.stamped
      (.inr ⟨now, next, hat, horder, Nat.lt_succ_self _, Nat.le_refl _⟩)
  · intro k1 k2 v1 v2 hne hfind1 hfind2 hfinished1 hfinished2
    rw [find_insert] at hfind1 hfind2
    -- the new entry comes after every other one
    split at hfind1
    · split at hfind2
      · rename_i h1 h2
        exact absurd (h1.trans h2.symm) hne
      · cases hfind1
        exact .inr (h.before_new hclock hat horder hfind2 hfinished2)
    · split at hfind2
      · cases hfind2
        exact .inl (h.before_new hclock hat horder hfind1 hfinished1)
      · exact h.ordered k1 k2 v1 v2 hne hfind1 hfind2 hfinished1 hfinished2

/-- Of two entries the one with the lower place was finished before. -/
theorem Dated.before_of_place {k k' : κ} (hne : k ≠ k') (hfind : t.find k = some v)
    (hfind' : t.find k' = some v')
    (hfinished : isFinished v = true) (hfinished' : isFinished v' = true)
    (hplace : place v ≤ place v') : Before v v' := by
  have hone (w : ν) (hw : isFinished w = true) : finishedAt w ≠ none := by
    intro hnone
    simp [isFinished, hnone] at hw
  rcases h.ordered k k' v v' hne hfind hfind' (hone v hfinished) (hone v' hfinished') with hb | hb
  · exact hb
  · exact absurd hb.place_lt (by omega)

end Dated

section Evicted

variable {t : Table κ ν} {owner : Option ω} {next clock cap : Nat}

/-- An entry that has to go: there are too many, and it was finished before every other one. -/
structure Due (cap : Nat) (owner : Option ω) (t : Table κ ν) (k : κ) (v : ν) : Prop where
  find : t.find k = some v
  finished : isFinished v = true
  of : isOf owner v = true
  crowded : cap < t.countP fun v => isOf owner v && isFinished v
  first : ∀ k' v', k' ≠ k → t.find k' = some v' → isFinished v' = true → isOf owner v' = true →
    Before v v'

/-- **What is dropped had to go**, at some time between the beginning and the end of the loop. -/
theorem due_of_evicted (h : Dated t next clock) {rounds : Nat}
    (hfind : t.find k = some v) (hgone : (enforceCap cap owner rounds t).find k = none) :
    ∃ present, Thinned t present ∧ Thinned present (enforceCap cap owner rounds t) ∧
      Due cap owner present k v := by
  induction rounds generalizing t with
  | zero =>
    rw [enforceCap, hfind] at hgone
    cases hgone
  | succ rounds ih =>
    have hwhole := thinned_enforceCap cap owner (rounds + 1) t
    rcases enforceCap_succ_cases cap owner rounds t with
      ⟨-, heq⟩ | ⟨k1, v1, hover, hfind1, hfinished1, hof1, hfirst, heq⟩
    · rw [heq, hfind] at hgone
      cases hgone
    · by_cases hk : k = k1
      · -- it is the one that is dropped in this round
        subst hk
        rw [hfind1] at hfind
        cases hfind
        refine ⟨t, Thinned.refl t, hwhole, hfind1, hfinished1, hof1, hover, ?_⟩
        intro k' v' hne hfind' hfinished' hof'
        exact h.before_of_place hne.symm hfind1 hfind' hfinished1 hfinished'
          (hfirst k' v' hfind' hfinished' hof')
      · -- it is dropped in a later one
        have hthinned : Thinned t (t.erase k1) := thinned_erase hfind1 hfinished1
        rw [heq] at hgone ⊢
        obtain ⟨present, hbefore, hafter, hdue⟩ :=
          ih (h.thinned hthinned) (by simp [hk, hfind]) hgone
        exact ⟨present, hthinned.trans hbefore, hafter, hdue⟩

/-- What the two loops drop had to go, for its owner's share or for all of them. -/
theorem due_of_enforceCaps (h : Dated t next clock) {owner : ω} (hfind : t.find k = some v)
    (hgone : (enforceCaps capPerOwner capOverall t owner).find k = none) :
    ∃ present, Thinned t present ∧
      Thinned present (enforceCaps capPerOwner capOverall t owner) ∧
      (Due capPerOwner (some owner) present k v ∨ Due capOverall none present k v) := by
  have hfirst := thinned_enforceCap capPerOwner (some owner) t.entries.length t
  have hsecond := thinned_enforceCap capOverall (none : Option ω)
    (enforceCap capPerOwner (some owner) t.entries.length t).entries.length
    (enforceCap capPerOwner (some owner) t.entries.length t)
  rcases hfirst k with hkept | ⟨hdropped, -⟩
  · rw [hfind] at hkept
    obtain ⟨present, hbefore, hafter, hdue⟩ := due_of_evicted (h.thinned hfirst) hkept hgone
    exact ⟨present, hfirst.trans hbefore, hafter, .inr hdue⟩
  · obtain ⟨present, hbefore, hafter, hdue⟩ := due_of_evicted h hfind hdropped
    exact ⟨present, hbefore, hafter.trans hsecond, .inl hdue⟩

/-- **What was finished last is left**, as long as one may be left. -/
theorem find_enforceCap_newest {rounds : Nat} (hcap : 0 < cap)
    (hfind : t.find k = some v) (hlast : ∀ k' v', k' ≠ k → t.find k' = some v' →
      isFinished v' = true → place v' < place v) :
    (enforceCap cap owner rounds t).find k = some v := by
  induction rounds generalizing t with
  | zero => exact hfind
  | succ rounds ih =>
    rcases enforceCap_succ_cases cap owner rounds t with
      ⟨-, heq⟩ | ⟨k1, v1, hover, hfind1, hfinished1, -, hfirst, heq⟩
    · rw [heq]
      exact hfind
    · rw [heq]
      -- among two entries or more the last one is not the first
      have hne : k ≠ k1 := by
        rintro rfl
        rw [hfind1] at hfind
        cases hfind
        obtain ⟨k', v', hne, hfind', hmatch⟩ :=
          exists_other (Nat.lt_of_le_of_lt hcap hover) k
        rw [Bool.and_eq_true] at hmatch
        have hbefore := hlast k' v' hne hfind' hmatch.2
        have hle := hfirst k' v' hfind' hmatch.2 hmatch.1
        omega
      have hthinned : Thinned t (t.erase k1) := thinned_erase hfind1 hfinished1
      refine ih (by simp [hne, hfind]) ?_
      exact fun k' v' hk' hfind' => hlast k' v' hk' (hthinned.find_of_find hfind')

/-- What was finished last is left by both loops. -/
theorem find_enforceCaps_newest {owner : ω}
    (hcap : 0 < capPerOwner) (hcap' : 0 < capOverall) (hfind : t.find k = some v)
    (hlast : ∀ k' v', k' ≠ k → t.find k' = some v' → isFinished v' = true →
      place v' < place v) :
    (enforceCaps capPerOwner capOverall t owner).find k = some v := by
  have hfirst := thinned_enforceCap capPerOwner (some owner) t.entries.length t
  apply find_enforceCap_newest hcap'
  · exact find_enforceCap_newest hcap hfind hlast
  · exact fun k' v' hk' hfind' => hlast k' v' hk' (hfirst.find_of_find hfind')

end Evicted

/-! ## Within the limits -/

/-- How many entries there may be. -/
structure Limits where
  activeOverall : Nat
  activePerOwner : Nat
  finishedOverall : Nat
  finishedPerOwner : Nat

/-- Active, and the owner's. -/
def isActiveOf (owner : Option ω) (v : ν) : Bool := isOf owner v && isActive v

/-- Finished, and the owner's. -/
def isFinishedOf (owner : Option ω) (v : ν) : Bool := isOf owner v && isFinished v

/-- **A shelf within its limits.** -/
structure Within (limits : Limits) (t : Table κ ν) : Prop where
  active : t.countP (isActiveOf none) ≤ limits.activeOverall
  activeOf : ∀ o, t.countP (isActiveOf (some o)) ≤ limits.activePerOwner
  finished : t.countP (isFinishedOf none) ≤ limits.finishedOverall
  finishedOf : ∀ o, t.countP (isFinishedOf (some o)) ≤ limits.finishedPerOwner

section Within

variable {limits : Limits} {t t' : Table κ ν}

omit [LT κ] [DecidableLT κ]

omit [DecidableEq κ] in
theorem isActiveOf_none : (isActiveOf none : ν → Bool) = isActive := by
  funext v
  simp [isActiveOf, isOf]

/-- The limits, in terms of the entries. -/
theorem Within.counts (h : Within limits t) :
    t.countP (fun v => finishedAt v = none) ≤ limits.activeOverall ∧
    (∀ o, t.countP (fun v => owner v = o ∧ finishedAt v = none) ≤ limits.activePerOwner) ∧
    t.countP (fun v => finishedAt v ≠ none) ≤ limits.finishedOverall ∧
    ∀ o, t.countP (fun v => owner v = o ∧ finishedAt v ≠ none) ≤ limits.finishedPerOwner := by
  refine ⟨countP_le_trans h.active ?_, fun o => countP_le_trans (h.activeOf o) ?_,
    countP_le_trans h.finished ?_, fun o => countP_le_trans (h.finishedOf o) ?_⟩ <;>
  · intro v hv
    simpa [isActiveOf, isFinishedOf, isOf, isActive, isFinished, Option.isSome_iff_ne_none] using hv

omit [DecidableEq κ] in
theorem within_empty (limits : Limits) : Within limits (empty : Table κ ν) where
  active := Nat.zero_le _
  activeOf := fun _ => Nat.zero_le _
  finished := Nat.zero_le _
  finishedOf := fun _ => Nat.zero_le _

/-- An entry that is as good as another one for the limits. -/
structure Alike (v v' : ν) : Prop where
  owner : Shelved.owner v' = Shelved.owner v
  finishedAt : Shelved.finishedAt v' = Shelved.finishedAt v
  finishedOrder : Shelved.finishedOrder v' = Shelved.finishedOrder v

omit [DecidableEq ω] in
theorem Alike.refl (v : ν) : Alike v v := ⟨rfl, rfl, rfl⟩

theorem isActiveOf_of_alike {owner : Option ω} (h : Alike v v') :
    isActiveOf owner v' = isActiveOf owner v := by
  simp only [isActiveOf, isOf, isActive, h.owner, h.finishedAt]

theorem isFinishedOf_of_alike {owner : Option ω} (h : Alike v v') :
    isFinishedOf owner v' = isFinishedOf owner v := by
  simp only [isFinishedOf, isOf, isFinished, h.owner, h.finishedAt]

/-- Every entry of the second table is as good as one of the first. -/
def Carried (t t' : Table κ ν) : Prop :=
  ∀ k v', t'.find k = some v' → ∃ v, t.find k = some v ∧ Alike v v'

omit [DecidableEq ω] in
theorem Carried.of_thinned (h : Thinned t t') : Carried t t' :=
  fun _ v hfind => ⟨v, h.find_of_find hfind, Alike.refl v⟩

omit [DecidableEq ω] in
theorem Carried.insert (hfind : t.find k = some v) (halike : Alike v v') :
    Carried t (t.insert k v') :=
  forall_insert (fun _ w hw => ⟨w, hw, Alike.refl w⟩) ⟨v, hfind, halike⟩

omit [DecidableEq ω] in
theorem Carried.countP_le (h : Carried t t') {p : ν → Bool}
    (hp : ∀ v v', Alike v v' → p v' = p v) : t'.countP p ≤ t.countP p := by
  apply countP_le_of_imp
  intro k v' hfind' hv'
  obtain ⟨v, hfind, halike⟩ := h k v' hfind'
  exact ⟨v, hfind, hp v v' halike ▸ hv'⟩

omit [DecidableEq ω] in
theorem Dated.carried {next clock : Nat} (h : Dated t next clock) (hcarried : Carried t t') :
    Dated t' next clock := by
  apply h.of_stamps
  intro k v' hfind'
  obtain ⟨v, hfind, halike⟩ := hcarried k v' hfind'
  exact .inr ⟨v, hfind, halike.finishedAt, halike.finishedOrder⟩

/-- What is as good as a shelf within its limits is within them. -/
theorem Within.carried (h : Within limits t) (hcarried : Carried t t') : Within limits t' where
  active := Nat.le_trans (hcarried.countP_le fun _ _ => isActiveOf_of_alike) h.active
  activeOf := fun o =>
    Nat.le_trans (hcarried.countP_le fun _ _ => isActiveOf_of_alike) (h.activeOf o)
  finished := Nat.le_trans (hcarried.countP_le fun _ _ => isFinishedOf_of_alike) h.finished
  finishedOf := fun o =>
    Nat.le_trans (hcarried.countP_le fun _ _ => isFinishedOf_of_alike) (h.finishedOf o)

/-- An entry that is not of a kind adds none of that kind. -/
theorem countP_insert_of_not {p : ν → Bool} (hv : ¬ p v = true) :
    (t.insert k v).countP p ≤ t.countP p := by
  apply countP_le_of_imp
  exact forall_insert (fun _ v' hfind hp => ⟨v', hfind, hp⟩) fun hp => absurd hp hv

theorem not_isFinishedOf (hactive : finishedAt v = none) (owner : Option ω) :
    ¬ isFinishedOf owner v = true := by
  simp [isFinishedOf, isFinished, hactive]

theorem not_isActiveOf (hfinished : finishedAt v = some now)
    (owner : Option ω) : ¬ isActiveOf owner v = true := by
  simp [isActiveOf, isActive, hfinished]

omit [DecidableEq ω] in
theorem Dated.insert_active {next clock : Nat} (h : Dated t next clock) (k : κ)
    (hactive : finishedAt v = none) : Dated (t.insert k v) next clock := by
  apply h.of_stamps
  exact forall_insert (fun _ v' hfind => .inr ⟨v', hfind, rfl, rfl⟩) (.inl hactive)

/-- **An active entry is added** where there is room for it. -/
theorem Within.insert_active (h : Within limits t)
    (hactive : finishedAt v = none) (hroom : t.countP (isActiveOf none) < limits.activeOverall)
    (hroomOf : t.countP (isActiveOf (some (Shelved.owner v))) < limits.activePerOwner) :
    Within limits (t.insert k v) where
  active := Nat.le_trans (countP_insert_le _ _ _ _) hroom
  activeOf := fun o => by
    by_cases howner : Shelved.owner v = o
    · subst howner
      exact Nat.le_trans (countP_insert_le _ _ _ _) hroomOf
    · refine Nat.le_trans (countP_insert_of_not ?_) (h.activeOf o)
      simp [isActiveOf, isOf, howner]
  finished :=
    Nat.le_trans (countP_insert_of_not (not_isFinishedOf hactive none)) h.finished
  finishedOf := fun o =>
    Nat.le_trans (countP_insert_of_not (not_isFinishedOf hactive (some o))) (h.finishedOf o)

end Within

/-- **One more entry is finished**, and then there may be too many. -/
theorem Within.finish {limits : Limits} {t : Table κ ν} (h : Within limits t)
    (hat : finishedAt v = some now) :
    Within limits (enforceCaps limits.finishedPerOwner limits.finishedOverall (t.insert k v)
      (Shelved.owner v)) := by
  have hthinned := thinned_enforceCaps limits.finishedPerOwner limits.finishedOverall
    (t.insert k v) (Shelved.owner v)
  obtain ⟨hown, hall⟩ := countP_enforceCaps_le limits.finishedPerOwner limits.finishedOverall
    (t.insert k v) (Shelved.owner v)
  have hactive (owner : Option ω) :=
    Nat.le_trans (hthinned.countP_le _) (countP_insert_of_not (t := t) (k := k)
      (not_isActiveOf hat owner))
  exact {
    active := Nat.le_trans (hactive none) h.active
    activeOf := fun o => Nat.le_trans (hactive (some o)) (h.activeOf o)
    finished := hall
    finishedOf := fun o => by
      by_cases howner : Shelved.owner v = o
      · exact howner ▸ hown
      · -- of another owner there are at most as many as before
        refine Nat.le_trans (hthinned.countP_le _) ?_
        refine Nat.le_trans (countP_insert_of_not ?_) (h.finishedOf o)
        simp [isFinishedOf, isOf, howner] }

/-- What is finished now is still there afterwards. -/
theorem Dated.find_finish {t : Table κ ν} {next clock now : Nat}
    (h : Dated t next clock) (hclock : clock ≤ now)
    (hat : finishedAt v = some now) (horder : finishedOrder v = some next)
    (hperOwner : 0 < capPerOwner) (hoverall : 0 < capOverall) :
    (enforceCaps capPerOwner capOverall (t.insert k v) (Shelved.owner v)).find k = some v := by
  refine find_enforceCaps_newest hperOwner hoverall (by simp) ?_
  intro k' v' hne hfind hfinished
  rw [find_insert, if_neg hne] at hfind
  refine (h.before_new hclock hat horder hfind fun hnone => ?_).place_lt
  simp [isFinished, hnone] at hfinished

end Shelf

end Serctl.Lib
