import Serctl.Daemon.Grants

/-!
# What the registry holds about one grant

The registry of grants is brought up to date by whichever call comes next: a call first forgets
what is due to be forgotten and takes out what has expired.  Seen one id at a time, the registry
holds the grant, its tombstone, or nothing, and each operation acts on every id by a small function
of what is held about it.
-/

namespace Serctl.Daemon

open Lib Lib.Guard Ipc List Lib.Table

/-! ## What is held about one id -/

/-- What is held about one id, with `GrantMemory.prune`, `GrantMemory.finish` and
    `GrantMemory.answerAt`. -/
inductive GrantMemory where
  | live (record : GrantRecord)
  | ended (tombstone : GrantTombstone)
  | nothing
  deriving DecidableEq, Repr

/-- How far a grant has come by an answer. -/
def GrantLookup.stage : GrantLookup → Nat
  | .live _ => 0
  | .exhausted => 1
  | .expired => 2
  | .unknown => 3

/-- When the end of a grant is forgotten: 60 seconds after its expiry, or right at its expiry where
    the clock cannot tell that later time. -/
def GrantRecord.forgetAt (r : GrantRecord) : Nat :=
  (checkedAdd r.expiresAt grantTerminalTombstoneTtl).getD r.expiresAt

theorem GrantRecord.expiresAt_le_forgetAt (r : GrantRecord) : r.expiresAt ≤ r.forgetAt := by
  unfold forgetAt checkedAdd
  split <;> simp

section

variable (kind : GrantTerminalKind) (r : GrantRecord)

@[simp] theorem GrantRegistryState.tombstone_kind : (tombstone kind r).kind = kind := by
  rw [tombstone]

@[simp] theorem GrantRegistryState.expiresAt_tombstone :
    (tombstone kind r).expiresAt = r.expiresAt := by
  rw [tombstone]

@[simp] theorem GrantRegistryState.forgetAt_tombstone :
    (tombstone kind r).forgetAt = r.forgetAt := by
  rw [tombstone, GrantRecord.forgetAt]

end

variable {r : GrantRecord}

/-- The clock can tell the time 60 seconds after the expiry, as it can for every grant that is
    issued in the first 290 million years. -/
def GrantRecord.EndRepresentable (r : GrantRecord) : Prop :=
  r.expiresAt + grantTerminalTombstoneTtl < instantLimit

theorem GrantRecord.EndRepresentable.forgetAt (h : r.EndRepresentable) :
    r.forgetAt = r.expiresAt + grantTerminalTombstoneTtl := by
  rw [EndRepresentable] at h
  rw [GrantRecord.forgetAt, checkedAdd, if_pos h, Option.getD_some]

namespace GrantMemory

/-- What bringing the registry up to date makes of it. -/
def prune (now : Nat) : GrantMemory → GrantMemory
  | .live r =>
    if now < r.expiresAt then .live r
    else if now < r.forgetAt then .ended (GrantRegistryState.tombstone .expired r)
    else .nothing
  | .ended t => if now < t.forgetAt then .ended t else .nothing
  | .nothing => .nothing

/-- The answer about what is held. -/
def answer (now : Nat) : GrantMemory → GrantLookup
  | .live r => .live r
  | .ended t => if t.kind = .exhausted ∧ now < t.expiresAt then .exhausted else .expired
  | .nothing => .unknown

/-- What a lookup says. -/
def answerAt (now : Nat) (m : GrantMemory) : GrantLookup := (m.prune now).answer now

/-- What is left of a live grant that is brought to its end. -/
def finish (kind : GrantTerminalKind) : GrantMemory → GrantMemory
  | .live r => .ended (GrantRegistryState.tombstone kind r)
  | m => m

variable {m : GrantMemory} {s t : Nat}

/-- Bringing the registry up to date early changes nothing later. -/
theorem prune_prune (h : s ≤ t) :
    (m.prune s).prune t = m.prune t := by
  cases m with
  | live r =>
    have hforget := r.expiresAt_le_forgetAt
    by_cases hs : s < r.expiresAt
    · simp [prune, hs]
    · have ht : ¬ t < r.expiresAt := by omega
      by_cases hf : s < r.forgetAt
      · simp [prune, hs, hf, ht]
      · have hf' : ¬ t < r.forgetAt := by omega
        simp [prune, hs, hf, ht, hf']
  | ended tomb =>
    by_cases hs : s < tomb.forgetAt
    · simp [prune, hs]
    · have ht : ¬ t < tomb.forgetAt := by omega
      simp [prune, hs, ht]
  | nothing => rfl

theorem answerAt_prune (h : s ≤ t) :
    (m.prune s).answerAt t = m.answerAt t := by
  rw [answerAt, answerAt, prune_prune h]

/-- Time moves the answer forward. -/
theorem stage_answerAt_mono (h : s ≤ t) :
    (m.answerAt s).stage ≤ (m.answerAt t).stage := by
  cases m with
  | live r =>
    have hforget := r.expiresAt_le_forgetAt
    simp only [answerAt, prune]
    split
    · exact Nat.zero_le _
    · have ht : ¬ t < r.expiresAt := by omega
      rw [if_neg ht]
      split
      · split <;> simp [answer, GrantLookup.stage]
      · have ht' : ¬ t < r.forgetAt := by omega
        rw [if_neg ht']
        exact le_rfl
  | ended tomb =>
    simp only [answerAt, prune]
    split
    · split
      · simp only [answer]
        split
        · split <;> simp [GrantLookup.stage]
        · have : ¬ (tomb.kind = .exhausted ∧ t < tomb.expiresAt) := by grind
          simp [this]
      · simp only [answer]
        split <;> simp [GrantLookup.stage]
    · have ht : ¬ t < tomb.forgetAt := by omega
      rw [if_neg ht]
      exact le_rfl
  | nothing => exact le_rfl

/-- What is said about a grant that was brought to its end. -/
theorem answerAt_tombstone (kind : GrantTerminalKind) (r : GrantRecord) (t : Nat) :
    (GrantMemory.ended (GrantRegistryState.tombstone kind r)).answerAt t =
      if t < r.forgetAt then
        if kind = .exhausted ∧ t < r.expiresAt then .exhausted else .expired
      else .unknown := by
  rw [answerAt, prune, GrantRegistryState.forgetAt_tombstone]
  split
  · rw [answer, GrantRegistryState.tombstone_kind, GrantRegistryState.expiresAt_tombstone]
  · rfl

/-- Bringing a grant to its end moves the answer forward. -/
theorem stage_answerAt_finish (m : GrantMemory) (kind : GrantTerminalKind) (t : Nat) :
    (m.answerAt t).stage ≤ ((m.finish kind).answerAt t).stage := by
  cases m with
  | live r =>
    rw [finish, answerAt_tombstone]
    by_cases hlive : t < r.expiresAt
    · rw [answerAt, prune, if_pos hlive]
      exact Nat.zero_le _
    · -- past its expiry a grant is answered the same way, however it came to its end
      have hdue : ¬ (kind = .exhausted ∧ t < r.expiresAt) := fun h => hlive h.2
      have hexpired : ¬ (GrantTerminalKind.expired = .exhausted ∧ t < r.expiresAt) :=
        fun h => hlive h.2
      rw [if_neg hdue, answerAt, prune, if_neg hlive]
      split
      · rw [answer, GrantRegistryState.tombstone_kind, GrantRegistryState.expiresAt_tombstone,
          if_neg hexpired]
      · exact le_rfl
  | ended tomb => exact le_rfl
  | nothing => exact le_rfl

/-- What may be held about a grant since it was issued. -/
inductive Remembers (r : GrantRecord) (now : Nat) : GrantMemory → Prop
  | live : Remembers r now (.live r)
  | ended (kind : GrantTerminalKind) :
      Remembers r now (.ended (GrantRegistryState.tombstone kind r))
  | nothing : r.forgetAt ≤ now → Remembers r now .nothing

theorem Remembers.prune (h : Remembers r s m) (hst : s ≤ t) : Remembers r t (m.prune t) := by
  cases h with
  | live =>
    simp only [GrantMemory.prune]
    split
    · exact .live
    · split
      · exact .ended .expired
      · exact .nothing (by omega)
  | ended kind =>
    simp only [GrantMemory.prune, GrantRegistryState.forgetAt_tombstone]
    split
    · exact .ended kind
    · exact .nothing (by omega)
  | nothing hforgot => exact .nothing (by omega)

theorem Remembers.finish {now : Nat} (h : Remembers r now m)
    (kind : GrantTerminalKind) : Remembers r now (m.finish kind) := by
  cases h with
  | live => exact .ended kind
  | ended kind' => exact .ended kind'
  | nothing hforgot => exact .nothing hforgot

end GrantMemory

/-- What an answer at a time says about an issued grant is true of it. -/
structure Timely (r : GrantRecord) (now : Nat) (answer : GrantLookup) : Prop where
  live : ∀ r', answer = .live r' → r' = r ∧ now < r.expiresAt
  exhausted : answer = .exhausted → now < r.expiresAt
  unknown : answer = .unknown → r.forgetAt ≤ now

theorem GrantMemory.Remembers.timely {s t : Nat} {m : GrantMemory}
    (h : Remembers r s m) (hst : s ≤ t) : Timely r t (m.answerAt t) := by
  have hheld := h.prune hst
  unfold answerAt
  cases hm : m.prune t with
  | live r' =>
    rw [hm] at hheld
    cases hheld
    -- a grant that is still live has been found not to be due
    have hlive : t < r.expiresAt := by
      cases h with
      | live =>
        simp only [GrantMemory.prune] at hm
        split at hm
        · assumption
        · split at hm <;> cases hm
      | ended kind =>
        simp only [GrantMemory.prune] at hm
        split at hm <;> cases hm
      | nothing _ => cases hm
    refine ⟨fun r' heq => ?_, nofun, nofun⟩
    cases heq
    exact ⟨rfl, hlive⟩
  | ended tomb =>
    rw [hm] at hheld
    cases hheld with
    | ended kind =>
      simp only [answer]
      split
      · rename_i hexhausted
        exact ⟨nofun, fun _ => hexhausted.2, nofun⟩
      · exact ⟨nofun, nofun, nofun⟩
  | nothing =>
    rw [hm] at hheld
    cases hheld with
    | nothing hforgot => exact ⟨nofun, nofun, fun _ => hforgot⟩

namespace GrantRegistryState

variable {st : GrantRegistryState} {now : Nat}

/-- What the registry holds about an id. -/
def memory (st : GrantRegistryState) (grantId : Bytes 16) : GrantMemory :=
  match st.live.find grantId with
  | some r => .live r
  | none =>
    match st.tombstones.find grantId with
    | some t => .ended t
    | none => .nothing

theorem find_eq_answer (grantId : Bytes 16) :
    st.find grantId now = (st.memory grantId).answer now := by
  unfold find memory
  cases st.live.find grantId with
  | some r => rfl
  | none => cases st.tombstones.find grantId <;> rfl

variable {grantId : Bytes 16}

theorem memory_eq_nothing :
    st.memory grantId = .nothing ↔
      st.live.find grantId = none ∧ st.tombstones.find grantId = none := by
  unfold memory
  cases st.live.find grantId <;> cases st.tombstones.find grantId <;> simp

/-! ### No id is held twice -/

/-- **The shape of the registry**: the tables are disjoint and within their common limit. -/
structure Tidy (st : GrantRegistryState) : Prop where
  disjoint : ∀ grantId r, st.live.find grantId = some r → st.tombstones.find grantId = none
  bounded : st.live.size + st.tombstones.size ≤ grantRegistryLimit

/-- No id is held twice, by both tables. -/
theorem Tidy.nodup (h : st.Tidy) :
    (st.live.entries.map Prod.fst ++ st.tombstones.entries.map Prod.fst).Nodup := by
  refine nodup_append.mpr ⟨st.live.distinct, st.tombstones.distinct, ?_⟩
  intro id hlive id' htomb heq
  subst heq
  obtain ⟨r, hr⟩ := mem_keys.mp hlive
  obtain ⟨t, ht⟩ := mem_keys.mp htomb
  rw [h.disjoint id r hr] at ht
  cases ht

variable {st' : GrantRegistryState}

/-- Moving an id from one table to the other. -/
theorem Tidy.move (h : st.Tidy) (t : GrantTombstone) (hlive : st.live.find grantId = some r) :
    Tidy ⟨st.live.erase grantId, st.tombstones.insert grantId t⟩ where
  disjoint := by
    intro id r' hfind
    rw [find_erase] at hfind
    rw [find_insert]
    split at hfind
    · cases hfind
    · rename_i hid
      rw [if_neg hid]
      exact h.disjoint id r' hfind
  bounded := by
    have hout := size_erase_lt hlive
    have hin := st.tombstones.size_insert_le grantId t
    have hbounded := h.bounded
    show (st.live.erase grantId).size + (st.tombstones.insert grantId t).size ≤ _
    omega

theorem Tidy.expire (h : st.Tidy) (grantId : Bytes 16) : (expire now st grantId).Tidy := by
  unfold GrantRegistryState.expire
  split
  · exact h
  · rename_i r hlive
    split
    · exact h.move _ hlive
    · refine ⟨fun id r' hfind => ?_, ?_⟩
      · rw [find_erase] at hfind
        split at hfind
        · cases hfind
        · exact h.disjoint id r' hfind
      · have hout := size_erase_lt hlive
        have hbounded := h.bounded
        show (st.live.erase grantId).size + st.tombstones.size ≤ _
        omega

theorem Tidy.pruneLocked (h : st.Tidy) (now : Nat) : (st.pruneLocked now).Tidy := by
  have hfold : ∀ (due : List (Bytes 16)) (st : GrantRegistryState), st.Tidy →
      (due.foldl (GrantRegistryState.expire now) st).Tidy := by
    intro due
    induction due with
    | nil => exact fun st hst => hst
    | cons grantId due ih => exact fun st hst => ih _ (hst.expire grantId)
  refine hfold _ _ ⟨fun id r hfind => ?_, ?_⟩
  · rw [find_keep, h.disjoint id r hfind]
    rfl
  · exact (Nat.add_le_add_left (st.tombstones.size_keep_le _) _).trans h.bounded

/-! ### Each id on its own -/

theorem find_live_expire (grantId key : Bytes 16) : (expire now st key).live.find grantId =
    if grantId = key then none else st.live.find grantId := by
  unfold expire
  split
  · rename_i hnone
    split
    · rename_i hid
      rw [hid, hnone]
    · rfl
  · rw [find_erase]

/-- The tombstone an expired grant leaves, if it leaves one. -/
def tombstoneOf (now : Nat) (live : Option GrantRecord) (old : Option GrantTombstone) :
    Option GrantTombstone :=
  match live with
  | some r => if now < r.forgetAt then some (tombstone .expired r) else old
  | none => old

theorem find_tombstones_expire (grantId key : Bytes 16) :
    (expire now st key).tombstones.find grantId =
      if grantId = key then tombstoneOf now (st.live.find key) (st.tombstones.find key)
      else st.tombstones.find grantId := by
  unfold expire
  cases hlive : st.live.find key with
  | none => by_cases hid : grantId = key <;> simp [tombstoneOf, hid]
  | some r =>
    by_cases hf : now < r.forgetAt <;> by_cases hid : grantId = key <;>
      simp [tombstoneOf, hf, hid]

/-- Taking out several grants: an id that was live and is among them is taken out once. -/
theorem find_foldl_expire (now : Nat) (grantId : Bytes 16) (due : List (Bytes 16))
    (st : GrantRegistryState) :
    (due.foldl (expire now) st).live.find grantId =
        (if grantId ∈ due then none else st.live.find grantId) ∧
      (due.foldl (expire now) st).tombstones.find grantId =
        (if grantId ∈ due then tombstoneOf now (st.live.find grantId)
          (st.tombstones.find grantId) else st.tombstones.find grantId) := by
  induction due generalizing st with
  | nil => simp
  | cons key due ih =>
    obtain ⟨hlive, htombs⟩ := ih (expire now st key)
    rw [foldl_cons, hlive, htombs, find_live_expire, find_tombstones_expire]
    by_cases hid : grantId = key
    · -- from the second time on there is nothing to take out
      subst hid
      simp [tombstoneOf]
    · simp [hid]

theorem mem_due : grantId ∈ (st.live.keysWith fun r => r.expiresAt ≤ now) ↔
    ∃ r, st.live.find grantId = some r ∧ r.expiresAt ≤ now := by
  simp [mem_keysWith]

/-- **Bringing the registry up to date acts on each id alone.** -/
theorem memory_pruneLocked (h : st.Tidy) (grantId : Bytes 16) :
    (st.pruneLocked now).memory grantId = (st.memory grantId).prune now := by
  obtain ⟨hlive, htombs⟩ := find_foldl_expire now grantId
    (st.live.keysWith fun r => r.expiresAt ≤ now)
    { st with tombstones := st.tombstones.keep fun _ t => now < t.forgetAt }
  simp only [mem_due, find_keep] at hlive htombs
  unfold memory pruneLocked
  rw [hlive, htombs]
  cases hold : st.live.find grantId with
  | some r =>
    rw [h.disjoint grantId r hold]
    by_cases hdue : r.expiresAt ≤ now
    · have hnot : ¬ now < r.expiresAt := by omega
      by_cases hf : now < r.forgetAt <;>
        simp [hdue, hnot, hf, tombstoneOf, GrantMemory.prune]
    · have hnot : now < r.expiresAt := by omega
      simp [hdue, hnot, GrantMemory.prune]
  | none =>
    cases htomb : st.tombstones.find grantId with
    | none => simp [GrantMemory.prune]
    | some t => by_cases hf : now < t.forgetAt <;> simp [GrantMemory.prune, Option.filter, hf]

/-- A lookup says what is held about its id. -/
theorem lookup_eq_answerAt (h : st.Tidy) (grantId : Bytes 16) :
    (st.lookup grantId now).1 = (st.memory grantId).answerAt now := by
  rw [lookup, find_eq_answer, memory_pruneLocked h, GrantMemory.answerAt]

/-- A grant is brought to its end, and no other. -/
theorem memory_markTerminalIfSame (h : st.Tidy) (grantId key : Bytes 16)
    (expected : GrantRecord) (kind : GrantTerminalKind) :
    (st.markTerminalIfSame key expected kind now).memory grantId =
        (st.memory grantId).prune now ∨
      (st.markTerminalIfSame key expected kind now).memory grantId =
        ((st.memory grantId).prune now).finish kind := by
  rw [← memory_pruneLocked h]
  unfold markTerminalIfSame
  split
  · exact .inl rfl
  · rename_i r hlive
    split
    · by_cases hid : grantId = key
      · right
        subst hid
        simp [memory, hlive, GrantMemory.finish]
      · left
        simp [memory, hid]
    · exact .inl rfl

/-! ### One call -/

variable {grant : OperationGrant} {index : Nat} {entry : ProfilePoolEntry}

/-- What a successful insertion has found and left. -/
theorem insert_cases (h : st.insert index grant entry now = .ok (r, st')) :
    (st.pruneLocked now).live.size + (st.pruneLocked now).tombstones.size < grantRegistryLimit ∧
      (st.pruneLocked now).memory grant.grantId = .nothing ∧ r.grant.grantId = grant.grantId ∧
      st' = { st.pruneLocked now with
        live := (st.pruneLocked now).live.insert grant.grantId r } := by
  have hgrant := (insert_record h).2.1
  simp only [insert, bind_eq_ok, ensure_eq_ok, pure_eq_ok, Prod.mk.injEq] at h
  obtain ⟨-, hroom, -, hnew, record, -, rfl, rfl⟩ := h
  exact ⟨hroom, memory_eq_nothing.mpr hnew, by rw [hgrant], rfl⟩

theorem memory_insert (htidy : st.Tidy)
    (h : st.insert index grant entry now = .ok (r, st')) (grantId : Bytes 16) :
    st'.memory grantId =
      if grantId = r.grant.grantId then .live r else (st.memory grantId).prune now := by
  obtain ⟨-, -, hid, rfl⟩ := insert_cases h
  rw [← memory_pruneLocked htidy, hid]
  by_cases hsame : grantId = grant.grantId <;> simp [memory, hsame]

theorem tidy_insert (htidy : st.Tidy)
    (h : st.insert index grant entry now = .ok (r, st')) : st'.Tidy := by
  obtain ⟨hroom, hnew, -, rfl⟩ := insert_cases h
  have hpruned := htidy.pruneLocked now
  refine ⟨fun id r' hfind => ?_, ?_⟩
  · rw [find_insert] at hfind
    split at hfind
    · rename_i hid
      exact hid ▸ (memory_eq_nothing.mp hnew).2
    · exact hpruned.disjoint id r' hfind
  · have hin := (st.pruneLocked now).live.size_insert_le grant.grantId r
    show ((st.pruneLocked now).live.insert grant.grantId r).size +
      (st.pruneLocked now).tombstones.size ≤ _
    omega

theorem tidy_markTerminalIfSame (htidy : st.Tidy) (key : Bytes 16) (expected : GrantRecord)
    (kind : GrantTerminalKind) : (st.markTerminalIfSame key expected kind now).Tidy := by
  have hpruned := htidy.pruneLocked now
  unfold markTerminalIfSame
  split
  · exact hpruned
  · rename_i r hlive
    split
    · exact hpruned.move _ hlive
    · exact hpruned

end GrantRegistryState

end Serctl.Daemon
