import Serctl.Daemon.Tunnels

/-!
# Runs of the registry of managed tunnels

The worker of a tunnel, cancellers that have waited too long and the shutdown may all finish the
same record, in any order, and the record may be dropped in between.  What an operation does to
the registry is said once, as `Advances`: what holds of every record stays so, and a record moves
on, is dropped once it has finished, or its id is entered anew.  Every turn of every task is at
most one operation, so it advances the registry as well.

An operation that changes the stage of a record fails where the revision is exhausted, and the
stage stays changed.  This never happens to the tunnels of the daemon: they are registered with a
revision of at most 1, and no move raises a revision by more than one.
-/

namespace Serctl.Daemon

open Lib Lib.Guard Ipc Option List Lib.Shelf

/-- A record is finished exactly in a terminal stage, and holds its idle guard until then. -/
structure ManagedTunnelRecord.Sound (record : ManagedTunnelRecord) : Prop where
  terminal : record.finishedAt ≠ none ↔
    (record.status.stage = .closed ∨ record.status.stage = .unknown)
  guarded : record.idleGuard ≠ none ↔ record.finishedAt = none

namespace ManagedTunnelRegistry

/-! ## What the registry keeps -/

/-- How many tunnels there may be. -/
def tunnelLimits : Shelf.Limits where
  activeOverall := maxActiveManagedTunnelsGlobal
  activePerOwner := maxActiveManagedTunnelsPerProfile
  finishedOverall := maxCompletedManagedTunnelsGlobal
  finishedPerOwner := maxCompletedManagedTunnelsPerProfile

/-- **What every registry keeps** along a run: every record is sound, and there are not too
    many. -/
structure Kept (r : ManagedTunnelRegistry) : Prop where
  sound : ∀ id record, r.records.find id = some record → record.Sound
  shelved : Shelf.Within tunnelLimits r.records
  numbered : ∀ id record, r.records.find id = some record →
    ∀ n, record.finishedOrder = some n → n < r.nextFinishedOrder

/-- No active record with an operation context has its last revision. -/
def Room (r : ManagedTunnelRegistry) : Prop :=
  ∀ id record, r.records.find id = some record → record.finishedAt = none →
    record.status.operationContextId ≠ none → record.status.revision < 2 ^ 64 - 1

/-- What may have become of a record that is still there. -/
structure Moved (record record' : ManagedTunnelRecord) : Prop where
  owner : record'.owner = record.owner
  context : record'.status.operationContextId = record.status.operationContextId
  ended : record.finishedAt ≠ none →
    record'.status = record.status ∧ record'.finishedAt = record.finishedAt
  revised : record'.status ≠ record.status → record.status.operationContextId ≠ none →
    record.status.revision < record'.status.revision

theorem Moved.refl (record : ManagedTunnelRecord) : Moved record record :=
  ⟨rfl, rfl, fun _ => ⟨rfl, rfl⟩, fun h => absurd rfl h⟩

/-- A record as it is entered. -/
structure Fresh (record : ManagedTunnelRecord) : Prop where
  ready : record.status.stage = .ready
  active : record.finishedAt = none
  guarded : record.idleGuard ≠ none

variable {record : ManagedTunnelRecord} {now : Nat} {owner : ManagedTunnelOwner}
  {tunnelId : TunnelId}

theorem Fresh.sound (h : Fresh record) : record.Sound where
  terminal := by simp [h.active, h.ready]
  guarded := by simp [h.active, h.guarded]

/-- **What may become of a record**: it moves on, or, once it has finished, it is dropped, and its
    id may be entered anew. -/
inductive Fate (r' : ManagedTunnelRegistry) (id : TunnelId) (record : ManagedTunnelRecord) : Prop
  | stays (record' : ManagedTunnelRecord) :
      r'.records.find id = some record' → Moved record record' → Fate r' id record
  | dropped : record.finishedAt ≠ none → r'.records.find id = none → Fate r' id record
  | replaced (new : ManagedTunnelRecord) : record.finishedAt ≠ none →
      r'.records.find id = some new → Fresh new → Fate r' id record

/-- No revision is higher than a number. -/
def RevisionsLe (k : Nat) (r : ManagedTunnelRegistry) : Prop :=
  ∀ id record, r.records.find id = some record → record.status.revision ≤ k

/-- What a change of the registry keeps, and what it makes of the records. -/
structure Advances (r r' : ManagedTunnelRegistry) : Prop where
  kept : r'.Kept
  fate : ∀ id record, r.records.find id = some record → Fate r' id record
  /-- Revisions are raised by one at most, and a new record has at most the first one. -/
  raised : ∀ k, 0 < k → r.RevisionsLe k → r'.RevisionsLe (k + 1)

variable {r r' : ManagedTunnelRegistry}

theorem Advances.refl (h : r.Kept) : Advances r r :=
  ⟨h, fun _ record hfind => .stays record hfind (Moved.refl record),
    fun _ _ hle id record hfind => Nat.le_succ_of_le (hle id record hfind)⟩

/-- Finished records are dropped. -/
theorem advances_thinned (h : r.Kept) (hthinned : Shelf.Thinned r.records r'.records)
    (hnext : r.nextFinishedOrder ≤ r'.nextFinishedOrder) : Advances r r' where
  kept := ⟨fun id record hfind => h.sound id record (hthinned.find_of_find hfind),
    h.shelved.carried (Shelf.Carried.of_thinned hthinned),
    fun id record hfind n hn =>
      Nat.lt_of_lt_of_le (h.numbered id record (hthinned.find_of_find hfind) n hn) hnext⟩
  fate := fun id record hfind => by
    rcases hthinned.find_or hfind with hsame | ⟨hgone, hfinished⟩
    · exact .stays record hsame (Moved.refl record)
    · exact .dropped hfinished hgone
  raised := fun k _ hle id record hfind =>
    Nat.le_succ_of_le (hle id record (hthinned.find_of_find hfind))

theorem advances_pruned (h : r.Kept) (now : Nat) {next : Nat} (hnext : r.nextFinishedOrder ≤ next) :
    Advances r ⟨pruneLocked r.records now, next⟩ :=
  advances_thinned h (thinned_prune _ _ _) hnext

theorem RevisionsLe.pruned {k : Nat} (h : r.RevisionsLe k) (now : Nat) :
    ∀ id record, (pruneLocked r.records now).find id = some record →
      record.status.revision ≤ k :=
  fun id record hfind => h id record (Shelf.Thinned.find_of_find (thinned_prune _ _ _) hfind)

theorem Kept.pruned (h : r.Kept) (now : Nat) :
    Kept { r with records := pruneLocked r.records now } :=
  (advances_pruned h now le_rfl).kept

variable {id : TunnelId}

/-- What became of a record that was found after the old ones had been dropped. -/
theorem fate_of_pruned
    (hfind : r.records.find id = some record)
    (hvacant : (pruneLocked r.records now).find id = none →
      r'.records.find id = none ∨ ∃ new, r'.records.find id = some new ∧ Fresh new)
    (hkept : (pruneLocked r.records now).find id = some record → Fate r' id record) :
    Fate r' id record := by
  have hthinned : Shelf.Thinned r.records (pruneLocked r.records now) := thinned_prune _ _ _
  rcases hthinned.find_or hfind with hsame | ⟨hgone, hfinished⟩
  · exact hkept hsame
  · rcases hvacant hgone with hnone | ⟨new, hnew, hfresh⟩
    · exact .dropped hfinished hnone
    · exact .replaced new hfinished hnew hfresh

/-! ## Changes of one record -/

/-- The record with another status moves on, if the status does. -/
structure Turned (record : ManagedTunnelRecord) (status : TunnelStatus) : Prop where
  active : record.finishedAt = none
  context : status.operationContextId = record.status.operationContextId
  revised : record.status.operationContextId ≠ none → record.status.revision < status.revision
  raised : status.revision ≤ record.status.revision + 1

/-- With room there is a next revision. -/
theorem turned_of_revised (hroom : r.Room)
    (hfind : r.records.find id = some record) (hactive : record.finishedAt = none)
    (stage : TunnelStage) (nowUnixMs : Nat) :
    ∃ status, revised (staged record.status stage nowUnixMs) = some status ∧
      status.stage = stage ∧ Turned record status := by
  unfold revised
  split
  · rename_i hcontext
    have hbound : record.status.operationContextId ≠ none := by
      intro hnone
      simp [staged, hnone] at hcontext
    have hlt := hroom id record hfind hactive hbound
    have hnext : checkedSucc (staged record.status stage nowUnixMs).revision =
        some (record.status.revision + 1) := by
      apply TransferRegistry.checkedSucc_of_lt
      show record.status.revision + 1 < 2 ^ 64
      omega
    rw [hnext]
    exact ⟨_, rfl, rfl, hactive, rfl, fun _ => Nat.lt_succ_self _, le_rfl⟩
  · rename_i hcontext
    refine ⟨_, rfl, rfl, hactive, rfl, fun hbound => ?_, Nat.le_succ _⟩
    simp only [staged, not_isSome_iff_eq_none] at hcontext
    exact absurd hcontext hbound

theorem Turned.moved {record record' : ManagedTunnelRecord} (h : Turned record record'.status)
    (howner : record'.owner = record.owner) : Moved record record' where
  owner := howner
  context := h.context
  ended := fun hfinished => absurd h.active hfinished
  revised := fun _ hbound => h.revised hbound

/-- One record is replaced by another one that is as good for the limits. -/
theorem advances_put (h : r.Kept) {record record' : ManagedTunnelRecord}
    (hfind : r.records.find id = some record) (halike : Shelf.Alike record record')
    (hmoved : Moved record record') (hsound : record'.Sound)
    (hraised : record'.status.revision ≤ record.status.revision + 1) :
    Advances r (r.put id record') where
  kept := by
    refine ⟨?_, h.shelved.carried (Shelf.Carried.insert hfind halike), ?_⟩
    · exact Table.forall_insert h.sound hsound
    · intro id' other hother n hn
      obtain ⟨old, hold, halike'⟩ := Shelf.Carried.insert hfind halike id' other hother
      exact h.numbered id' old hold n (halike'.finishedOrder.symm.trans hn)
  fate := by
    intro id' other hother
    by_cases hid : id' = id
    · subst hid
      rw [hfind] at hother
      cases hother
      exact .stays record' (by rw [put, Table.find_insert, if_pos rfl]) hmoved
    · refine .stays other ?_ (Moved.refl other)
      rw [put, Table.find_insert, if_neg hid]
      exact hother
  raised := by
    intro k _ hle
    refine Table.forall_insert (fun id' other hother => Nat.le_succ_of_le (hle id' other hother)) ?_
    exact hraised.trans (Nat.succ_le_succ (hle id record hfind))

/-! ## The operations -/

theorem isTerminal_eq_true {stage : TunnelStage} :
    isTerminal stage = true ↔ stage = .closed ∨ stage = .unknown := by
  cases stage <;> decide

variable {status : TunnelStatus}

/-- The room that is checked is the room that the limits leave. -/
theorem room_of_checkRoom {records : Records} (h : checkRoom records owner status = .ok ()) :
    records.countP (isActiveOf none) < tunnelLimits.activeOverall ∧
      records.countP (isActiveOf (some owner)) < tunnelLimits.activePerOwner ∧
      records.find status.tunnelId = none := by
  simp only [checkRoom, bind_eq_ok, ensure_eq_ok] at h
  obtain ⟨-, hoverall, -, howner, hnew⟩ := h
  rw [isActiveOf_none]
  exact ⟨hoverall, howner, isNone_iff_eq_none.mp hnew⟩

theorem advances_begin (h : r.Kept) (owner : ManagedTunnelOwner) (status : TunnelStatus)
    (hfirst : status.revision ≤ 1) (cancellation completion idleGuard now : Nat) :
    Advances r (r.begin owner status cancellation completion idleGuard now).2 := by
  unfold begin
  dsimp only
  split
  · exact Advances.refl h
  · rename_i hnew
    split
    · exact advances_pruned h now le_rfl
    · rename_i hroom
      have hpruned := h.pruned now
      obtain ⟨hoverall, howner, hvacant⟩ := room_of_checkRoom hroom
      simp only [checkNew, bind_eq_ok, ensure_eq_ok] at hnew
      obtain ⟨-, -, -, -, hready⟩ := hnew
      let record := newRecord owner status cancellation completion idleGuard
      have hfresh : Fresh record := ⟨hready, rfl, by simp [record, newRecord]⟩
      refine ⟨⟨?_, hpruned.shelved.insert_active (v := record) rfl hoverall howner, ?_⟩, ?_, ?_⟩
      · exact Table.forall_insert hpruned.sound hfresh.sound
      · exact Table.forall_insert hpruned.numbered fun n hn => by cases hn
      · intro id other hother
        apply fate_of_pruned hother
        · intro hgone
          by_cases hid : id = status.tunnelId
          · exact .inr ⟨record, by rw [put, Table.find_insert, if_pos hid], hfresh⟩
          · refine .inl ?_
            rw [put, Table.find_insert, if_neg hid]
            exact hgone
        · intro hkept
          -- the new tunnel has an id that is not in use
          have hne : id ≠ status.tunnelId := by
            rintro rfl
            rw [hvacant] at hkept
            cases hkept
          refine .stays other ?_ (Moved.refl other)
          rw [put, Table.find_insert, if_neg hne]
          exact hkept
      · intro k _ hle
        refine Table.forall_insert (fun id other hother =>
          Nat.le_succ_of_le (hle.pruned now id other hother)) ?_
        exact hfirst.trans (Nat.succ_le_succ (Nat.zero_le k))

theorem finishable_eq_ok {records : Records} (h : finishable records owner tunnelId = .ok record) :
    records.find tunnelId = some record ∧ record.owner = owner := by
  simp only [finishable, bind_eq_ok, orBail_eq_ok, ensure_eq_ok, pure_eq_ok] at h
  obtain ⟨record', hfind, -, howner, rfl⟩ := h
  exact ⟨hfind, howner⟩

theorem place_of_finishedOrder {n : Nat}
    (h : ∀ m, record.finishedOrder = some m → m < n) : place record < n + 1 := by
  have horder : place record = record.finishedOrder.elim 0 (· + 1) := rfl
  rw [horder]
  cases hfinished : record.finishedOrder with
  | none => exact Nat.succ_pos n
  | some m => exact Nat.succ_lt_succ (h m hfinished)

/-- A record that is finished now, with the table that is left. -/
theorem advances_finished (h : r.Kept)
    (hfind : (pruneLocked r.records now).find tunnelId = some record)
    (hturned : Turned record status) (hterminal : isTerminal status.stage = true) :
    Advances r ⟨enforceFinishedCapsLocked ((pruneLocked r.records now).insert tunnelId
      (finished record status now r.nextFinishedOrder)) record.owner,
      r.nextFinishedOrder + 1⟩ := by
  have hpruned := h.pruned now
  let done := finished record status now r.nextFinishedOrder
  have hthinned : Shelf.Thinned ((pruneLocked r.records now).insert tunnelId done)
      (enforceFinishedCapsLocked ((pruneLocked r.records now).insert tunnelId done)
        record.owner) :=
    thinned_enforceCaps _ _ _ _
  have hsound : done.Sound := by
    refine ⟨⟨fun _ => isTerminal_eq_true.mp hterminal, fun _ => some_ne_none now⟩, ?_⟩
    simp [done, finished]
  refine ⟨⟨?_, hpruned.shelved.finish (v := done) rfl, ?_⟩, ?_, ?_⟩
  · intro id other hother
    exact Table.forall_insert hpruned.sound hsound id other (hthinned.find_of_find hother)
  · have hlater : ∀ id other, (pruneLocked r.records now).find id = some other →
        ∀ n, other.finishedOrder = some n → n < r.nextFinishedOrder + 1 :=
      fun id other hfind n hn => Nat.lt_succ_of_lt (hpruned.numbered id other hfind n hn)
    intro id other hother
    refine Table.forall_insert hlater ?_ id other (hthinned.find_of_find hother)
    intro n hn
    cases hn
    exact Nat.lt_succ_self _
  · intro id other hother
    by_cases hid : id = tunnelId
    · -- the record that is finished now is the last one to be dropped
      subst hid
      have hsame := Shelf.Thinned.find_of_find (thinned_prune _ _ _) hfind
      rw [hother] at hsame
      cases hsame
      refine .stays done ?_ (Turned.moved hturned rfl)
      refine find_enforceCaps_newest (by decide) (by decide) (by simp [done]) ?_
      intro id' other' hne hother' _
      rw [Table.find_insert, if_neg hne] at hother'
      exact place_of_finishedOrder (hpruned.numbered id' other' hother')
    · have hinsert : ((pruneLocked r.records now).insert tunnelId done).find id =
          (pruneLocked r.records now).find id := by
        rw [Table.find_insert, if_neg hid]
      apply fate_of_pruned hother
      · exact fun hgone => .inl (hthinned.find_none (hinsert.trans hgone))
      · intro hkept
        rcases hthinned.find_or (hinsert.trans hkept) with hsame | ⟨hdropped, hfinished⟩
        · exact .stays other hsame (Moved.refl other)
        · exact .dropped hfinished hdropped
  · intro k _ hle id other hother
    refine Table.forall_insert (fun id other hother =>
      Nat.le_succ_of_le (hle.pruned now id other hother)) ?_ id other (hthinned.find_of_find hother)
    exact hturned.raised.trans (Nat.succ_le_succ (hle.pruned now tunnelId record hfind))

theorem advances_finishWorker (h : r.Kept) (hroom : r.Room) (owner : ManagedTunnelOwner)
    (tunnelId : TunnelId) (stage : TunnelStage) (now nowUnixMs : Nat) :
    Advances r (r.finishWorker owner tunnelId stage now nowUnixMs).2.1 := by
  unfold finishWorker
  dsimp only
  split
  · exact Advances.refl h
  · rename_i hterminal
    split
    · exact advances_pruned h now le_rfl
    · rename_i next hnext
      obtain rfl := TransferRegistry.eq_succ_of_checkedSucc hnext
      split
      · exact advances_pruned h now (Nat.le_succ _)
      · rename_i record hrecord
        obtain ⟨hfind, rfl⟩ := finishable_eq_ok hrecord
        split
        · exact advances_pruned h now (Nat.le_succ _)
        · rename_i hactive
          have hthere : r.records.find tunnelId = some record :=
            Shelf.Thinned.find_of_find (thinned_prune _ _ _) hfind
          obtain ⟨status, hrevised, hstage, hturned⟩ :=
            turned_of_revised hroom hthere (by simpa using hactive) stage nowUnixMs
          rw [hrevised]
          exact advances_finished h hfind hturned (by simpa [hstage] using hterminal)

theorem find_of_cancellable {operationContextId : Option OperationContextId}
    (h : cancellable r owner tunnelId operationContextId = .ok record) :
    r.records.find tunnelId = some record := by
  simp only [cancellable, bind_eq_ok, orBail_eq_ok, ensure_eq_ok] at h
  obtain ⟨record', hfind, -, -, hrest⟩ := h
  split at hrest
  · cases hrest
    exact hfind
  · simp only [bind_eq_ok, orBail_eq_ok, ensure_eq_ok, pure_eq_ok] at hrest
    obtain ⟨-, -, -, -, rfl⟩ := hrest
    exact hfind

/-- A record whose cancellation was requested is still an active one. -/
theorem sound_cancelling
    (h : record.Sound) (hactive : record.finishedAt = none) (hstage : status.stage = .cancelling) :
    ({ record with status := status } : ManagedTunnelRecord).Sound where
  terminal := by simp [hactive, hstage]
  guarded := h.guarded

theorem advances_requestCancel (h : r.Kept) (hroom : r.Room) (owner : ManagedTunnelOwner)
    (tunnelId : TunnelId) (operationContextId : Option OperationContextId) (nowUnixMs : Nat) :
    Advances r (r.requestCancel owner tunnelId operationContextId nowUnixMs).2.1 := by
  unfold requestCancel
  split
  · exact Advances.refl h
  · rename_i record hcancellable
    have hfind := find_of_cancellable hcancellable
    split
    · rename_i hopen
      obtain ⟨status, hrevised, hstage, hturned⟩ :=
        turned_of_revised hroom hfind hopen.1 .cancelling nowUnixMs
      rw [hrevised]
      exact advances_put h hfind ⟨rfl, rfl, rfl⟩ (Turned.moved hturned rfl)
        (sound_cancelling (h.sound _ _ hfind) hopen.1 hstage) hturned.raised
    · exact Advances.refl h

/-- Every record is changed into one that is as good for the limits. -/
theorem advances_mapped (h : r.Kept) {f : TunnelId → ManagedTunnelRecord →
    ManagedTunnelRecord}
    (halike : ∀ id record, (pruneLocked r.records now).find id = some record →
      Shelf.Alike record (f id record))
    (hmoved : ∀ id record, (pruneLocked r.records now).find id = some record →
      Moved record (f id record))
    (hsound : ∀ id record, (pruneLocked r.records now).find id = some record →
      (f id record).Sound)
    (hraised : ∀ id record, (pruneLocked r.records now).find id = some record →
      (f id record).status.revision ≤ record.status.revision + 1) :
    Advances r { r with records := (pruneLocked r.records now).mapValues f } := by
  have hpruned := h.pruned now
  have hmapped : ∀ id record', ((pruneLocked r.records now).mapValues f).find id = some record' →
      ∃ record, (pruneLocked r.records now).find id = some record ∧ f id record = record' := by
    intro id record' hfind
    rw [Table.find_mapValues] at hfind
    exact map_eq_some_iff.mp hfind
  refine ⟨⟨?_, ?_, ?_⟩, ?_, ?_⟩
  · intro id record' hfind
    obtain ⟨record, hrecord, rfl⟩ := hmapped id record' hfind
    exact hsound id record hrecord
  · refine hpruned.shelved.carried fun id record' hfind => ?_
    obtain ⟨record, hrecord, rfl⟩ := hmapped id record' hfind
    exact ⟨record, hrecord, halike id record hrecord⟩
  · intro id record' hfind n hn
    obtain ⟨record, hrecord, rfl⟩ := hmapped id record' hfind
    have hsame : (f id record).finishedOrder = record.finishedOrder :=
      (halike id record hrecord).finishedOrder
    exact hpruned.numbered id record hrecord n (hsame.symm.trans hn)
  · intro id record hfind
    refine fate_of_pruned hfind
      (fun (hgone : (pruneLocked r.records now).find id = none) => .inl ?_) fun hkept => ?_
    · simp only [Table.find_mapValues, hgone, map_none]
    · refine .stays (f id record) ?_ (hmoved id record hkept)
      simp only [Table.find_mapValues, hkept, map_some]
  · intro k _ hle id record' hfind
    obtain ⟨record, hrecord, rfl⟩ := hmapped id record' hfind
    exact (hraised id record hrecord).trans (Nat.succ_le_succ (hle.pruned now id record hrecord))

theorem advances_snapshots (x : Platform) (h : r.Kept) (owner : ManagedTunnelOwner)
    (tunnelId : Option TunnelId) (operationContextId : Option OperationContextId)
    (enforceContextDiscovery : Bool) (now : Nat) :
    Advances r (r.snapshots x owner tunnelId operationContextId enforceContextDiscovery
      now).2 := by
  have hpruned := h.pruned now
  unfold snapshots
  dsimp only
  refine advances_mapped h ?_ ?_ ?_ ?_
  · intro id record _
    split
    · exact ⟨rfl, rfl, rfl⟩
    · exact Shelf.Alike.refl record
  · intro id record _
    split
    · exact ⟨rfl, rfl, fun _ => ⟨rfl, rfl⟩, fun hne => absurd rfl hne⟩
    · exact Moved.refl record
  · intro id record hfind
    have hsound := hpruned.sound id record hfind
    split
    · exact ⟨hsound.terminal, hsound.guarded⟩
    · exact hsound
  · intro id record _
    split <;> exact Nat.le_succ _

/-- What the shutdown makes of an active record. -/
theorem turned_shutDown (hroom : r.Room)
    (hfind : r.records.find id = some record) (hactive : record.finishedAt = none)
    (nowUnixMs : Nat) :
    Turned record (shutDown record nowUnixMs).status ∧
      (shutDown record nowUnixMs).status.stage = .cancelling := by
  obtain ⟨status, hrevised, hstage, hturned⟩ :=
    turned_of_revised hroom hfind hactive .cancelling nowUnixMs
  -- with room, the revision is not held back
  have hsame : (shutDown record nowUnixMs).status = status := by
    unfold revised at hrevised
    simp only [shutDown, saturatingSucc]
    split at hrevised
    · rename_i hcontext
      obtain ⟨revision, hnext, rfl⟩ := map_eq_some_iff.mp hrevised
      rw [if_pos hcontext, hnext]
      rfl
    · rename_i hcontext
      rw [if_neg hcontext]
      exact Option.some.inj hrevised
  rw [hsame]
  exact ⟨hturned, hstage⟩

theorem isActive_eq_true :
    isActive record = true ↔ record.finishedAt = none :=
  isNone_iff_eq_none

theorem advances_cancelAll (h : r.Kept) (hroom : r.Room) (now nowUnixMs : Nat) :
    Advances r (r.cancelAll now nowUnixMs).2.1 := by
  have hpruned := h.pruned now
  have hbefore : ∀ id record, (pruneLocked r.records now).find id = some record →
      r.records.find id = some record :=
    fun id record hfind => Shelf.Thinned.find_of_find (thinned_prune _ _ _) hfind
  unfold cancelAll
  dsimp only
  refine advances_mapped h ?_ ?_ ?_ ?_
  · intro id record _
    split
    · exact ⟨rfl, rfl, rfl⟩
    · exact Shelf.Alike.refl record
  · intro id record hfind
    split
    · rename_i hactive
      exact (turned_shutDown hroom (hbefore id record hfind) (isActive_eq_true.mp hactive)
        nowUnixMs).1.moved rfl
    · exact Moved.refl record
  · intro id record hfind
    have hsound := hpruned.sound id record hfind
    split
    · rename_i hactive
      have hopen := isActive_eq_true.mp hactive
      exact sound_cancelling hsound hopen
        (turned_shutDown hroom (hbefore id record hfind) hopen nowUnixMs).2
    · exact hsound
  · intro id record hfind
    split
    · rename_i hactive
      exact (turned_shutDown hroom (hbefore id record hfind) (isActive_eq_true.mp hactive)
        nowUnixMs).1.raised
    · exact Nat.le_succ _

theorem kept_empty : empty.Kept where
  sound := fun _ _ hfind => absurd hfind (by simp [empty])
  shelved := within_empty _
  numbered := fun _ _ hfind => absurd hfind (by simp [empty])

end ManagedTunnelRegistry

/-! ## Turns of the tasks -/

open ManagedTunnelRegistry

section Turns

variable (x : Platform) {w w' : TunnelWorld} {turn : Turn}

@[simp] theorem TunnelWorld.registry_notify (w : TunnelWorld) (completion : Option Nat) :
    (w.notify completion).registry = w.registry := by
  cases completion <;> rfl

section

variable (h : w.registry.Kept) (hroom : w.registry.Room)

include h hroom

theorem TunnelWorld.advances_finishWorker
    (owner : ManagedTunnelOwner) (tunnelId : TunnelId) (stage : TunnelStage) (now nowUnixMs : Nat) :
    Advances w.registry (w.finishWorker owner tunnelId stage now nowUnixMs).2.registry := by
  simpa [TunnelWorld.finishWorker] using
    ManagedTunnelRegistry.advances_finishWorker h hroom owner tunnelId stage now nowUnixMs

/-- A turn of a canceller is at most one operation. -/
theorem advances_cancelAndWait {target : CancelTarget} {phase phase' : CancelPhase}
    (hturn : cancelAndWait x target turn w phase = some (phase', w')) :
    Advances w.registry w'.registry := by
  cases phase with
  | requesting =>
    have hop : Advances w.registry (w.requestCancel target turn.nowUnixMs).2.registry :=
      advances_requestCancel h hroom _ _ _ _
    simp only [cancelAndWait] at hturn
    split at hturn
    · rename_i hresult
      cases hturn
      rwa [hresult] at hop
    · rename_i hresult
      rw [hresult] at hop
      split at hturn <;> (cases hturn; exact hop)
  | listening completion =>
    cases hturn
    exact Advances.refl h
  | looking completion seen =>
    have hop : Advances w.registry (w.snapshots x target.owner (some target.tunnelId)
        target.operationContextId false turn.now).2.registry := advances_snapshots x h _ _ _ _ _
    simp only [cancelAndWait] at hturn
    split at hturn
    · cases hturn
      exact hop
    · split at hturn <;> (cases hturn; exact hop)
  | waiting completion seen =>
    simp only [cancelAndWait] at hturn
    split at hturn
    · cases hturn
      exact Advances.refl h
    · split at hturn
      · cases hturn
        exact Advances.refl h
      · cases hturn
  | finishing =>
    have hop := TunnelWorld.advances_finishWorker h hroom target.owner target.tunnelId .unknown
      turn.now turn.nowUnixMs
    simp only [cancelAndWait] at hturn
    split at hturn <;> rename_i hresult <;> (rw [hresult] at hop; cases hturn; exact hop)
  | reporting =>
    cases hturn
    exact advances_snapshots x h _ _ _ _ _
  | done result => cases hturn

/-- A turn of the shutdown is at most one operation, or it cancels every active tunnel. -/
theorem advances_shutdownAll
    {phase phase' : ShutdownPhase} (hturn : shutdownAll x turn w phase = some (phase', w')) :
    Advances w.registry w'.registry := by
  revert hturn
  fun_cases shutdownAll x turn w phase with
  | case1 targets w1 hcancelled =>
    intro hturn
    cases hturn
    have hop : Advances w.registry (w.cancelAll turn.now turn.nowUnixMs).2.registry :=
      advances_cancelAll h hroom turn.now turn.nowUnixMs
    rwa [hcancelled] at hop
  | case2 =>
    intro hturn
    cases hturn
    exact Advances.refl h
  | case3 =>
    intro hturn
    cases hturn
    exact Advances.refl h
  | case4 target phase rest =>
    intro hturn
    obtain ⟨⟨phase1, w1⟩, hphase, heq⟩ := map_eq_some_iff.mp hturn
    cases heq
    exact advances_cancelAndWait x h hroom hphase
  | case5 target rest =>
    intro hturn
    cases hturn
    exact TunnelWorld.advances_finishWorker h hroom target.owner target.tunnelId .unknown turn.now
      turn.nowUnixMs
  | case6 => nofun

end

end Turns

/-! ## Runs -/

/-- A tunnel is registered with the status that the daemon gives it. -/
def TunnelMove.ByDaemon : TunnelMove → Prop
  | .begin owner status _ _ _ _ => ∃ tunnelId spec ready deadlineUnixMs operationContextId
      nowUnixMs,
      managedTunnelStatus owner tunnelId spec ready deadlineUnixMs operationContextId nowUnixMs =
        .ok status
  | _ => True

/-- The first status of a tunnel has no more than the first revision. -/
theorem revision_managedTunnelStatus {owner : ManagedTunnelOwner} {tunnelId : TunnelId}
    {spec : TunnelSpec} {ready : TunnelReady} {deadlineUnixMs : Nat}
    {operationContextId : Option OperationContextId} {nowUnixMs : Nat} {status : TunnelStatus}
    (h : managedTunnelStatus owner tunnelId spec ready deadlineUnixMs operationContextId nowUnixMs =
      .ok status) : status.revision ≤ 1 := by
  simp only [managedTunnelStatus, bind_eq_ok, pure_eq_ok] at h
  obtain ⟨-, -, -, -, rfl⟩ := h
  dsimp only
  split <;> decide

namespace TunnelConfig

variable {x : Platform} {c c' : TunnelConfig}

/-- **A step.**  Whoever makes it, the registry advances. -/
theorem advances_step (h : c.world.registry.Kept) (hroom : c.world.registry.Room)
    {move : TunnelMove} (hdaemon : move.ByDaemon) (hstep : c.step x move = some c') :
    Advances c.world.registry c'.world.registry := by
  cases move with
  | begin owner status cancellation completion idleGuard now =>
    cases hstep
    obtain ⟨tunnelId, spec, ready, deadlineUnixMs, contextId, nowUnixMs, hstatus⟩ := hdaemon
    exact advances_begin h owner status (revision_managedTunnelStatus hstatus) cancellation
      completion idleGuard now
  | finishWorker owner tunnelId stage now nowUnixMs =>
    cases hstep
    exact TunnelWorld.advances_finishWorker h hroom owner tunnelId stage now nowUnixMs
  | requestCancel target nowUnixMs =>
    cases hstep
    exact advances_requestCancel h hroom _ _ _ _
  | snapshots =>
    cases hstep
    exact advances_snapshots x h _ _ _ _ _
  | cancelAndWait task target =>
    cases hstep
    exact Advances.refl h
  | shutdownAll task =>
    cases hstep
    exact Advances.refl h
  | turn task t =>
    simp only [step, bind_eq_bind, bind_eq_some_iff] at hstep
    obtain ⟨current, -, ⟨next, world⟩, hturn, hlaunch⟩ := hstep
    cases hlaunch
    cases current with
    | cancel target phase =>
      obtain ⟨⟨phase', world'⟩, hphase, heq⟩ := map_eq_some_iff.mp hturn
      cases heq
      exact advances_cancelAndWait x h hroom hphase
    | shutdown phase =>
      obtain ⟨⟨phase', world'⟩, hphase, heq⟩ := map_eq_some_iff.mp hturn
      cases heq
      exact advances_shutdownAll x h hroom hphase
  | rearrange order =>
    cases hstep
    exact advances_thinned h (fun id => .inl (order.find_arrange _ id)) le_rfl

/-- What holds after some moves: the registry is kept, and no revision is higher than their number
    and one. -/
structure Reached (moves : Nat) (c : TunnelConfig) : Prop where
  kept : c.world.registry.Kept
  revisions : c.world.registry.RevisionsLe (moves + 1)

theorem reached_start : Reached 0 start :=
  ⟨kept_empty, fun _ _ hfind => absurd hfind (by simp [start, TunnelWorld.new, empty])⟩

/-- In a run that is not longer than a revision can count, there is room. -/
theorem Reached.room {n : Nat} (h : Reached n c) (hn : n < 2 ^ 64 - 2) :
    c.world.registry.Room := by
  intro id record hfind _ _
  have hle := h.revisions id record hfind
  omega

theorem Reached.advances {n : Nat} (h : Reached n c) (hn : n < 2 ^ 64 - 2) {move : TunnelMove}
    (hdaemon : move.ByDaemon) (hstep : c.step x move = some c') :
    Advances c.world.registry c'.world.registry :=
  advances_step h.kept (h.room hn) hdaemon hstep

/-- **A run.**  What the registry keeps, it keeps to the end. -/
theorem reached_run {n : Nat} {moves : List TunnelMove} (h : Reached n c)
    (hdaemon : ∀ move ∈ moves, move.ByDaemon) (hn : n + moves.length < 2 ^ 64 - 1)
    (hrun : c.run x moves = some c') : Reached (n + moves.length) c' := by
  induction moves generalizing c n with
  | nil =>
    cases hrun
    exact h
  | cons move moves ih =>
    obtain ⟨c1, hstep, hrest⟩ := bind_eq_some_iff.mp hrun
    rw [length_cons] at hn
    have hadvances := h.advances (by omega) (hdaemon move mem_cons_self) hstep
    have h1 : Reached (n + 1) c1 :=
      ⟨hadvances.kept, hadvances.raised (n + 1) (Nat.succ_pos n) h.revisions⟩
    have hend := ih h1 (fun other hother => hdaemon other (mem_cons_of_mem _ hother))
      (by omega) hrest
    rwa [Nat.add_right_comm] at hend

/-- A run in two parts. -/
theorem run_append {first rest : List TunnelMove} (hrun : c.run x (first ++ rest) = some c') :
    ∃ c1, c.run x first = some c1 ∧ c1.run x rest = some c' := by
  induction first generalizing c with
  | nil => exact ⟨c, rfl, hrun⟩
  | cons move first ih =>
    obtain ⟨c1, hstep, hrest⟩ := bind_eq_some_iff.mp hrun
    obtain ⟨c2, hfirst, hlast⟩ := ih hrest
    exact ⟨c2, bind_eq_some_iff.mpr ⟨c1, hstep, hfirst⟩, hlast⟩

end TunnelConfig

/-- **The registry of managed tunnels over every run** of begins, finishes, cancellations,
    snapshots, cancellers and shutdowns that take turns in any way, where tunnels are registered
    with the status that the daemon gives them and the run is not longer than a revision can count:
    in the end, and so after every move, a record is finished exactly where it is closed or unknown
    and holds its idle guard until then, and at most 32 tunnels are active, 8 of an owner, and at
    most 128 finished ones are kept, 16 of an owner.  Every move makes of every record what `Fate`
    says: its status is never changed once it has finished, and its revision is higher where its
    status was changed and it has an operation context. -/
theorem tunnel_registry_runs (x : Platform) (moves : List TunnelMove) (c : TunnelConfig)
    (hrun : TunnelConfig.start.run x moves = some c)
    (hdaemon : ∀ move ∈ moves, move.ByDaemon) (hlength : moves.length < 2 ^ 64 - 1) :
    (∀ id record, c.world.registry.records.find id = some record →
      (record.finishedAt ≠ none ↔
        (record.status.stage = .closed ∨ record.status.stage = .unknown)) ∧
      (record.idleGuard ≠ none ↔ record.finishedAt = none)) ∧
    c.world.registry.records.countP (fun record => record.finishedAt = none) ≤ 32 ∧
    (∀ owner, c.world.registry.records.countP (fun record =>
      record.owner = owner ∧ record.finishedAt = none) ≤ 8) ∧
    c.world.registry.records.countP (fun record => record.finishedAt ≠ none) ≤ 128 ∧
    (∀ owner, c.world.registry.records.countP (fun record =>
      record.owner = owner ∧ record.finishedAt ≠ none) ≤ 16) ∧
    ∀ first move rest before, moves = first ++ move :: rest →
      TunnelConfig.start.run x first = some before →
      ∃ after, before.step x move = some after ∧
        ∀ id record, before.world.registry.records.find id = some record →
          Fate after.world.registry id record := by
  have hkept := (TunnelConfig.reached_run TunnelConfig.reached_start hdaemon (by omega) hrun).kept
  obtain ⟨hactive, hactiveOf, hfinished, hfinishedOf⟩ := hkept.shelved.counts
  refine ⟨fun id record hfind => ?_, hactive, hactiveOf, hfinished, hfinishedOf, ?_⟩
  · have hsound := hkept.sound id record hfind
    exact ⟨hsound.terminal, hsound.guarded⟩
  · intro first move rest before hmoves hfirst
    subst hmoves
    obtain ⟨c1, hfirst1, hlast⟩ := TunnelConfig.run_append hrun
    rw [hfirst] at hfirst1
    cases hfirst1
    rw [length_append, length_cons] at hlength
    -- the state before the move is reached by a run, too
    have hbefore := TunnelConfig.reached_run TunnelConfig.reached_start
      (fun other hother => hdaemon other (mem_append_left _ hother)) (by omega) hfirst
    obtain ⟨after, hstep, -⟩ := bind_eq_some_iff.mp hlast
    exact ⟨after, hstep, (hbefore.advances (by omega) (hdaemon move (by simp)) hstep).fate⟩

/-! ### Two tunnels

The worker of one tunnel closes it just before a canceller that has waited too long would; the
other tunnel, of another owner, is given up by the shutdown.  When the record of the first is old
enough, it is dropped. -/

def probeOwner : ManagedTunnelOwner := ⟨.fill 16 0, 1⟩

def guestOwner : ManagedTunnelOwner := ⟨.fill 16 1, 1⟩

def probeTunnelId : TunnelId := ⟨"123456789abcdef0123456789abcdef0", by decide⟩

def guestTunnelId : TunnelId := ⟨"112233445566778899aabbccddeeff00", by decide⟩

def probeContextId : OperationContextId :=
  ⟨"fedcba9876543210fedcba9876543210fedcba9876543210fedcba9876543210", by decide⟩

/-- A new tunnel to a local port, with an operation context. -/
def probeStatus : TunnelStatus where
  schemaVersion := 1
  tunnelId := probeTunnelId
  profileId := "00000000000000000000000000000000"
  profileGeneration := 1
  mode := .localForward
  bindHost := "127.0.0.1"
  bindPort := 8080
  targetHost := some "127.0.0.1"
  targetPort := 80
  deadlineUnixMs := 1700000900000
  stage := .ready
  updatedUnixMs := 1700000000000
  operationContextId := some probeContextId
  revision := 1

/-- A new tunnel with dynamic targets, without an operation context. -/
def guestStatus : TunnelStatus :=
  { probeStatus with
    tunnelId := guestTunnelId
    profileId := "01010101010101010101010101010101"
    mode := .dynamic
    bindPort := 1080
    targetHost := none
    targetPort := 0
    updatedUnixMs := 1700000000001
    operationContextId := none
    revision := 0 }

/-- The moves of the two owners, the worker, the canceller and the shutdown. -/
def probeMoves : List TunnelMove :=
  [.begin probeOwner probeStatus 0 0 0 5, .begin guestOwner guestStatus 1 1 1 6,
    .cancelAndWait 0 ⟨probeOwner, probeTunnelId, some probeContextId⟩] ++
  replicate 3 (.turn 0 ⟨7, 1700000000002, false⟩) ++
  [.turn 0 ⟨8, 1700000000003, true⟩,
    .finishWorker probeOwner probeTunnelId .closed 8 1700000000003] ++
  replicate 2 (.turn 0 ⟨9, 1700000000004, true⟩) ++
  [.rearrange .reversed, .shutdownAll 1] ++
    replicate 8 (.turn 1 ⟨1000, 1700000000995, true⟩) ++
  [.snapshots guestOwner none none false 900500]

theorem byDaemon_probeMoves : ∀ move ∈ probeMoves, move.ByDaemon := by
  have hprobe : TunnelMove.ByDaemon (.begin probeOwner probeStatus 0 0 0 5) :=
    ⟨probeTunnelId, ⟨.localForward, 8080, 80, 16⟩, ⟨.localForward, "127.0.0.1", 8080⟩,
      1700000900000, some probeContextId, 1700000000000, by rfl⟩
  have hguest : TunnelMove.ByDaemon (.begin guestOwner guestStatus 1 1 1 6) :=
    ⟨guestTunnelId, ⟨.dynamic, 1080, 0, 16⟩, ⟨.dynamic, "127.0.0.1", 1080⟩, 1700000900000, none,
      1700000000001, by rfl⟩
  intro move hmove
  cases move with
  | begin owner status cancellation completion idleGuard now =>
    simp only [probeMoves, mem_append, mem_cons, not_mem_nil, mem_replicate,
      reduceCtorEq, and_false, or_false] at hmove
    rcases hmove with heq | heq
    · exact heq ▸ hprobe
    · exact heq ▸ hguest
  | _ => trivial

theorem probe_tunnel_runs :
    ∃ c record, TunnelConfig.start.run TransferRegistry.mutePlatform probeMoves = some c ∧
      c.world.registry.records.find probeTunnelId = none ∧
      c.world.registry.records.find guestTunnelId = some record ∧
      record.status.stage = .unknown ∧ record.finishedAt ≠ none ∧ record.idleGuard = none := by
  have hrun : (TunnelConfig.start.run TransferRegistry.mutePlatform probeMoves).map (fun c =>
      (c.world.registry.records.find probeTunnelId,
        (c.world.registry.records.find guestTunnelId).map (·.status.stage))) =
      some (none, some .unknown) := by
    decide +kernel
  obtain ⟨c, hc, heq⟩ := map_eq_some_iff.mp hrun
  obtain ⟨hdropped, hstage⟩ := Prod.mk.inj heq
  obtain ⟨record, hfind, hunknown⟩ := map_eq_some_iff.mp hstage
  obtain ⟨hterminal, hguarded⟩ := (tunnel_registry_runs TransferRegistry.mutePlatform
    probeMoves c hc byDaemon_probeMoves (by decide)).1 guestTunnelId record hfind
  have hfinished := hterminal.mpr (.inr hunknown)
  exact ⟨c, record, hc, hdropped, hfind, hunknown, hfinished,
    Classical.not_not.mp fun hguard => hfinished (hguarded.mp hguard)⟩

end Serctl.Daemon
