import Serctl.Daemon.Registry

/-!
# Sequences of calls of the registry of transfers

Any number of profiles call one registry.  What a call may do to the records is said once, id by
id: a record of the caller may move on, a finished record may be dropped for its age or, by a
finish, for the room, and a new transfer may be entered.  What holds in every state that is
reached follows from that.
-/

namespace Serctl.Daemon

open Lib Lib.Guard Ipc List Lib.Table

/-! ## Calls -/

/-- A call for a profile, with the times it reads. -/
inductive TransferCall where
  | begin (profile : String) (progress : TransferProgress) (cancellation now : Nat)
  | update (profile : String) (progress : TransferProgress)
  | finish (profile : String) (progress : TransferProgress) (now : Nat)
  | cancel (profile : String) (transferId : TransferId)
      (operationContextId : Option OperationContextId) (nowUnixMs : Nat)
  | snapshots (profile : String) (transferId : Option TransferId)
      (operationContextId : Option OperationContextId) (enforceContextDiscovery : Bool)
      (now : Nat)

namespace TransferCall

/-- The caller. -/
def profile : TransferCall → String
  | .begin profile .. | .update profile .. | .finish profile .. | .cancel profile ..
  | .snapshots profile .. => profile

/-- The time of the monotonic clock, for the calls that read it. -/
def time : TransferCall → Option Nat
  | .begin _ _ _ now | .finish _ _ now | .snapshots _ _ _ _ now => some now
  | .update .. | .cancel .. => none

/-- The transfer that a call is to change. -/
def changes : TransferCall → Option TransferId
  | .update _ progress | .finish _ progress _ => some progress.transferId
  | .cancel _ transferId .. => some transferId
  | .begin .. | .snapshots .. => none

end TransferCall

/-- What an operation returns. -/
inductive TransferReply where
  | done (result : Except Error Unit)
  | cancelled (result : Except Error TransferProgress)
  | shown (result : Except Error (List TransferProgress))

namespace TransferReply

/-- The operation has succeeded. -/
def accepted : TransferReply → Bool
  | .done result => result.isOk
  | .cancelled result => result.isOk
  | .shown result => result.isOk

/-- The progress of transfers that the caller gets to see. -/
def returned : TransferReply → List TransferProgress
  | .cancelled (.ok progress) => [progress]
  | .shown (.ok transfers) => transfers
  | _ => []

end TransferReply

namespace TransferRegistry

/-- The operations of the registry. -/
def call (x : Platform) (r : TransferRegistry) : TransferCall → TransferReply × TransferRegistry
  | .begin profile progress cancellation now =>
    (.done (r.begin profile progress cancellation now).1,
      (r.begin profile progress cancellation now).2)
  | .update profile progress => (.done (r.update profile progress).1, (r.update profile progress).2)
  | .finish profile progress now =>
    (.done (r.finish profile progress now).1, (r.finish profile progress now).2)
  | .cancel profile transferId operationContextId nowUnixMs =>
    (.cancelled (r.cancel profile transferId operationContextId nowUnixMs).1,
      (r.cancel profile transferId operationContextId nowUnixMs).2.1)
  | .snapshots profile transferId operationContextId enforceContextDiscovery now =>
    (.shown (r.snapshots x profile transferId operationContextId enforceContextDiscovery now).1,
      (r.snapshots x profile transferId operationContextId enforceContextDiscovery now).2)

/-- A call, and the order in which its loops see the records. -/
abbrev OrderedCall := Table.Arrangement TransferId TransferRecord × TransferCall

/-- The same records in another order. -/
def arranged (order : Table.Arrangement TransferId TransferRecord) (r : TransferRegistry) :
    TransferRegistry :=
  { r with records := order.arrange r.records }

/-- The registry after a sequence of calls, each of which sees the records in an order of its
    own. -/
def after (x : Platform) (r : TransferRegistry) (calls : List OrderedCall) : TransferRegistry :=
  calls.foldl (fun r c => ((r.arranged c.1).call x c.2).2) r

/-! ## The bounds and the order of the records -/

/-- How many transfers there may be. -/
def transferLimits : Shelf.Limits where
  activeOverall := maxActiveTransfersGlobal
  activePerOwner := maxActiveTransfersPerProfile
  finishedOverall := maxCompletedTransfersGlobal
  finishedPerOwner := maxCompletedTransfersPerProfile

/-- **What every reachable registry keeps**: records are filed under their own ids, they have been
    finished one after the other, and there are not too many. -/
structure Kept (r : TransferRegistry) (clock : Nat) : Prop where
  filed : ∀ id record, r.records.find id = some record → record.progress.transferId = id
  dated : Shelf.Dated r.records r.nextFinishedOrder clock
  shelved : Shelf.Within transferLimits r.records

theorem kept_empty : empty.Kept 0 where
  filed := fun _ _ h => by simp [empty] at h
  dated := Shelf.dated_empty 0 0
  shelved := Shelf.within_empty _

variable {r : TransferRegistry} {clock : Nat} {records : Records}

theorem Kept.thinned {next clock' : Nat} (h : r.Kept clock)
    (hthinned : Thinned r.records records) (hnext : r.nextFinishedOrder ≤ next)
    (hclock : clock ≤ clock') : Kept ⟨records, next⟩ clock' where
  filed := fun id record hfind => h.filed id record (hthinned.find_of_find hfind)
  dated := (h.dated.thinned hthinned).later hnext hclock
  shelved := h.shelved.carried (Shelf.Carried.of_thinned hthinned)

variable {record' : TransferRecord}

theorem Kept.put {transferId : TransferId} {record : TransferRecord} (h : r.Kept clock)
    (hfind : r.records.find transferId = some record) (halike : Shelf.Alike record record')
    (hid : record'.progress.transferId = transferId) : (r.put transferId record').Kept clock where
  filed := forall_insert h.filed hid
  dated := h.dated.carried (Shelf.Carried.insert hfind halike)
  shelved := h.shelved.carried (Shelf.Carried.insert hfind halike)

theorem thinned_of_aged {r' : TransferRegistry} {now : Nat} (h : r.Aged now r') :
    Thinned r.records r'.records := by
  rcases h with rfl | ⟨hrecords, -⟩
  · exact Shelf.Thinned.refl _
  · rw [hrecords]
    exact thinned_pruneLocked _ _

theorem Kept.aged {r' : TransferRegistry} {now : Nat} (h : r.Kept clock) (haged : r.Aged now r')
    (hclock : clock ≤ now) : r'.Kept now := by
  have hnext : r.nextFinishedOrder ≤ r'.nextFinishedOrder := by
    rcases haged with rfl | ⟨-, hnext⟩
    · exact le_rfl
    · exact hnext
  exact h.thinned (thinned_of_aged haged) hnext hclock

theorem Kept.pruned {now : Nat} (h : r.Kept clock) (hclock : clock ≤ now) :
    Kept { r with records := pruneLocked r.records now } now :=
  h.thinned (thinned_pruneLocked _ _) le_rfl hclock

variable {progress : TransferProgress}

/-- The room that is checked is the room that the limits leave. -/
theorem room_of_checkRoom {profile : String} (h : checkRoom records profile progress = .ok ()) :
    records.countP (Shelf.isActiveOf none) < transferLimits.activeOverall ∧
      records.countP (Shelf.isActiveOf (some profile)) < transferLimits.activePerOwner := by
  obtain ⟨hoverall, hprofile, -⟩ := checkRoom_eq_ok h
  rw [Shelf.isActiveOf_none]
  exact ⟨hoverall, hprofile⟩

theorem finished_of_replaceProgress {record : TransferRecord} {profile : String}
    (h : replaceProgress record profile progress = .ok record') :
    record'.profile = profile ∧ record'.progress.transferId = progress.transferId := by
  obtain ⟨hprofile, -, -, rfl⟩ := replaceProgress_eq_ok h
  exact ⟨hprofile, rfl⟩

/-! ## What becomes of a record -/

/-- What a call for a profile may make of a record that stays. -/
structure Moved (profile : String) (record record' : TransferRecord) : Prop where
  owner : record'.profile = record.profile
  confirmed : record.progress.confirmedBytes ≤ record'.progress.confirmedBytes
  context : record'.progress.operationContextId = record.progress.operationContextId
  revised : record'.progress = record.progress ∨
    record.progress.revision < record'.progress.revision
  others : record.profile ≠ profile → record' = record

theorem Moved.refl (profile : String) (record : TransferRecord) : Moved profile record record :=
  ⟨rfl, le_rfl, rfl, .inl rfl, fun _ => rfl⟩

/-- The record was finished 15 minutes ago or earlier. -/
def Expired (c : TransferCall) (record : TransferRecord) : Prop :=
  ∃ now finished, c.time = some now ∧ record.finishedAt = some finished ∧
    15 * 60 * 1000 ≤ now - finished

/-- **A finish for which the record has to go**: with the record that is `updated` by it there are
    too many of the profile or too many overall, and among those that are then `present` this one
    was finished first. -/
def Evicted (x : Platform) (r : TransferRegistry) (c : TransferCall) (id : TransferId)
    (record : TransferRecord) : Prop :=
  ∃ profile progress now updated present, c = .finish profile progress now ∧
    (r.call x c).2.records.find progress.transferId = some updated ∧
    Thinned ((pruneLocked r.records now).insert progress.transferId updated) present ∧
    Thinned present (r.call x c).2.records ∧
    (Shelf.Due 16 (some profile) present id record ∨ Shelf.Due 256 none present id record)

/-- The id is not in use, or it has just been entered anew. -/
def Vacated (c : TransferCall) (id : TransferId) (records : Records) : Prop :=
  records.find id = none ∨ ∃ profile progress cancellation now,
    c = .begin profile progress cancellation now ∧ progress.transferId = id ∧
      records.find id = some (newRecord profile progress cancellation)

/-- **What a call makes of a record**: it stays and moves on, it is too old, or it has to make
    room. -/
inductive Fate (x : Platform) (r : TransferRegistry) (c : TransferCall) (id : TransferId)
    (record : TransferRecord) : Prop
  | stays (record' : TransferRecord) :
      (r.call x c).2.records.find id = some record' → Moved c.profile record record' →
      Fate x r c id record
  | expires : Expired c record → Vacated c id (r.call x c).2.records → Fate x r c id record
  | evicted : (r.call x c).2.records.find id = none → Evicted x r c id record →
      Fate x r c id record

/-- A record that is gone and is not old had to make room. -/
theorem Fate.evicted_of_gone {x : Platform} {r : TransferRegistry} {c : TransferCall}
    {id : TransferId} {record : TransferRecord} (h : Fate x r c id record)
    (hgone : (r.call x c).2.records.find id = none) (hyoung : ¬Expired c record) :
    Evicted x r c id record := by
  cases h with
  | stays record' hfind =>
    rw [hgone] at hfind
    cases hfind
  | expires hexpired => exact absurd hexpired hyoung
  | evicted _ hevicted => exact hevicted

theorem moved_replaceProgress {record : TransferRecord} {profile : String}
    (h : replaceProgress record profile progress = .ok record') :
    Moved profile record record' ∧ record.progress.revision < record'.progress.revision := by
  obtain ⟨hprofile, hconfirmed, hcontext, rfl⟩ := replaceProgress_eq_ok h
  have hraised : record.progress.revision < record.progress.revision + 1 := Nat.lt_succ_self _
  exact ⟨⟨rfl, hconfirmed, hcontext, .inr hraised, fun hother => absurd hprofile hother⟩, hraised⟩

/-- A record is kept when the old ones are dropped, or it is one of them. -/
theorem find_pruneLocked_or {id : TransferId} {record : TransferRecord}
    (hfind : r.records.find id = some record) (now : Nat) :
    (pruneLocked r.records now).find id = some record ∨
      (pruneLocked r.records now).find id = none ∧
        ∃ finished, record.finishedAt = some finished ∧ 15 * 60 * 1000 ≤ now - finished := by
  rcases (thinned_pruneLocked r.records now).find_or hfind with hsame | ⟨hgone, -⟩
  · exact .inl hsame
  · exact .inr ⟨hgone, Shelf.old_of_prune hfind hgone⟩

variable {x : Platform} {id : TransferId} {record : TransferRecord} {c : TransferCall}

/-- What a call keeps, and what it makes of the records. -/
structure Advances (x : Platform) (r : TransferRegistry) (clock : Nat) (c : TransferCall) :
    Prop where
  kept : (r.call x c).2.Kept (c.time.getD clock)
  fate : ∀ id record, r.records.find id = some record → Fate x r c id record

section

variable (h : r.Kept clock)

include h

theorem advances_same (htime : c.time = none) (hsame : (r.call x c).2 = r) :
    Advances x r clock c where
  kept := by
    rw [htime, hsame]
    exact h
  fate := fun id record hfind => .stays record (by rw [hsame]; exact hfind) (Moved.refl _ _)

/-- A call that has only dropped old records. -/
theorem advances_aged {now : Nat} (htime : c.time = some now)
    (hclock : clock ≤ now) (haged : r.Aged now (r.call x c).2) : Advances x r clock c where
  kept := by
    rw [htime]
    exact h.aged haged hclock
  fate := by
    intro id record hfind
    rcases haged with hsame | ⟨hrecords, -⟩
    · exact .stays record (by rw [hsame]; exact hfind) (Moved.refl _ _)
    · rcases find_pruneLocked_or hfind now with hkept | ⟨hgone, finished, hat, hold⟩
      · exact .stays record (by rw [hrecords]; exact hkept) (Moved.refl _ _)
      · exact .expires ⟨now, finished, htime, hat, hold⟩ (.inl (by rw [hrecords]; exact hgone))

/-- A call that has replaced one record. -/
theorem advances_put {transferId : TransferId} {old new : TransferRecord}
    (htime : c.time = none) (hcall : (r.call x c).2 = r.put transferId new)
    (hold : r.records.find transferId = some old) (hmoved : Moved c.profile old new)
    (halike : Shelf.Alike old new) (hid : new.progress.transferId = transferId) :
    Advances x r clock c where
  kept := by
    rw [htime, hcall]
    exact h.put hold halike hid
  fate := by
    intro id record hfind
    by_cases hid : id = transferId
    · subst hid
      rw [hold] at hfind
      cases hfind
      exact .stays new (by rw [hcall, put, find_insert, if_pos rfl]) hmoved
    · exact .stays record (by rw [hcall, put, find_insert, if_neg hid]; exact hfind)
        (Moved.refl _ _)

/-! ### Each call -/

theorem advances_update (profile : String) (progress : TransferProgress) :
    Advances x r clock (.update profile progress) := by
  rcases update_cases r profile progress with ⟨e, heq⟩ | ⟨old, new, -, hold, hreplace, heq⟩
  · exact advances_same h rfl (by rw [call, heq])
  · have hmoved := (moved_replaceProgress hreplace).1
    obtain ⟨-, -, -, rfl⟩ := replaceProgress_eq_ok hreplace
    exact advances_put h rfl (by rw [call, heq]) hold hmoved ⟨rfl, rfl, rfl⟩ rfl

theorem advances_cancel (profile : String) (transferId : TransferId)
    (operationContextId : Option OperationContextId) (nowUnixMs : Nat) :
    Advances x r clock (.cancel profile transferId operationContextId nowUnixMs) := by
  rcases cancel_cases r profile transferId operationContextId nowUnixMs with
    ⟨e, triggered, heq⟩ | ⟨old, revision, hold, -, hprofile, hrevision, heq⟩
  · exact advances_same h rfl (by rw [call, heq])
  · have hmoved : Moved profile old (cancelRequested old revision nowUnixMs) :=
      ⟨rfl, le_rfl, rfl, .inr (hrevision ▸ Nat.lt_succ_self _),
        fun hother => absurd hprofile hother⟩
    exact advances_put h rfl (by rw [call, heq]) hold hmoved ⟨rfl, rfl, rfl⟩
      (h.filed transferId old hold)

/-- A new transfer is entered where there is room for it. -/
theorem advances_begin (profile : String) (progress : TransferProgress)
    (cancellation : Nat) {now : Nat} (hclock : clock ≤ now) :
    Advances x r clock (.begin profile progress cancellation now) := by
  rcases begin_cases r profile progress cancellation now with
    ⟨e, r', heq, haged⟩ | ⟨-, hroom, heq⟩
  · exact advances_aged h rfl hclock (by rw [call, heq]; exact haged)
  · have hpruned := h.pruned hclock
    obtain ⟨hoverall, hprofile⟩ := room_of_checkRoom hroom
    refine ⟨?_, fun id record hfind => ?_⟩
    · rw [call, heq]
      exact ⟨forall_insert hpruned.filed rfl, hpruned.dated.insert_active _ rfl,
        hpruned.shelved.insert_active rfl hoverall hprofile⟩
    · rcases find_pruneLocked_or hfind now with hkept | ⟨hgone, finished, hat, hold⟩
      · -- the new transfer has an id that is not in use
        have hne : id ≠ progress.transferId := by
          rintro rfl
          rw [(checkRoom_eq_ok hroom).2.2] at hkept
          cases hkept
        refine .stays record ?_ (Moved.refl _ _)
        rw [call, heq, put, find_insert, if_neg hne]
        exact hkept
      · refine .expires ⟨now, finished, rfl, hat, hold⟩ ?_
        rw [call, heq, put]
        by_cases hid : id = progress.transferId
        · subst hid
          refine .inr ⟨profile, progress, cancellation, now, rfl, rfl, ?_⟩
          rw [find_insert, if_pos rfl]
        · refine .inl ?_
          rw [find_insert, if_neg hid]
          exact hgone

/-- A transfer is finished, and the oldest ones make room for it. -/
theorem advances_finish (profile : String) (progress : TransferProgress)
    {now : Nat} (hclock : clock ≤ now) : Advances x r clock (.finish profile progress now) := by
  rcases finish_cases r profile progress now with
    ⟨e, r', heq, haged⟩ | ⟨old, new, -, hold, hreplace, heq⟩
  · exact advances_aged h rfl hclock (by rw [call, heq]; exact haged)
  · have hpruned := h.pruned hclock
    obtain ⟨hprofile, hfiled⟩ := finished_of_replaceProgress hreplace
    let updated := stamped new now r.nextFinishedOrder
    have hdated := hpruned.dated.insert_finished le_rfl progress.transferId
      (v := updated) rfl rfl
    have hcall : (r.call x (.finish profile progress now)).2 = ⟨enforceFinishedCapsLocked
        ((pruneLocked r.records now).insert progress.transferId updated) profile,
        r.nextFinishedOrder + 1⟩ := by
      rw [call, heq]
    have hthinned := thinned_enforceFinishedCapsLocked
      ((pruneLocked r.records now).insert progress.transferId updated) profile
    -- what is finished now is still there
    have hupdated : (r.call x (.finish profile progress now)).2.records.find
        progress.transferId = some updated := by
      rw [hcall, ← hprofile]
      exact hpruned.dated.find_finish (v := updated) le_rfl rfl rfl (by decide)
        (by decide)
    refine ⟨?_, fun id record hfind => ?_⟩
    · rw [hcall]
      refine ⟨fun id other hother => ?_, hdated.thinned hthinned, ?_⟩
      · exact forall_insert (v := updated) hpruned.filed hfiled id other
          (hthinned.find_of_find hother)
      · rw [← hprofile]
        exact hpruned.shelved.finish (v := updated) rfl
    · rcases find_pruneLocked_or hfind now with hkept | ⟨hgone, finished, hat, hage⟩
      · by_cases hid : id = progress.transferId
        · subst hid
          rw [hold] at hkept
          cases hkept
          have hmoved := (moved_replaceProgress hreplace).1
          exact .stays updated hupdated ⟨hmoved.owner, hmoved.confirmed, hmoved.context,
            hmoved.revised, fun hother => absurd (replaceProgress_eq_ok hreplace).1 hother⟩
        · have hthere : ((pruneLocked r.records now).insert progress.transferId updated).find id =
              some record := by
            rw [find_insert, if_neg hid]
            exact hkept
          rcases hthinned.find_or hthere with hsame | ⟨hgone, -⟩
          · exact .stays record (by rw [hcall, hsame]) (Moved.refl _ _)
          · obtain ⟨present, hbefore, hafter, hdue⟩ := Shelf.due_of_enforceCaps hdated hthere hgone
            refine .evicted (by rw [hcall]; exact hgone) ?_
            refine ⟨profile, progress, now, updated, present, rfl, hupdated, hbefore, ?_, hdue⟩
            rw [hcall]
            exact hafter
      · have hid : id ≠ progress.transferId := by
          rintro rfl
          rw [hgone] at hold
          cases hold
        refine .expires ⟨now, finished, rfl, hat, hage⟩ (.inl ?_)
        rw [hcall]
        apply hthinned.find_none
        rw [find_insert, if_neg hid]
        exact hgone

/-! ### Snapshots -/

end

theorem find_of_mem_matching {profile : String}
    {transferId : Option TransferId} (h : (id, record) ∈ matching records profile transferId) :
    records.find id = some record ∧ record.profile = profile := by
  simp only [matching, mem_filter, decide_eq_true_eq, mem_entries] at h
  exact ⟨h.1, h.2.1⟩

section

variable {profile : String} {transferId : Option TransferId}
  {operationContextId : Option OperationContextId} {enforceContextDiscovery : Bool} {now : Nat}

/-- What is shown are the records that are visited. -/
theorem mem_snapshots {shown : List TransferProgress} {p : TransferProgress}
    (h : (r.snapshots x profile transferId operationContextId enforceContextDiscovery now).1 =
      .ok shown) :
    p ∈ shown ↔ ∃ entry ∈ matching (pruneLocked r.records now) profile transferId,
      entry.2.progress = p := by
  simp only [snapshots, bind_eq_ok] at h
  obtain ⟨visited, hvisited, hchecked⟩ := h
  simp only [checkSnapshots, bind_eq_ok, ensure_eq_ok, pure_eq_ok] at hchecked
  obtain ⟨-, -, -, -, rfl⟩ := hchecked
  rw [mem_mergeSort, Snapshot.visit_eq_ok hvisited, mem_map]
  rfl

variable (x profile transferId operationContextId enforceContextDiscovery now) in
/-- What a snapshot makes of the records. -/
theorem find_snapshots (hfind : (pruneLocked r.records now).find id = some record) :
    ∃ record', (r.snapshots x profile transferId operationContextId enforceContextDiscovery
        now).2.records.find id = some record' ∧ Moved profile record record' ∧
      record'.progress = record.progress := by
  simp only [snapshots, Snapshot.find_discover, hfind, Option.map_some]
  refine ⟨_, rfl, ?_⟩
  split
  · rename_i hdiscovered
    obtain ⟨other, hother⟩ := Snapshot.mem_of_mem_discovered hdiscovered
    obtain ⟨hsame, hprofile⟩ := find_of_mem_matching hother
    rw [hfind] at hsame
    cases hsame
    exact ⟨⟨rfl, le_rfl, rfl, .inl rfl, fun hne => absurd hprofile hne⟩, rfl⟩
  · exact ⟨Moved.refl _ _, rfl⟩

theorem advances_snapshots (h : r.Kept clock) (hclock : clock ≤ now) : Advances x r clock
    (.snapshots profile transferId operationContextId enforceContextDiscovery now) where
  kept := by
    have hpruned := h.pruned hclock
    -- a record that was shown has the same progress and stamps
    have hmark : ∀ id record', (r.snapshots x profile transferId operationContextId
        enforceContextDiscovery now).2.records.find id = some record' →
          ∃ record, (pruneLocked r.records now).find id = some record ∧
            record'.progress = record.progress ∧ Shelf.Alike record record' := by
      intro id record' hfind
      simp only [snapshots, Snapshot.find_discover, Option.map_eq_some_iff] at hfind
      obtain ⟨record, hrecord, rfl⟩ := hfind
      refine ⟨record, hrecord, ?_⟩
      split
      · exact ⟨rfl, rfl, rfl, rfl⟩
      · exact ⟨rfl, Shelf.Alike.refl record⟩
    have hcarried : Shelf.Carried (pruneLocked r.records now) _ := fun id record' hfind => by
      obtain ⟨record, hrecord, -, halike⟩ := hmark id record' hfind
      exact ⟨record, hrecord, halike⟩
    refine ⟨?_, hpruned.dated.carried hcarried, hpruned.shelved.carried hcarried⟩
    intro id record' hfind
    obtain ⟨record, hrecord, hprogress, -⟩ := hmark id record' hfind
    rw [hprogress]
    exact hpruned.filed id record hrecord
  fate := by
    intro id record hfind
    rcases find_pruneLocked_or hfind now with hkept | ⟨hgone, finished, hat, hold⟩
    · obtain ⟨record', hfind', hmoved, -⟩ := find_snapshots x profile transferId
        operationContextId enforceContextDiscovery now hkept
      exact .stays record' hfind' hmoved
    · refine .expires ⟨now, finished, rfl, hat, hold⟩ (.inl ?_)
      simp only [call, snapshots, Snapshot.find_discover, hgone, Option.map_none]

end

section

variable (h : r.Kept clock) (c : TransferCall) (hclock : ∀ now, c.time = some now → clock ≤ now)

include h hclock

/-- **Every call keeps the bounds and the order, and makes of every record what `Fate` says.** -/
theorem advances_call : Advances x r clock c := by
  cases c with
  | begin profile progress cancellation now => exact advances_begin h _ _ _ (hclock now rfl)
  | update profile progress => exact advances_update h _ _
  | finish profile progress now => exact advances_finish h _ _ (hclock now rfl)
  | cancel => exact advances_cancel h _ _ _ _
  | snapshots => exact advances_snapshots h (hclock _ rfl)

/-! ### What a call answers -/

/-- **An accepted change raises the revision** of the record, which is still there. -/
theorem revision_of_accepted (hchanges : c.changes = some id)
    (haccepted : (r.call x c).1.accepted = true) :
    ∃ record record', r.records.find id = some record ∧
      (r.call x c).2.records.find id = some record' ∧
      record.progress.revision < record'.progress.revision := by
  cases c with
  | begin | snapshots => cases hchanges
  | update profile progress =>
    cases hchanges
    rcases update_cases r profile progress with ⟨e, heq⟩ | ⟨old, new, -, hold, hreplace, heq⟩
    · rw [call, heq] at haccepted
      cases haccepted
    · refine ⟨old, new, hold, ?_, (moved_replaceProgress hreplace).2⟩
      rw [call, heq, put, find_insert, if_pos rfl]
  | cancel profile transferId operationContextId nowUnixMs =>
    cases hchanges
    rcases cancel_cases r profile id operationContextId nowUnixMs with
      ⟨e, triggered, heq⟩ | ⟨old, revision, hold, -, -, hrevision, heq⟩
    · rw [call, heq] at haccepted
      cases haccepted
    · refine ⟨old, cancelRequested old revision nowUnixMs, hold, ?_,
        hrevision ▸ Nat.lt_succ_self _⟩
      rw [call, heq, put, find_insert, if_pos rfl]
  | finish profile progress now =>
    cases hchanges
    rcases finish_cases r profile progress now with
      ⟨e, r', heq, -⟩ | ⟨old, new, -, hold, hreplace, heq⟩
    · rw [call, heq] at haccepted
      cases haccepted
    · have hpruned := h.pruned (hclock now rfl)
      obtain ⟨hprofile, -⟩ := finished_of_replaceProgress hreplace
      refine ⟨old, stamped new now r.nextFinishedOrder,
        (thinned_pruneLocked _ _).find_of_find hold, ?_, (moved_replaceProgress hreplace).2⟩
      rw [call, heq]
      subst hprofile
      exact hpruned.dated.find_finish (v := stamped new now r.nextFinishedOrder)
        le_rfl rfl rfl (by decide) (by decide)

/-- **A caller sees records of its own profile only**, as they are after the call. -/
theorem own_of_returned {p : TransferProgress} (hreturned : p ∈ (r.call x c).1.returned) :
    ∃ record, (r.call x c).2.records.find p.transferId = some record ∧
      record.profile = c.profile ∧ record.progress = p := by
  cases c with
  | begin | update | finish => cases hreturned
  | cancel profile transferId operationContextId nowUnixMs =>
    rcases cancel_cases r profile transferId operationContextId nowUnixMs with
      ⟨e, triggered, heq⟩ | ⟨old, revision, hold, -, hprofile, -, heq⟩
    · rw [call, heq] at hreturned
      cases hreturned
    · rw [call, heq] at hreturned ⊢
      cases mem_singleton.mp hreturned
      have hid : (cancelRequested old revision nowUnixMs).progress.transferId = transferId :=
        h.filed transferId old hold
      refine ⟨cancelRequested old revision nowUnixMs, ?_, hprofile, rfl⟩
      rw [put, find_insert, if_pos hid]
  | snapshots profile transferId operationContextId enforceContextDiscovery now =>
    -- what is shown are the records of the profile, in the order of their ids
    have hshown : ∃ shown, (r.snapshots x profile transferId operationContextId
        enforceContextDiscovery now).1 = .ok shown ∧ p ∈ shown := by
      simp only [call] at hreturned
      cases hresult : (r.snapshots x profile transferId operationContextId
          enforceContextDiscovery now).1 with
      | error e =>
        rw [hresult] at hreturned
        cases hreturned
      | ok shown =>
        rw [hresult] at hreturned
        exact ⟨shown, rfl, hreturned⟩
    obtain ⟨shown, hresult, hmem⟩ := hshown
    obtain ⟨⟨id, record⟩, hentry, rfl⟩ := (mem_snapshots hresult).mp hmem
    obtain ⟨hfind, hprofile⟩ := find_of_mem_matching hentry
    obtain ⟨record', hfind', hmoved, hprogress⟩ := find_snapshots x profile transferId
      operationContextId enforceContextDiscovery now hfind
    have hid : record.progress.transferId = id := (h.pruned (hclock now rfl)).filed id record hfind
    refine ⟨record', ?_, hmoved.owner.trans hprofile, hprogress⟩
    show (r.snapshots x profile transferId operationContextId enforceContextDiscovery
      now).2.records.find record.progress.transferId = some record'
    rw [hid]
    exact hfind'

/-! ## Sequences of calls -/

end

/-- The times that are read by a sequence of calls. -/
def times (calls : List OrderedCall) : List Nat := calls.filterMap fun call => call.2.time

/-- The clock does not go back from `clock` on. -/
def Timed (clock : Nat) (calls : List OrderedCall) : Prop :=
  (clock :: times calls).Pairwise (· ≤ ·)

variable {calls : List OrderedCall} {order : Table.Arrangement TransferId TransferRecord}

/-- What is kept does not depend on the order. -/
theorem Kept.arranged (h : r.Kept clock) (order : Table.Arrangement TransferId TransferRecord) :
    (r.arranged order).Kept clock :=
  h.thinned (fun id => .inl (order.find_arrange r.records id)) le_rfl le_rfl

theorem timed_cons (h : Timed clock ((order, c) :: calls)) :
    (∀ now, c.time = some now → clock ≤ now) ∧ Timed (c.time.getD clock) calls := by
  unfold Timed times at h ⊢
  cases htime : c.time with
  | none =>
    rw [filterMap_cons_none (by exact htime)] at h
    exact ⟨nofun, h⟩
  | some now =>
    rw [filterMap_cons_some (by exact htime), pairwise_cons] at h
    refine ⟨?_, h.2⟩
    intro now' heq
    cases heq
    exact h.1 now mem_cons_self

/-- Before every call of a sequence the registry keeps what it has to. -/
theorem kept_before (h : r.Kept clock) (htimed : Timed clock calls)
    {first rest : List OrderedCall} (hcalls : calls = first ++ (order, c) :: rest) :
    ∃ clock', ((r.after x first).arranged order).Kept clock' ∧
      ∀ now, c.time = some now → clock' ≤ now := by
  subst hcalls
  induction first generalizing r clock with
  | nil => exact ⟨clock, h.arranged order, (timed_cons htimed).1⟩
  | cons call first ih =>
    obtain ⟨order', c'⟩ := call
    obtain ⟨hclock, hrest⟩ := timed_cons htimed
    exact ih (advances_call (h.arranged order') c' hclock).kept hrest

theorem kept_after (h : r.Kept clock) (htimed : Timed clock calls) :
    ∃ clock', (r.after x calls).Kept clock' := by
  induction calls generalizing r clock with
  | nil => exact ⟨clock, h⟩
  | cons call calls ih =>
    obtain ⟨order, c⟩ := call
    obtain ⟨hclock, hrest⟩ := timed_cons htimed
    exact ih (advances_call (h.arranged order) c hclock).kept hrest

/-- **The registry of transfers over every sequence of calls** of any number of profiles, with
    times that do not go back and with the records in any order at every call: there are at most
    48 active records, 8 of a profile, and at most 256 finished ones, 16 of a profile.  A call makes
    of every record what `Fate` says: it stays with its owner and its context, confirms no less, has
    a higher revision where its progress has changed, and is the same where it is not the caller's;
    or it was finished 15 minutes ago or earlier; or it is the first that was finished where there
    are too many.  An accepted change raises the revision, and a caller sees only its own
    records. -/
theorem transfer_registry_runs (x : Platform) (calls : List OrderedCall)
    (hclock : (times calls).Pairwise (· ≤ ·)) :
    (empty.after x calls).records.countP (fun record => record.finishedAt = none) ≤ 48 ∧
    (∀ profile, (empty.after x calls).records.countP (fun record =>
      record.profile = profile ∧ record.finishedAt = none) ≤ 8) ∧
    (empty.after x calls).records.countP (fun record => record.finishedAt ≠ none) ≤ 256 ∧
    (∀ profile, (empty.after x calls).records.countP (fun record =>
      record.profile = profile ∧ record.finishedAt ≠ none) ≤ 16) ∧
    ∀ first order c rest, calls = first ++ (order, c) :: rest →
      let r := (empty.after x first).arranged order
      (∀ id record, r.records.find id = some record → Fate x r c id record) ∧
      (∀ id, c.changes = some id → (r.call x c).1.accepted = true →
        ∃ record record', r.records.find id = some record ∧
          (r.call x c).2.records.find id = some record' ∧
          record.progress.revision < record'.progress.revision) ∧
      ∀ p ∈ (r.call x c).1.returned,
        ∃ record, (r.call x c).2.records.find p.transferId = some record ∧
          record.profile = c.profile ∧ record.progress = p := by
  have htimed : Timed 0 calls := pairwise_cons.mpr ⟨fun _ _ => Nat.zero_le _, hclock⟩
  obtain ⟨_, hkept⟩ := kept_after (x := x) kept_empty htimed
  obtain ⟨hactive, hactiveOf, hfinished, hfinishedOf⟩ := hkept.shelved.counts
  refine ⟨hactive, hactiveOf, hfinished, hfinishedOf, ?_⟩
  intro first order c rest hcalls
  obtain ⟨clock, hbefore, hnow⟩ := kept_before (x := x) kept_empty htimed hcalls
  refine ⟨(advances_call hbefore c hnow).fate, ?_, ?_⟩
  · exact fun id hchanges haccepted => revision_of_accepted hbefore c hnow hchanges haccepted
  · exact fun p hp => own_of_returned hbefore c hnow hp

/-! ### One transfer -/

def probeId : TransferId := ⟨"0123456789abcdef0123456789abcdef", by decide⟩

/-- The progress of a small transfer. -/
def probe (stage : TransferStage) (confirmed : Nat) : TransferProgress where
  schemaVersion := 1
  event := "progress"
  transferId := probeId
  operationContextId := none
  revision := 0
  direction := .push
  stage := stage
  totalBytes := 9
  confirmedBytes := confirmed
  durableBytes := 0
  windowBps := .finite 0
  averageBps := .finite 0
  etaMs := none
  backend := .native
  chunkBytes := 4
  windowBytes := 4
  updatedUnixMs := 1700000000000

/-- One of 18 identifiers. -/
def numbered (n : Fin 18) : TransferId where
  val := "000000000000000000000000000000" ++
    (if n.val < 10 then "0" else "1") ++ toString (n.val % 10)
  property := by revert n; decide

/-- A transfer of its own number. -/
def probeOf (n : Fin 18) (stage : TransferStage) (confirmed : Nat) : TransferProgress :=
  { probe stage confirmed with transferId := numbered n }

/-- One profile has 17 transfers one after the other, another one has a transfer that it cancels
    meanwhile; every second call sees the records in the reverse order. -/
def probeCalls : List OrderedCall :=
  ((List.finRange 17).flatMap fun n =>
    [(.kept, .begin "edge" (probeOf n.castSucc .negotiating 0) n.val (2 * n.val)),
      (.reversed, .finish "edge" (probeOf n.castSucc .completed 9) (2 * n.val + 1))]) ++
  [(.kept, .begin "core" (probeOf 17 .negotiating 0) 17 40),
    (.reversed, .cancel "core" (numbered 17) none 1700000000001),
    (.reversed, .snapshots "edge" none none false (16 * 60 * 1000))]

/-- The registry before the 17th transfer of the first profile is finished. -/
def probeFull : TransferRegistry :=
  (empty.after mutePlatform (probeCalls.take 33)).arranged .reversed

/-- The call that finishes it. -/
def probeLast : TransferCall := .finish "edge" (probeOf 16 .completed 9) 33

/-- **A first transfer that has to make room**, when 17 of its profile have finished. -/
theorem probe_registry_runs :
    (times probeCalls).Pairwise (· ≤ ·) ∧
    (empty.after mutePlatform (probeCalls.take 36)).records.countP (fun record =>
      record.finishedAt ≠ none) = 16 ∧
    (∃ record, probeFull.records.find (numbered 0) = some record ∧
      Evicted mutePlatform probeFull probeLast (numbered 0) record) ∧
    (empty.after mutePlatform probeCalls).records.entries.map Prod.fst = [numbered 17] := by
  have hclock : (times probeCalls).Pairwise (· ≤ ·) := by decide
  have hfate : ∀ record, probeFull.records.find (numbered 0) = some record →
      Fate mutePlatform probeFull probeLast (numbered 0) record :=
    ((transfer_registry_runs mutePlatform probeCalls hclock).2.2.2.2
      (probeCalls.take 33) .reversed probeLast (probeCalls.drop 34) (by rfl)).1 (numbered 0)
  have hthere : (probeFull.records.find (numbered 0)).isSome = true := by decide +kernel
  have hgone : (probeFull.call mutePlatform probeLast).2.records.find (numbered 0) = none := by
    decide +kernel
  obtain ⟨record, hrecord⟩ := Option.isSome_iff_exists.mp hthere
  refine ⟨hclock, by decide +kernel, ⟨record, hrecord, ?_⟩, by decide +kernel⟩
  refine (hfate record hrecord).evicted_of_gone hgone ?_
  -- the clock shows 33 ms
  rintro ⟨now, finished, hnow, -, hold⟩
  cases hnow
  omega

/-! ## Snapshots that fail -/

/-- The call comes to a record with a context that is not known yet, and none is given. -/
def Discovers (r : TransferRegistry) (profile : String) (transferId : Option TransferId)
    (operationContextId : Option OperationContextId) (enforceContextDiscovery : Bool)
    (now : Nat) : Prop :=
  (operationContextId = none ∧ enforceContextDiscovery = true) ∧
    Snapshot.fresh (matching (pruneLocked r.records now) profile transferId) ≠ []

/-- **Failed snapshots.**  A call that fails leaves the records as they are, but for the expired
    ones, unless it comes to a context that is not known yet: that one counts as discovered.  In all
    other cases a context counts as discovered only if a call that succeeds returns the record. -/
theorem failed_snapshots_leave_records_iff (x : Platform) (r : TransferRegistry) (profile : String)
    (transferId : Option TransferId) (operationContextId : Option OperationContextId)
    (enforceContextDiscovery : Bool) (now : Nat) :
    let call := r.snapshots x profile transferId operationContextId enforceContextDiscovery now
    let discovers :=
      Discovers r profile transferId operationContextId enforceContextDiscovery now
    (∀ e, call.1 = .error e → (call.2.records = pruneLocked r.records now ↔ ¬discovers)) ∧
    ∀ id record, call.2.records.find id = some record → record.contextDiscovered = true →
      (∃ before, r.records.find id = some before ∧ before.contextDiscovered = true) ∨
      (∃ shown, call.1 = .ok shown ∧ record.progress ∈ shown) ∨
      ((∃ e, call.1 = .error e) ∧ discovers) := by
  intro call discovers
  have hvisit := Snapshot.visit_discovered operationContextId enforceContextDiscovery
    (matching (pruneLocked r.records now) profile transferId)
  have hrecords : call.2.records = Snapshot.discover (pruneLocked r.records now)
      (Snapshot.visit operationContextId enforceContextDiscovery
        (matching (pruneLocked r.records now) profile transferId)).2 := rfl
  refine ⟨fun e he => ⟨?_, ?_⟩, ?_⟩
  · rintro hsame ⟨hnone, hfresh⟩
    obtain ⟨⟨id, record⟩, hmem⟩ := exists_mem_of_ne_nil _ hfresh
    obtain ⟨hentry, hunknown⟩ := Snapshot.mem_of_mem_fresh hmem
    have hfind := (find_of_mem_matching hentry).1
    -- the record is found with another flag
    have hafter := hfind
    rw [← hsame, hrecords, hvisit, if_pos hnone, Snapshot.find_discover, hfind, Option.map_some,
      if_pos (mem_map.mpr ⟨_, hmem, rfl⟩), Option.some.injEq] at hafter
    rw [← hafter] at hunknown
    cases hunknown
  · intro hquiet
    rw [hrecords, hvisit]
    split_ifs with hnone
    · rw [not_not.mp (not_and.mp hquiet hnone)]
      exact Snapshot.discover_nil _
    · exact Snapshot.discover_nil _
  · intro id record hfind hknown
    rw [hrecords, Snapshot.find_discover, Option.map_eq_some_iff] at hfind
    obtain ⟨before, hbefore, hrecord⟩ := hfind
    split_ifs at hrecord with hdiscovered
    · subst hrecord
      rw [hvisit] at hdiscovered
      split_ifs at hdiscovered with hnone
      · obtain ⟨⟨_, other⟩, hmem, rfl⟩ := mem_map.mp hdiscovered
        obtain ⟨hentry, -⟩ := Snapshot.mem_of_mem_fresh hmem
        cases hresult : call.1 with
        | ok shown =>
          refine .inr (.inl ⟨shown, rfl, (mem_snapshots hresult).mpr ⟨_, hentry, ?_⟩⟩)
          have hsame := (find_of_mem_matching hentry).1
          rw [hbefore] at hsame
          cases hsame
          rfl
        | error e => exact .inr (.inr ⟨⟨e, rfl⟩, hnone, ne_nil_of_mem hmem⟩)
      · cases hdiscovered
    · subst hrecord
      refine .inl ⟨before, ?_, hknown⟩
      rcases thinned_pruneLocked r.records now id with hsame | ⟨hdropped, -⟩
      · rw [← hsame]
        exact hbefore
      · rw [hdropped] at hbefore
        cases hbefore

def otherId : TransferId := ⟨"00112233445566778899aabbccddeeff", by decide⟩

/-- A transfer that belongs to a context. -/
def probeIn (id : TransferId) : TransferProgress :=
  { probe .negotiating 0 with
    transferId := id
    revision := 1
    operationContextId :=
      some ⟨"00112233445566778899aabbccddeeff00112233445566778899aabbccddeeff", by decide⟩ }

/-- One transfer has been shown, and another one has begun. -/
def probePair : TransferRegistry :=
  empty.after mutePlatform <| [.begin "edge" (probeIn probeId) 0 5,
    .snapshots "edge" none none true 6, .begin "edge" (probeIn otherId) 1 7].map (Prod.mk .kept)

/-- The call comes to the new transfer first, and fails at the one that has been shown. -/
theorem failed_snapshots_discover : ∃ e,
    (probePair.snapshots mutePlatform "edge" none none true 8).1 = .error e ∧
    (probePair.records.find otherId).map (·.contextDiscovered) = some false ∧
    ((probePair.snapshots mutePlatform "edge" none none true 8).2.records.find otherId).map
      (·.contextDiscovered) = some true :=
  ⟨_, rfl, by decide, by decide⟩

end TransferRegistry

end Serctl.Daemon
