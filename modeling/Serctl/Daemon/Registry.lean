import Serctl.Daemon.Snapshot
import Serctl.Ipc.Grant
import Serctl.Lib.Shelf

/-!
# The registry of transfers

The daemon keeps one record for each transfer: what was last said about it, and whether it has
finished.  A transfer that has not finished holds one of a bounded number of slots.  Finished
transfers are kept for a while, up to a number for each profile and for all of them.

An operation may fail after it has already changed something, so each returns the registry next to
its result.
-/

namespace Serctl.Daemon

open Lib Lib.Guard Ipc

/-! ## Limits -/

/-- How long finished records are kept, in milliseconds. -/
def transferRecordRetention : Nat := 15 * 60 * 1000
def maxActiveTransfersPerProfile : Nat := 8
def maxActiveTransfersGlobal : Nat := 48
def maxCompletedTransfersPerProfile : Nat := 16
def maxCompletedTransfersGlobal : Nat := 256
def maxControlFrame : Nat := 16 * 1024

/-- The next number of 64 bits. -/
def checkedSucc (n : Nat) : Option Nat := if n + 1 < 2 ^ 64 then some (n + 1) else none

/-! ## Records -/

/-- What is known about one transfer.  Its cancellation is shared with the handler. -/
structure TransferRecord where
  profile : String
  progress : TransferProgress
  cancellation : Nat
  finishedAt : Option Nat
  finishedOrder : Option Nat
  contextDiscovered : Bool
  deriving DecidableEq, Repr

/-- The transfers that the daemon knows of. -/
structure TransferRegistry where
  records : Table TransferId TransferRecord
  nextFinishedOrder : Nat

namespace TransferRegistry

/-- The records by their identifiers. -/
abbrev Records := Table TransferId TransferRecord

/-- The registry with one record replaced, or added. -/
def put (r : TransferRegistry) (transferId : TransferId) (record : TransferRecord) :
    TransferRegistry :=
  { r with records := r.records.insert transferId record }

/-- No transfers. -/
def empty : TransferRegistry := ⟨.empty, 0⟩

instance : Shelved TransferRecord String :=
  ⟨TransferRecord.profile, TransferRecord.finishedAt, TransferRecord.finishedOrder⟩

/-- Identifiers are compared as texts. -/
instance : LT TransferId := ⟨fun left right => left.val < right.val⟩

instance : DecidableLT TransferId := fun left right =>
  inferInstanceAs (Decidable (left.val < right.val))

/-! ## Dropping finished records -/

/-- Records are dropped some time after they have finished. -/
def pruneLocked (records : Records) (now : Nat) : Records :=
  Shelf.prune transferRecordRetention records now

/-- The first that were finished go where there are too many. -/
def enforceFinishedCapsLocked (records : Records) (profile : String) : Records :=
  Shelf.enforceCaps maxCompletedTransfersPerProfile maxCompletedTransfersGlobal records profile

/-! ## Operations -/

/-- A record with newer progress. -/
def replaceProgress (record : TransferRecord) (profile : String) (progress : TransferProgress) :
    Except Error TransferRecord := do
  ensure (record.profile = profile) "transfer profile mismatch"
  ensure (record.progress.confirmedBytes ≤ progress.confirmedBytes)
    "transfer confirmation moved backwards"
  ensure (progress.operationContextId = record.progress.operationContextId)
    "transfer operation context changed"
  let revision ← orBail (checkedSucc record.progress.revision) "transfer revision is exhausted"
  return { record with progress := { progress with revision := revision } }

/-- Is there room for one more transfer? -/
def checkRoom (records : Records) (profile : String) (progress : TransferProgress) :
    Except Error Unit := do
  ensure (records.countP Shelf.isActive < maxActiveTransfersGlobal)
    "global active transfer capacity is exhausted"
  ensure (records.countP (fun record => record.profile == profile && Shelf.isActive record) <
    maxActiveTransfersPerProfile) "profile active transfer capacity is exhausted"
  ensure ((records.find progress.transferId).isNone = true) "transfer id is already registered"

/-- The record of a new transfer. -/
def newRecord (profile : String) (progress : TransferProgress) (cancellation : Nat) :
    TransferRecord :=
  ⟨profile, progress, cancellation, none, none, false⟩

/-- A transfer begins. -/
def begin (r : TransferRegistry) (profile : String) (progress : TransferProgress)
    (cancellation now : Nat) : Except Error Unit × TransferRegistry :=
  match progress.validate with
  | .error e => (.error e, r)
  | .ok _ =>
    let records := pruneLocked r.records now
    match checkRoom records profile progress with
    | .error e => (.error e, { r with records := records })
    | .ok _ => (.ok (), TransferRegistry.put { r with records := records } progress.transferId
        (newRecord profile progress cancellation))

/-- A transfer reports its progress. -/
def update (r : TransferRegistry) (profile : String) (progress : TransferProgress) :
    Except Error Unit × TransferRegistry :=
  let result := do
    progress.validate
    let record ← orBail (r.records.find progress.transferId) "transfer is not registered"
    replaceProgress record profile progress
  match result with
  | .error e => (.error e, r)
  | .ok record => (.ok (), r.put progress.transferId record)

/-- The record as it is kept once it has finished. -/
def stamped (record : TransferRecord) (now order : Nat) : TransferRecord :=
  { record with finishedAt := some now, finishedOrder := some order }

/-- The record of a transfer that has finished. -/
def finishedRecord (records : Records) (profile : String) (progress : TransferProgress)
    (now order : Nat) : Except Error TransferRecord := do
  let record ← orBail (records.find progress.transferId) "transfer is not registered"
  let record ← replaceProgress record profile progress
  return stamped record now order

/-- A transfer has finished. -/
def finish (r : TransferRegistry) (profile : String) (progress : TransferProgress) (now : Nat) :
    Except Error Unit × TransferRegistry :=
  match progress.validate with
  | .error e => (.error e, r)
  | .ok _ =>
    let records := pruneLocked r.records now
    match checkedSucc r.nextFinishedOrder with
    | none => (.error (.msg "transfer completion order is exhausted"),
        { r with records := records })
    | some next =>
      match finishedRecord records profile progress now r.nextFinishedOrder with
      | .error e => (.error e, ⟨records, next⟩)
      | .ok record => (.ok (), ⟨enforceFinishedCapsLocked
          (records.insert progress.transferId record) profile, next⟩)

instance : Snapshot.Subject TransferRecord TransferProgress where
  noun := "transfer"
  shown := TransferRecord.progress
  context := fun record => record.progress.operationContextId
  discovered := TransferRecord.contextDiscovered
  markDiscovered := fun record => { record with contextDiscovered := true }

/-- The snapshots have to be of one record if a context is given, and fit a frame. -/
def checkSnapshots (x : Platform) (operationContextId : Option OperationContextId)
    (shown : List TransferProgress) : Except Error (List TransferProgress) := do
  let sorted := shown.mergeSort fun left right => left.transferId.val ≤ right.transferId.val
  ensure (operationContextId = none ∨ sorted.length = 1)
    "transfer operation context does not match this daemon instance and object"
  ensure ((x.frameJson (.transferStatusInfo sorted)).length ≤ maxControlFrame - 1)
    "transfer status snapshot exceeds the control-frame bound"
  return sorted

/-- The records that are visited. -/
def matching (records : Records) (profile : String) (transferId : Option TransferId) :
    List (TransferId × TransferRecord) :=
  records.entries.filter fun entry =>
    entry.2.profile = profile ∧ transferId.all (· = entry.2.progress.transferId) = true

/-- The records that a client may see. -/
def snapshots (x : Platform) (r : TransferRegistry) (profile : String)
    (transferId : Option TransferId) (operationContextId : Option OperationContextId)
    (enforceContextDiscovery : Bool) (now : Nat) :
    Except Error (List TransferProgress) × TransferRegistry :=
  let records := pruneLocked r.records now
  let (shown, discovered) := Snapshot.visit operationContextId enforceContextDiscovery
    (matching records profile transferId)
  (shown >>= checkSnapshots x operationContextId,
    { r with records := Snapshot.discover records discovered })

/-- The checks on a cancellation. -/
def cancellable (r : TransferRegistry) (profile : String) (transferId : TransferId)
    (operationContextId : Option OperationContextId) : Except Error TransferRecord := do
  let record ← orBail (r.records.find transferId) "transfer was not found for this profile"
  ensure (record.profile = profile) "transfer was not found for this profile"
  ensure (operationContextId = none ∨ record.progress.operationContextId = operationContextId)
    "transfer operation context does not match this daemon instance and object"
  ensure (record.finishedAt = none) "transfer is no longer active"
  return record

/-- The record of a transfer whose cancellation was requested. -/
def cancelRequested (record : TransferRecord) (revision nowUnixMs : Nat) : TransferRecord :=
  { record with progress := { record.progress with
      revision := revision
      event := "cancel_requested"
      updatedUnixMs := nowUnixMs } }

/-- The result of a cancellation, the registry, and the cancellation that was triggered. -/
def cancel (r : TransferRegistry) (profile : String) (transferId : TransferId)
    (operationContextId : Option OperationContextId) (nowUnixMs : Nat) :
    Except Error TransferProgress × TransferRegistry × Option Nat :=
  match cancellable r profile transferId operationContextId with
  | .error e => (.error e, r, none)
  | .ok record =>
    match checkedSucc record.progress.revision with
    | none => (.error (.msg "transfer revision is exhausted"), r, some record.cancellation)
    | some revision =>
      let record := cancelRequested record revision nowUnixMs
      (.ok record.progress, r.put transferId record, some record.cancellation)

/-! ## What the operations do -/

/-- The second table is the first one without some finished records. -/
abbrev Thinned (before after : Records) : Prop := Shelf.Thinned before after

theorem thinned_pruneLocked (records : Records) (now : Nat) :
    Thinned records (pruneLocked records now) :=
  Shelf.thinned_prune _ records now

theorem thinned_enforceFinishedCapsLocked (records : Records) (profile : String) :
    Thinned records (enforceFinishedCapsLocked records profile) :=
  Shelf.thinned_enforceCaps _ _ records profile

theorem checkedSucc_of_lt {n : Nat} (h : n + 1 < 2 ^ 64) : checkedSucc n = some (n + 1) :=
  if_pos h

theorem eq_succ_of_checkedSucc {n next : Nat} (h : checkedSucc n = some next) : next = n + 1 := by
  unfold checkedSucc at h
  split at h
  · cases h
    rfl
  · cases h

theorem replaceProgress_eq_ok {record record' : TransferRecord} {profile : String}
    {progress : TransferProgress} (h : replaceProgress record profile progress = .ok record') :
    record.profile = profile ∧ record.progress.confirmedBytes ≤ progress.confirmedBytes ∧
      progress.operationContextId = record.progress.operationContextId ∧
      record' = { record with
        progress := { progress with revision := record.progress.revision + 1 } } := by
  simp only [replaceProgress, bind_eq_ok, ensure_eq_ok, orBail_eq_ok, pure_eq_ok] at h
  obtain ⟨-, hprofile, -, hconfirmed, -, hcontext, revision, hrevision, rfl⟩ := h
  exact ⟨hprofile, hconfirmed, hcontext, by rw [eq_succ_of_checkedSucc hrevision]⟩

section

variable (r : TransferRegistry) (profile : String) (progress : TransferProgress)

/-- An update fails and changes nothing, or it replaces the progress of one record. -/
theorem update_cases :
    (∃ e, r.update profile progress = (.error e, r)) ∨
    ∃ record record', progress.validate = .ok () ∧
      r.records.find progress.transferId = some record ∧
      replaceProgress record profile progress = .ok record' ∧
      r.update profile progress = (.ok (), r.put progress.transferId record') := by
  unfold update
  dsimp only
  split
  · rename_i e _
    exact .inl ⟨e, rfl⟩
  · rename_i record' hresult
    simp only [bind_eq_ok, orBail_eq_ok] at hresult
    obtain ⟨⟨⟩, hvalid, record, hfind, hreplace⟩ := hresult
    exact .inr ⟨record, record', hvalid, hfind, hreplace, rfl⟩

/-- The second registry is the first one, at most without the records that are too old. -/
def Aged (r : TransferRegistry) (now : Nat) (r' : TransferRegistry) : Prop :=
  r' = r ∨ r'.records = pruneLocked r.records now ∧ r.nextFinishedOrder ≤ r'.nextFinishedOrder

/-- A finish fails and drops old records at most, or it marks one record as finished. -/
theorem finish_cases (now : Nat) :
    (∃ e r', r.finish profile progress now = (.error e, r') ∧ r.Aged now r') ∨
    ∃ record record', progress.validate = .ok () ∧
      (pruneLocked r.records now).find progress.transferId = some record ∧
      replaceProgress record profile progress = .ok record' ∧
      r.finish profile progress now = (.ok (), ⟨enforceFinishedCapsLocked
        ((pruneLocked r.records now).insert progress.transferId
          (stamped record' now r.nextFinishedOrder)) profile, r.nextFinishedOrder + 1⟩) := by
  unfold finish
  dsimp only
  split
  · rename_i e _
    exact .inl ⟨e, r, rfl, .inl rfl⟩
  · rename_i hvalid
    split
    · exact .inl ⟨_, _, rfl, .inr ⟨rfl, le_rfl⟩⟩
    · rename_i next hnext
      have hsucc := eq_succ_of_checkedSucc hnext
      subst hsucc
      split
      · rename_i e _
        exact .inl ⟨e, _, rfl, .inr ⟨rfl, Nat.le_succ _⟩⟩
      · rename_i record'' hfinished
        simp only [finishedRecord, bind_eq_ok, orBail_eq_ok, pure_eq_ok] at hfinished
        obtain ⟨record, hfind, record', hreplace, rfl⟩ := hfinished
        exact .inr ⟨record, record', hvalid, hfind, hreplace, rfl⟩

/-- A begin fails and drops old records at most, or it adds one record where there is room. -/
theorem begin_cases (cancellation now : Nat) :
    (∃ e r', r.begin profile progress cancellation now = (.error e, r') ∧ r.Aged now r') ∨
    progress.validate = .ok () ∧ checkRoom (pruneLocked r.records now) profile progress = .ok () ∧
      r.begin profile progress cancellation now =
        (.ok (), TransferRegistry.put { r with records := pruneLocked r.records now }
          progress.transferId (newRecord profile progress cancellation)) := by
  unfold begin
  dsimp only
  split
  · rename_i e _
    exact .inl ⟨e, r, rfl, .inl rfl⟩
  · rename_i hvalid
    split
    · rename_i e _
      exact .inl ⟨e, _, rfl, .inr ⟨rfl, le_rfl⟩⟩
    · rename_i hroom
      exact .inr ⟨hvalid, hroom, rfl⟩

end

/-- What there is room for. -/
theorem checkRoom_eq_ok {records : Records} {profile : String} {progress : TransferProgress}
    (h : checkRoom records profile progress = .ok ()) :
    records.countP Shelf.isActive < maxActiveTransfersGlobal ∧
      records.countP (fun record => record.profile == profile && Shelf.isActive record) <
        maxActiveTransfersPerProfile ∧
      records.find progress.transferId = none := by
  simp only [checkRoom, bind_eq_ok, ensure_eq_ok] at h
  obtain ⟨-, hoverall, -, hprofile, hnew⟩ := h
  exact ⟨hoverall, hprofile, Option.isNone_iff_eq_none.mp hnew⟩

/-- A cancellation fails and changes nothing, or it marks one active record. -/
theorem cancel_cases (r : TransferRegistry) (profile : String) (transferId : TransferId)
    (operationContextId : Option OperationContextId) (nowUnixMs : Nat) :
    (∃ e triggered, r.cancel profile transferId operationContextId nowUnixMs =
      (.error e, r, triggered)) ∨
    ∃ record revision, r.records.find transferId = some record ∧ record.finishedAt = none ∧
      record.profile = profile ∧ revision = record.progress.revision + 1 ∧
      r.cancel profile transferId operationContextId nowUnixMs =
        (.ok (cancelRequested record revision nowUnixMs).progress,
          r.put transferId (cancelRequested record revision nowUnixMs),
          some record.cancellation) := by
  unfold cancel
  split
  · rename_i e _
    exact .inl ⟨e, none, rfl⟩
  · rename_i record hcancellable
    simp only [cancellable, bind_eq_ok, ensure_eq_ok, orBail_eq_ok, pure_eq_ok] at hcancellable
    obtain ⟨record', hfind, -, hprofile, -, -, -, hactive, rfl⟩ := hcancellable
    split
    · exact .inl ⟨_, _, rfl⟩
    · rename_i revision hrevision
      exact .inr ⟨record', revision, hfind, hactive, hprofile, eq_succ_of_checkedSucc hrevision,
        rfl⟩

/-- A platform whose frames have no text. -/
def mutePlatform : Platform where
  sha256 := fun _ => .fill 32 0
  hmacSha256 := fun _ _ => .fill 32 0
  base64Encode := fun _ => ""
  base64Decode := fun _ => .error "mute"
  ed25519Key := fun _ => .error "mute"
  ed25519Verify := fun _ _ _ => .error "mute"
  popJson := fun _ => []
  profileProofJson := fun _ => []
  frameJson := fun _ => []
  escapeDebug := fun text => text

end TransferRegistry

end Serctl.Daemon
