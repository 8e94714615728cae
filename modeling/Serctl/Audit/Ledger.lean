import Serctl.Audit.Record
import Serctl.Lib.Act
import Serctl.Lib.Pool

/-!
# The audit ledger

The operations of a ledger on its two files: the log, which only grows, and the checkpoint,
which is replaced atomically.  Every file operation may fail with any message; a failed sync,
replacement or unlock may have taken effect, and a failed append has not.  The first checkpoint
of a generation is not replaced but created, and can be left empty.
-/

namespace Serctl.Audit

open Lib Lib.Act Lib.Text

/-! ## Files -/

/-- The contents of the log and of the checkpoint, as far as they exist. -/
structure Files where
  log : Option (List UInt8)
  checkpoint : Option (List UInt8)
  deriving DecidableEq, Repr

/-- What the ledger asks of its files. -/
inductive FileOp where
  /-- Open the log if it exists. -/
  | openLog
  | createLog
  | lockLog
  | unlockLog
  | readLog
  | logLen
  /-- Write at the end of the log. -/
  | appendLog (bytes : List UInt8)
  | syncLog
  | syncParent
  /-- Open the checkpoint if it exists, and read it. -/
  | readCheckpoint
  | replaceCheckpoint (bytes : List UInt8)
  /-- Create the checkpoint, which must not exist yet, as an empty file. -/
  | createCheckpoint
  | writeCheckpoint (bytes : List UInt8)
  | syncCheckpoint
  deriving DecidableEq, Repr

/-- What an operation returns if it succeeds. -/
@[reducible] def FileVal : FileOp → Type
  | .openLog => Bool
  | .readLog => List UInt8
  | .logLen => Nat
  | .readCheckpoint => Option (List UInt8)
  | _ => Unit

/-- What an operation returns. -/
abbrev FileAns (op : FileOp) : Type := Except String (FileVal op)

/-- How an operation goes wrong. -/
inductive Fault where
  | none
  | fail (message : String)
  /-- The operation is done and reports an error all the same. -/
  | late (message : String)
  deriving DecidableEq, Repr

/-- An operation with value `a` that changes the files to `w'`. -/
def perform {α : Type} (w : Files) (a : α) (w' : Files) : Fault → Option (Except String α × Files)
  | .none => some (.ok a, w')
  | .fail message => some (.error message, w)
  | .late message => some (.error message, w')

/-- An operation that the files do not permit. -/
def refuse {α : Type} (w : Files) : Fault → Option (Except String α × Files)
  | .fail message => some (.error message, w)
  | _ => Option.none

/-- What an operation does.  Torn lines are left out: an append that fails writes nothing. -/
def fileExec (w : Files) : (op : FileOp) → Fault → Option (FileAns op × Files)
  | .openLog, c => perform w w.log.isSome w c
  | .createLog, c =>
    match w.log with
    | none => perform w () { w with log := some [] } c
    | some _ => refuse w c
  | .lockLog, c => perform w () w c
  | .unlockLog, c => perform w () w c
  | .readLog, c =>
    match w.log with
    | some bytes => perform w bytes w c
    | none => refuse w c
  | .logLen, c =>
    match w.log with
    | some bytes => perform w bytes.length w c
    | none => refuse w c
  | .appendLog bytes, c =>
    match w.log, c with
    | some old, .none => some (.ok (), { w with log := some (old ++ bytes) })
    | _, c => refuse w c
  | .syncLog, c => perform w () w c
  | .syncParent, c => perform w () w c
  | .readCheckpoint, c => perform w w.checkpoint w c
  | .replaceCheckpoint bytes, c => perform w () { w with checkpoint := some bytes } c
  | .createCheckpoint, c =>
    match w.checkpoint with
    | none => perform w () { w with checkpoint := some [] } c
    | some _ => refuse w c
  | .writeCheckpoint bytes, c => perform w () { w with checkpoint := some bytes } c
  | .syncCheckpoint, c => perform w () w c

/-- Nobody else changes the files, and a crash leaves them as they are. -/
def auditSystem : System Files FileOp FileAns Fault where
  exec := fileExec
  env _ _ := none
  crash w
    | .none => some w
    | _ => none

/-! ## Reading and checking -/

/-- Programs over the two files. -/
abbrev LedgerIo := Act Unit Error FileOp FileAns

/-- The value of an operation, or an early return with its message in context. -/
def io (op : FileOp) (message : String) : LedgerIo (FileVal op) :=
  call op >>= orElseFail fun m => (Failure.msg m).context message

/-- The value of a check, or an early return with its error. -/
def lift {α : Type} (r : Except Error α) : LedgerIo α := orElseFail id r

section Ledger

variable (c : Crypto) (s : Serde) (l : AuditLedger)

/-- The log, verified. -/
def readLog : LedgerIo VerifiedLog := do
  let encoded ← io .readLog "read audit log"
  lift (verifyLog c s l encoded)

/-- A checkpoint that is there must parse. -/
def parseCheckpoint : Option (List UInt8) → Except Error (Option AuditCheckpoint)
  | none => .ok none
  | some encoded => do
    ensure (encoded.length ≤ maxAuditRecordBytes) "audit checkpoint is oversized"
    match s.parseCheckpoint encoded with
    | none => .error (.msg "parse audit checkpoint")
    | some checkpoint => .ok (some checkpoint)

/-- The stored checkpoint, if there is one. -/
def readCheckpoint : LedgerIo (Option AuditCheckpoint) := do
  let encoded ← io .readCheckpoint "read audit checkpoint"
  lift (parseCheckpoint s encoded)

/-- The head of the log at a sequence number. -/
def VerifiedLog.headAt (v : VerifiedLog) (sequence : Nat) : Bytes 32 :=
  if sequence = 0 then zeroHash else v.hashes.getD (sequence - 1) zeroHash

/-- The checkpoint is authentic and is the head of a prefix of the log. -/
def ensureOnChain (v : VerifiedLog) (checkpoint : AuditCheckpoint) : Except Error Unit := do
  verifyCheckpointMac c s l checkpoint
  ensure (checkpoint.sequence ≤ v.sequence) "audit checkpoint is ahead of the log"
  ensure (hexEncode (v.headAt checkpoint.sequence).val = checkpoint.recordHash)
    "audit checkpoint diverges from the log"

/-- The checkpoint is the head of the whole log, unless it may lag. -/
def ensureNotLagging (v : VerifiedLog) (checkpoint : AuditCheckpoint) (allowLagging : Bool) :
    Except Error Unit :=
  if allowLagging then .ok ()
  else ensure (checkpoint.sequence = v.sequence ∧
      checkpoint.recordHash = hexEncode v.recordHash.val)
    "audit checkpoint lags behind the log; reconcile before use"

/-- The stored checkpoint belongs to the log, and may lag behind it if that is allowed. -/
def ensureCheckpoint (v : VerifiedLog) (allowLagging : Bool) (stored : Option AuditCheckpoint) :
    Except Error AuditCheckpoint :=
  match stored with
  | none => .error (.msg "audit checkpoint is missing")
  | some checkpoint => do
    ensureOnChain c s l v checkpoint
    ensureNotLagging v checkpoint allowLagging
    return checkpoint

/-- The check of the stored checkpoint. -/
def verifyCheckpointAgainstLog (v : VerifiedLog) (allowLagging : Bool) :
    LedgerIo AuditCheckpoint := do
  let stored ← readCheckpoint s
  lift (ensureCheckpoint c s l v allowLagging stored)

/-- A checkpoint that the caller holds is on the chain as well. -/
def verifyExternalAnchor (v : VerifiedLog) (checkpoint : AuditCheckpoint) :
    Option AuditCheckpoint → Except Error Unit
  | none => .ok ()
  | some anchor => do
    verifyCheckpointMac c s l anchor
    ensure (anchor.profileId = checkpoint.profileId ∧
        anchor.profileGeneration = checkpoint.profileGeneration)
      "audit anchor belongs to another profile identity"
    ensure (anchor.sequence ≤ v.sequence) "audit ledger is older than the external anchor"
    ensure (hexEncode (v.headAt anchor.sequence).val = anchor.recordHash)
      "audit ledger does not contain the external anchor"

/-- The result of a locked operation, unless only the unlock failed. -/
def settle {α : Type} (result : Except Error α) (unlock : Except Error Unit) : Except Error α :=
  match result, unlock with
  | .ok a, .ok () => .ok a
  | .error e, _ => .error e
  | .ok _, .error e => .error e

/-- Run with the log locked. -/
def underLock {α : Type} (lockMessage unlockMessage : String) (body : LedgerIo α) :
    LedgerIo α := do
  io .lockLog lockMessage
  let result ← attempt body
  let unlock ← attempt (io .unlockLog unlockMessage)
  lift (settle result unlock)

/-- Open the existing log, which must be there, and run with it locked. -/
def withLog {α : Type} (openMessage missingMessage lockMessage unlockMessage : String)
    (body : LedgerIo α) : LedgerIo α := do
  let present ← io .openLog openMessage
  lift (ensure (present = true) missingMessage)
  underLock lockMessage unlockMessage body

/-- Run with the log locked. -/
def withExistingLog {α : Type} (body : LedgerIo α) : LedgerIo α :=
  withLog "open existing protected audit log" "authenticated audit log is missing"
    "lock protected audit log" "unlock protected audit log" body

/-! ## Appending -/

/-- The record that follows a verified log. -/
def nextRecord (v : VerifiedLog) (event : AuditEvent) : AuditRecord :=
  let recordHash := calculateRecordHash c s (v.sequence + 1) v.recordHash event
  let record : AuditRecord := ⟨auditSchemaVersion, v.sequence + 1,
    hexEncode v.recordHash.val, event, hexEncode recordHash.val, ""⟩
  { record with recordMac := recordMac c s l record }

/-- The line of that record. -/
abbrev nextLine (v : VerifiedLog) (event : AuditEvent) : List UInt8 :=
  s.record (nextRecord c s l v event) ++ [newline]

/-- A new generation starts from nothing; otherwise the checkpoint may lag, but must be on the
    chain. -/
def checkStored (v : VerifiedLog) (createNewCheckpoint : Bool) : LedgerIo Unit :=
  if createNewCheckpoint then do
    lift (ensure (v.sequence = 0 ∧ v.firstEvent = none ∧ v.pendingIntents = [])
      "new audit generation is not empty")
    let stored ← readCheckpoint s
    lift (ensure (stored = none) "new audit generation checkpoint already exists")
  else do
    let _ ← verifyCheckpointAgainstLog c s l v true
    return ()

/-- Create the first checkpoint of a generation. -/
def persistCheckpointCreateNew (checkpoint : AuditCheckpoint) : LedgerIo Unit := do
  io .createCheckpoint "create new authenticated audit checkpoint"
  io (.writeCheckpoint (s.checkpoint checkpoint)) "write new authenticated audit checkpoint"
  io .syncCheckpoint "sync new authenticated audit checkpoint"
  io .syncParent "sync new authenticated audit checkpoint directory entry"

/-- Create or replace the checkpoint. -/
def persistCheckpoint (createNew : Bool) (checkpoint : AuditCheckpoint) : LedgerIo Unit :=
  if createNew then persistCheckpointCreateNew s checkpoint
  else io (.replaceCheckpoint (s.checkpoint checkpoint)) "persist authenticated audit checkpoint"

/-- Append to the locked log, and then move the checkpoint. -/
def appendLockedWithCheckpointMode (event : AuditEvent) (createNewCheckpoint : Bool) :
    LedgerIo AuditCheckpoint := do
  let v ← readLog c s l
  checkStored c s l v createNewCheckpoint
  lift (v.ensurePhase event "audit Intent request id was already used")
  lift (ensure (v.sequence + 1 < 2 ^ 64) "audit sequence overflow")
  lift (ensure ((s.record (nextRecord c s l v event)).length ≤ maxAuditRecordBytes)
    "audit record exceeds its size limit")
  let currentLen ← io .logLen "inspect audit log"
  lift (ensure (currentLen + ((s.record (nextRecord c s l v event)).length + 1) ≤ maxAuditLogBytes)
    "audit log reached its configured size limit")
  io (.appendLog (s.record (nextRecord c s l v event) ++ [newline])) "append audit record"
  io .syncLog "sync audit record"
  onlyIf (createNewCheckpoint = true)
    (io .syncParent "sync new authenticated audit log directory entry")
  persistCheckpoint s createNewCheckpoint
    (makeCheckpoint c s l (v.sequence + 1) (v.advance c s event).recordHash)
  return makeCheckpoint c s l (v.sequence + 1) (v.advance c s event).recordHash

/-- Append where a checkpoint exists. -/
def appendLocked (event : AuditEvent) : LedgerIo AuditCheckpoint :=
  appendLockedWithCheckpointMode c s l event false

/-- **Append an event.** -/
def append (event : AuditEvent) : LedgerIo AuditCheckpoint := do
  lift event.validate
  lift (ensureIdentity l event "audit event profile identity mismatch")
  withExistingLog (appendLocked c s l event)

/-! ## Verification and repair -/

/-- What `verify` reports. -/
structure AuditInspection where
  pendingIntents : Nat
  checkpoint : AuditCheckpoint
  deriving DecidableEq, Repr

/-- No intent is pending, if that is asked for. -/
def ensureComplete (v : VerifiedLog) (requireComplete : Bool) : Except Error Unit :=
  if requireComplete then
    ensure (v.pendingIntents = []) "audit ledger contains an Intent without a terminal Outcome"
  else .ok ()

/-- Verify the log against its checkpoint and against an anchor. -/
def verifyInternal (anchor : Option AuditCheckpoint) (requireComplete : Bool) :
    LedgerIo AuditInspection :=
  withExistingLog do
    let v ← readLog c s l
    lift (ensureComplete v requireComplete)
    let checkpoint ← verifyCheckpointAgainstLog c s l v false
    lift (verifyExternalAnchor c s l v checkpoint anchor)
    return ⟨v.pendingIntents.length, checkpoint⟩

/-- A missing checkpoint is tolerated only for an empty log. -/
def ensureRepairable (v : VerifiedLog) : Option AuditCheckpoint → Except Error Unit
  | some checkpoint => ensureOnChain c s l v checkpoint
  | none => ensure (v.sequence = 0) "audit checkpoint is missing"

/-- Bring a checkpoint that lags behind to the end of the log. -/
def reconcile : LedgerIo AuditCheckpoint :=
  withExistingLog do
    let v ← readLog c s l
    let prior ← readCheckpoint s
    lift (ensureRepairable c s l v prior)
    persistCheckpoint s false (makeCheckpoint c s l v.sequence v.recordHash)
    return makeCheckpoint c s l v.sequence v.recordHash

def resolveUnknownResultDomain : List UInt8 :=
  utf8Bytes "serctl/audit/resolve-unknown-result/v1" ++ [0]

def resolveUnknownReason : String := "administrative.resolve_unknown"

/-- What stands for the result of a request that is given up. -/
def resolvedUnknownResultDigest (requestId : Bytes 16) (binding : PendingIntentBinding) : String :=
  hexEncode (c.sha256 (resolveUnknownResultDomain ++ l.profileId.val ++
    (Bytes.beBytes 8 l.profileGeneration.toNat).val ++ requestId.val ++
    (Bytes.beBytes 8 (byteLen binding.operationKind)).val ++
    utf8Bytes binding.operationKind ++ utf8Bytes binding.policyDigest ++
    utf8Bytes binding.intentDigest ++ utf8Bytes resolveUnknownReason)).val

/-- The outcome that closes a pending intent. -/
def resolvedEvent (atUnixMs : UInt64) (requestId : Bytes 16) (binding : PendingIntentBinding) :
    AuditEvent where
  profileId := hexEncode l.profileId.val
  profileGeneration := l.profileGeneration
  requestId := requestId
  atUnixMs := atUnixMs
  operationKind := binding.operationKind
  phase := .outcome
  decision := .unknown
  policyDigest := binding.policyDigest
  intentDigest := binding.intentDigest
  resultDigest := some (resolvedUnknownResultDigest c l requestId binding)
  reasonCode := resolveUnknownReason

/-- What `resolve_pending_as_unknown` reports. -/
structure PendingResolution where
  resolved : Nat
  checkpoint : AuditCheckpoint
  deriving DecidableEq, Repr

/-- Close the pending intents one after the other. -/
def resolveEach (atUnixMs : UInt64) :
    List (Bytes 16 × PendingIntentBinding) → AuditCheckpoint → LedgerIo AuditCheckpoint
  | [], checkpoint => pure checkpoint
  | (requestId, binding) :: pending, _ => do
    let checkpoint ← appendLocked c s l (resolvedEvent c l atUnixMs requestId binding)
    resolveEach atUnixMs pending checkpoint

/-- Append the outcome "unknown" for every pending intent. -/
def resolvePendingAsUnknown (atUnixMs : UInt64) (anchor : Option AuditCheckpoint) :
    LedgerIo PendingResolution := do
  lift (ensure (0 < atUnixMs) "pending-resolution timestamp must be non-zero")
  withExistingLog do
    let v ← readLog c s l
    let current ← verifyCheckpointAgainstLog c s l v false
    lift (verifyExternalAnchor c s l v current anchor)
    let checkpoint ← resolveEach c s l atUnixMs
      (v.pendingIntents.mergeSort fun a b => Bytes.le a.1.val b.1.val) current
    return ⟨v.pendingIntents.length, checkpoint⟩

/-! ## Starting a generation -/

/-- Names are short and printable. -/
def validateTransitionName (value label : String) : Except Error Unit :=
  ensure (value.isEmpty = false ∧ byteLen value ≤ 255 ∧ hasControl value = false)
    (label ++ " is empty, oversized, or contains control characters")

def generationTransitionDomain : List UInt8 :=
  utf8Bytes "serctl/audit/generation-transition/v1" ++ [0]

/-- A part of a hashed message, with its length in front. -/
def framed (bytes : List UInt8) : List UInt8 := (Bytes.beBytes 8 bytes.length).val ++ bytes

/-- The digest that ties a generation to the one before it. -/
def transitionBinding (predecessor : Option AuditCheckpoint) (oldName newName : String) :
    Bytes 32 :=
  c.sha256 (generationTransitionDomain ++ framed (utf8Bytes oldName) ++
    framed (utf8Bytes newName) ++
    framed (predecessor.elim [] s.checkpoint) ++ l.profileId.val ++
    (Bytes.beBytes 8 l.profileGeneration.toNat).val)

/-- The first event of a generation. -/
def generationTransitionEvent (predecessor : Option AuditCheckpoint) (oldName newName : String)
    (atUnixMs : UInt64) : AuditEvent where
  profileId := hexEncode l.profileId.val
  profileGeneration := l.profileGeneration
  requestId := ⟨(transitionBinding c s l predecessor oldName newName).val.take 16, by
    rw [List.length_take, (transitionBinding c s l predecessor oldName newName).property]
    rfl⟩
  atUnixMs := atUnixMs
  operationKind := "audit.generation"
  phase := .administrative
  decision := .allowed
  policyDigest := hexEncode (c.sha256 (generationTransitionDomain ++
    utf8Bytes "policy" ++ l.profileId.val)).val
  intentDigest := hexEncode (transitionBinding c s l predecessor oldName newName).val
  resultDigest := some (hexEncode (c.sha256 (generationTransitionDomain ++
    utf8Bytes "successor" ++ l.profileId.val ++
    (Bytes.beBytes 8 l.profileGeneration.toNat).val ++
    (transitionBinding c s l predecessor oldName newName).val)).val)
  reasonCode := if predecessor.isSome then "generation.transition" else "generation.genesis"

/-- Start a log that is not there yet. -/
def initializeCreateNew (event : AuditEvent) : LedgerIo AuditCheckpoint := do
  lift event.validate
  lift (ensureIdentity l event "audit initialization event profile identity mismatch")
  let stored ← io .readCheckpoint "inspect audit checkpoint before create-new initialization"
  lift (ensure (stored = none) "audit checkpoint already exists")
  io .createLog "create new protected audit log"
  underLock "lock new protected audit log" "unlock new protected audit log"
    (appendLockedWithCheckpointMode c s l event true)

/-- The time of a transition is the one of its first attempt. -/
def ensureGenerationEventMatches (actual : Option AuditEvent) (expected : AuditEvent)
    (missing : String) : Except Error Unit :=
  match actual with
  | none => .error (.msg missing)
  | some actual => ensure (actual = { expected with atUnixMs := actual.atUnixMs })
      "pre-existing generation audit transition does not match the requested continuity"

/-- Complete a generation whose log was written and whose checkpoint was not. -/
def resumeLocked (expected : AuditEvent) : LedgerIo AuditCheckpoint := do
  let v ← readLog c s l
  if v.sequence = 0 then do
    lift (ensure (v.firstEvent = none ∧ v.pendingIntents = [])
      "empty generation audit log has unexpected verification state")
    appendLockedWithCheckpointMode c s l expected true
  else do
    lift (ensure (v.sequence = 1 ∧ v.pendingIntents = [])
      "incomplete generation audit log is not an exact single transition")
    lift (ensureGenerationEventMatches v.firstEvent expected
      "incomplete generation audit log has no transition")
    persistCheckpoint s true (makeCheckpoint c s l v.sequence v.recordHash)
    return makeCheckpoint c s l v.sequence v.recordHash

/-- Finish a start that was interrupted. -/
def resumeGenerationInitialization (expected : AuditEvent) : LedgerIo AuditCheckpoint :=
  withLog "open incomplete generation audit log" "incomplete generation audit log disappeared"
    "lock incomplete generation audit log" "unlock incomplete generation audit log"
    (resumeLocked c s l expected)

/-- The log holds its first event and nothing else. -/
def verifySingleGenerationEvent (expected : AuditEvent) : LedgerIo AuditCheckpoint :=
  withLog "open initialized generation audit log" "initialized generation audit log is missing"
    "lock initialized generation audit log" "unlock initialized generation audit log" do
      let v ← readLog c s l
      lift (ensure (v.sequence = 1 ∧ v.pendingIntents = [])
        "pre-existing generation audit ledger is not an exact transition")
      let checkpoint ← verifyCheckpointAgainstLog c s l v false
      lift (ensureGenerationEventMatches v.firstEvent expected
        "generation audit ledger has no transition")
      return checkpoint

/-- What is found decides how a generation is started. -/
def initializeFrom (logExists checkpointExists : Bool) (event : AuditEvent) :
    LedgerIo AuditCheckpoint :=
  match logExists, checkpointExists with
  | false, false => initializeCreateNew c s l event
  | true, true => verifySingleGenerationEvent c s l event
  | true, false => resumeGenerationInitialization c s l event
  | false, true =>
    fail (.msg "audit generation checkpoint exists without its authenticated log")

/-- Start a generation, or find it started. -/
def initializeGeneration (predecessor : Option AuditCheckpoint) (oldName newName : String)
    (atUnixMs : UInt64) : LedgerIo AuditCheckpoint := do
  lift (ensure (0 < atUnixMs) "audit initialization timestamp must be non-zero")
  lift (validateTransitionName oldName "old profile name")
  lift (validateTransitionName newName "new profile name")
  let logExists ← io .openLog "inspect audit log before generation initialization"
  let stored ← io .readCheckpoint "inspect audit checkpoint before generation initialization"
  initializeFrom c s l logExists stored.isSome
    (generationTransitionEvent c s l predecessor oldName newName atUnixMs)

/-! ## Calls -/

/-- The calls that return a checkpoint. -/
inductive LedgerCall where
  | initializeGeneration (predecessor : Option AuditCheckpoint) (oldName newName : String)
      (atUnixMs : UInt64)
  | append (event : AuditEvent)
  | reconcile
  | resolvePendingAsUnknown (atUnixMs : UInt64) (anchor : Option AuditCheckpoint)
  | verify (anchor : Option AuditCheckpoint) (requireComplete : Bool)
  deriving DecidableEq, Repr

/-- The program of a call. -/
def serve : LedgerCall → LedgerIo AuditCheckpoint
  | .initializeGeneration predecessor oldName newName atUnixMs =>
    initializeGeneration c s l predecessor oldName newName atUnixMs
  | .append event => append c s l event
  | .reconcile => reconcile c s l
  | .resolvePendingAsUnknown atUnixMs anchor => do
    let resolution ← resolvePendingAsUnknown c s l atUnixMs anchor
    return resolution.checkpoint
  | .verify anchor requireComplete => do
    let inspection ← verifyInternal c s l anchor requireComplete
    return inspection.checkpoint

/-- A call together with what it returned. -/
abbrev LedgerReply := LedgerCall × Except Error AuditCheckpoint

/-- The program of a call. -/
def reply (call : LedgerCall) : Prog FileOp FileAns LedgerReply :=
  serve c s l call () >>= fun ended => .ret (call, ended.1)

/-- Any sequence of calls.  The log is locked exclusively by every call that writes, so there is
    one name to run under. -/
def ledgerPool : Pool Unit LedgerCall Files FileOp FileAns Fault LedgerReply where
  sys := auditSystem
  launch _ call _ := some (reply c s l call)

end Ledger

end Serctl.Audit
