import Serctl.Daemon.Grants

/-!
# What a request leaves in the audit ledger

The events that the daemon appends for one request under a grant, and which outcome a response
stands for.
-/

namespace Serctl.Daemon

open Lib Ipc Lib.Text
open Audit (AuditEvent AuditPhase AuditDecision)

/-- How far the outcome of a request has come. -/
inductive AuditState where
  | pending
  | finalizing
  | complete
  | failed
  deriving DecidableEq, Repr

/-- What the outcome of a request says. -/
structure AuditTerminal where
  decision : AuditDecision
  reasonCode : String
  resultMaterial : List UInt8
  deriving DecidableEq, Repr

/-- What is known about a request from its start.  Its state is kept under the name of the
    connection. -/
structure GrantAuditOperation where
  conn : Nat
  entry : ProfilePoolEntry
  requestId : Bytes 16
  operationKind : String
  policyDigest : String
  intentDigest : String
  deadline : Nat
  deriving DecidableEq, Repr

namespace GrantAuditOperation

/-- The audit of a request that is about to start. -/
def new (x : Platform) (conn : Nat) (record : GrantRecord) (prelude : V6RequestPrelude)
    (deadline : Nat) : GrantAuditOperation :=
  ⟨conn, record.entry, prelude.requestId, prelude.operationKind, record.policyDigest x,
    hexEncode prelude.rootRequestHash.val, deadline⟩

/-- An event about the request. -/
def event (op : GrantAuditOperation) (phase : AuditPhase) (decision : AuditDecision)
    (reasonCode : String) (resultDigest : Option String) (atUnixMs : UInt64) : AuditEvent where
  profileId := hexEncode op.entry.identity.profileId.val
  profileGeneration := op.entry.identity.generation
  requestId := op.requestId
  atUnixMs := atUnixMs
  operationKind := op.operationKind
  phase := phase
  decision := decision
  policyDigest := op.policyDigest
  intentDigest := op.intentDigest
  resultDigest := resultDigest
  reasonCode := reasonCode

/-- The names of the decisions. -/
def decisionText : AuditDecision → String
  | .allowed => "allowed"
  | .denied => "denied"
  | .succeeded => "succeeded"
  | .failed => "failed"
  | .unknown => "unknown"
  | .pending => "pending"

/-- The digest of an outcome. -/
def outcomeDigest (x : Platform) (op : GrantAuditOperation) (terminal : AuditTerminal) : String :=
  hexEncode (x.sha256 (utf8Bytes "serctl/audit/grant-result/v1" ++ [0] ++
    utf8Bytes op.intentDigest ++ utf8Bytes (decisionText terminal.decision) ++
    utf8Bytes terminal.reasonCode ++
    (Bytes.beBytes 8 terminal.resultMaterial.length).val ++ terminal.resultMaterial)).val

/-- The intent of the request. -/
def intent (op : GrantAuditOperation) (atUnixMs : UInt64) : AuditEvent :=
  op.event .intent .pending "intent.recorded" none atUnixMs

/-- The outcome of the request. -/
def outcome (x : Platform) (op : GrantAuditOperation) (terminal : AuditTerminal)
    (atUnixMs : UInt64) : AuditEvent :=
  op.event .outcome terminal.decision terminal.reasonCode (some (op.outcomeDigest x terminal))
    atUnixMs

/-- The texts by which an error says that its operation may have had an effect. -/
def outcomeUnknownText (msg : String) : Bool :=
  contains (asciiLower msg) "outcome unknown" ||
    contains (asciiLower msg) "outcome is unknown" ||
    contains (asciiLower msg) "may have reached remote"

/-- How a failed dispatch is recorded. -/
def terminalForError (msg : String) : AuditTerminal :=
  if outcomeUnknownText msg then ⟨.unknown, "dispatch.outcome_unknown", []⟩
  else ⟨.failed, "dispatch.failed", []⟩

/-- How a dispatch that succeeded is recorded. -/
def succeeded (resultMaterial : List UInt8) : AuditTerminal :=
  ⟨.succeeded, "dispatch.succeeded", resultMaterial⟩

/-- The exit status of a command, as it enters the digest. -/
def exitMaterial (code : Int32) : List UInt8 := (Bytes.beBytes 4 code.toUInt32.toNat).val

/-- How an exit code is recorded. -/
def terminalForExit : Option Int32 → AuditTerminal
  | some code =>
    if code = 0 then succeeded (exitMaterial 0)
    else ⟨.failed, "dispatch.remote_failure", exitMaterial code⟩
  | none => ⟨.unknown, "dispatch.outcome_unknown", []⟩

/-- The responses that end a request of their kind well, with what enters the digest. -/
def succeedsWith (operationKind : String) : Frame → Option (List UInt8)
  | .statusInfo => if operationKind = "daemon.status" then some [] else none
  | .connectionIdentityInfo => if operationKind = "ssh.connection-identity" then some [] else none
  | .dirList => if operationKind = "sftp.list" then some [] else none
  | .createDirAccepted _ _ => if operationKind = "sftp.write" then some [] else none
  | .transferStatusInfo _ => if operationKind = "transfer.status" then some [] else none
  | .transferCancelAccepted _ => if operationKind = "transfer.cancel" then some [] else none
  | .managedTunnelOpened _ =>
    if operationKind = "forward.local/open" ∨ operationKind = "forward.remote/open" ∨
      operationKind = "forward.dynamic/open" then some [] else none
  | .managedTunnelStatusInfo _ => if operationKind = "forward.status" then some [] else none
  | .transferDone bytes =>
    if operationKind = "transfer.write" then some (Bytes.beBytes 8 bytes).val else none
  | .transferProgress progress =>
    if operationKind = "transfer.read" ∧ progress.stage = .completed then
      some (Bytes.beBytes 8 progress.confirmedBytes).val
    else none
  | .managedTunnelTerminal status =>
    if operationKind = "forward.cancel" ∧ status.stage = .closed then some [] else none
  | _ => none

/-- The outcome that a response stands for, if it ends the request. -/
def terminalForFrame (operationKind : String) (frame : Frame) : Option AuditTerminal :=
  match frame with
  | .error msg => some (terminalForError msg)
  | .execExit code _ _ => if operationKind = "ssh.exec" then some (terminalForExit code) else none
  | .managedTunnelTerminal status =>
    if operationKind = "forward.cancel" ∧ status.stage = .unknown then
      some ⟨.unknown, "dispatch.outcome_unknown", []⟩
    else (succeedsWith operationKind frame).map succeeded
  | frame => (succeedsWith operationKind frame).map succeeded

/-- The response that takes the place of one whose outcome could not be recorded. -/
def unrecordedFrame : Frame :=
  .error "operation outcome is unknown because authoritative audit persistence failed; profile quarantined"

end GrantAuditOperation

/-- A line of the diagnostic log, which authorizes nothing. -/
structure GrantAuditLine where
  grantId : String
  operationKind : String
  profile : String
  requestId : String
  outcome : String
  deriving DecidableEq, Repr

/-- The line that is logged beside the ledger. -/
def GrantRecord.compatibilityLine (record : GrantRecord) (prelude : V6RequestPrelude)
    (outcome : String) : GrantAuditLine :=
  ⟨hexEncode record.grant.grantId.val, prelude.operationKind,
    prelude.profileName.getD record.grant.profileName, hexEncode prelude.requestId.val,
    outcome⟩

end Serctl.Daemon
