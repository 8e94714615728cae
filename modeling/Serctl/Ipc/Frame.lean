import Mathlib.Data.Rat.Defs
import Serctl.Lib.Bytes
import Serctl.Lib.Failure
import Serctl.Lib.Guard

/-!
# Frames

The messages between a client and the daemon, and what the protocol itself says about them: the
operation kind of a root request, and which progress records are well formed.

Fields that no modelled function reads are left out.
-/

namespace Serctl.Ipc

open Lib Lib.Guard

/-! ## Errors -/

/-- The error types that callers look for. -/
inductive Mark where
  | nativeHelperUnavailable
  | ipcResponseWriteFailure
  | execOutcomeUnknown
  | createDirOutcomeUnknown
  | daemonExecRejected
  /-- A status that an SFTP server has answered with. -/
  | sftpStatus
  deriving DecidableEq, Repr

/-- Errors with the types that callers recognise them by. -/
abbrev Error := Failure Mark

/-- Refuse with a message unless the condition holds. -/
def ensure (c : Prop) [Decidable c] (message : String) : Except Error Unit :=
  rejectIf (¬c) (.msg message)

@[simp] theorem ensure_eq_ok {c : Prop} [Decidable c] {message : String} {u : Unit} :
    ensure c message = .ok u ↔ c := by
  simp [ensure]

/-- The value that is there, or an error. -/
def orBail {α : Type} (o : Option α) (message : String) : Except Error α :=
  match o with
  | some a => .ok a
  | none => .error (.msg message)

@[simp] theorem orBail_eq_ok {α : Type} {o : Option α} {message : String} {a : α} :
    orBail o message = .ok a ↔ o = some a := by
  cases o <;> simp [orBail]

/-! ## Identifiers -/

/-- The identifier of a transfer: 32 lowercase hexadecimal digits. -/
abbrev TransferId := { value : String // Text.isLowerHex value 16 = true }

/-- The identifier of a tunnel: 32 lowercase hexadecimal digits. -/
abbrev TunnelId := { value : String // Text.isLowerHex value 16 = true }

/-- The daemon's name for an accepted operation: 64 lowercase hexadecimal digits. -/
abbrev OperationContextId := { value : String // Text.isLowerHex value 32 = true }

/-! ## Transfers -/

/-- Which way a file goes. -/
inductive TransferDirection where
  | push
  | pull
  deriving DecidableEq, Repr

/-- How far a transfer has come. -/
inductive TransferStage where
  | preflight
  | hash
  | negotiating
  | transferring
  | verifying
  | committing
  | cleanup
  | completed
  | failed
  | cancelled
  | stalled
  deriving DecidableEq, Repr

/-- How a file is carried. -/
inductive TransferBackend where
  | auto
  | native
  | sftp
  | sftpFallback
  deriving DecidableEq, Repr

/-- Whether a transfer may take up an earlier one. -/
inductive TransferResumeMode where
  | auto
  | never
  deriving DecidableEq, Repr

/-- The helper that a client expects at the other end. -/
structure ExpectedNativeHelperIdentity where
  name : String
  binarySize : Nat
  sha256 : String
  version : String
  deriving DecidableEq, Repr

/-- A floating-point number. -/
inductive F64 where
  | finite (q : Rat)
  | infinite (negative : Bool)
  | nan
  deriving DecidableEq, Repr

/-- Finite and not negative. -/
def F64.isRate : F64 → Bool
  | .finite q => decide (0 ≤ q)
  | _ => false

def transferProgressSchemaVersion : Nat := 1

/-- What is told about a transfer. -/
structure TransferProgress where
  schemaVersion : Nat
  event : String
  transferId : TransferId
  operationContextId : Option OperationContextId
  revision : Nat
  direction : TransferDirection
  stage : TransferStage
  totalBytes : Nat
  confirmedBytes : Nat
  durableBytes : Nat
  windowBps : F64
  averageBps : F64
  etaMs : Option Nat
  backend : TransferBackend
  chunkBytes : Nat
  windowBytes : Nat
  updatedUnixMs : Nat
  deriving DecidableEq, Repr

/-- What every progress must fulfil. -/
def TransferProgress.validate (p : TransferProgress) : Except Error Unit := do
  ensure (p.schemaVersion = transferProgressSchemaVersion)
    "unsupported transfer progress schema version"
  ensure (p.confirmedBytes ≤ p.totalBytes) "confirmed bytes exceed total"
  ensure (p.durableBytes ≤ p.confirmedBytes) "durable bytes exceed confirmed"
  ensure (p.operationContextId = none ∨ 0 < p.revision)
    "context-bound transfer progress requires a positive revision"
  ensure (p.windowBps.isRate = true) "window rate must be finite and non-negative"
  ensure (p.averageBps.isRate = true) "average rate must be finite and non-negative"
  ensure (p.event.isEmpty = false ∧ Text.byteLen p.event ≤ 64 ∧ Text.hasControl p.event = false)
    "transfer progress event is invalid"

/-! ## Tunnels -/

/-- Which way connections are forwarded. -/
inductive TunnelMode where
  | localForward
  | remoteForward
  | dynamic
  deriving DecidableEq, Repr

/-- How far a tunnel has come. -/
inductive TunnelStage where
  | ready
  | cancelling
  | closed
  | unknown
  deriving DecidableEq, Repr

/-- What a client asks for; ports and the number of connections have 16 bits. -/
structure TunnelSpec where
  mode : TunnelMode
  bindPort : Nat
  targetPort : Nat
  maxConnections : Nat
  deriving DecidableEq, Repr

def tunnelStatusSchemaVersion : Nat := 1

/-- What is told about a tunnel that the daemon manages. -/
structure TunnelStatus where
  schemaVersion : Nat
  tunnelId : TunnelId
  profileId : String
  profileGeneration : UInt64
  mode : TunnelMode
  bindHost : String
  bindPort : Nat
  targetHost : Option String
  targetPort : Nat
  deadlineUnixMs : Nat
  stage : TunnelStage
  updatedUnixMs : Nat
  operationContextId : Option OperationContextId
  revision : Nat
  deriving DecidableEq, Repr

/-- What every status must fulfil. -/
def TunnelStatus.validate (status : TunnelStatus) : Except Error Unit := do
  ensure (status.schemaVersion = tunnelStatusSchemaVersion)
    "unsupported tunnel status schema version"
  ensure (Text.isLowerHex status.profileId 16 = true)
    "tunnel profile id must contain 32 lowercase hex characters"
  ensure (0 < status.profileGeneration) "tunnel profile generation is invalid"
  ensure (status.bindHost = "127.0.0.1") "tunnel bind host must be IPv4 loopback"
  ensure (0 < status.bindPort) "tunnel bind port must be non-zero"
  match status.mode with
  | .localForward | .remoteForward => do
    ensure (status.targetHost = some "127.0.0.1") "fixed tunnel target host must be IPv4 loopback"
    ensure (0 < status.targetPort) "fixed tunnel target port must be non-zero"
  | .dynamic => do
    ensure (status.targetHost = none) "dynamic tunnel has no fixed target host"
    ensure (status.targetPort = 0) "dynamic tunnel has no fixed target port"
  ensure (0 < status.deadlineUnixMs) "tunnel deadline is invalid"
  ensure (0 < status.updatedUnixMs) "tunnel update time is invalid"
  ensure (status.operationContextId.isSome = decide (0 < status.revision))
    "tunnel operation context and revision must appear together"

/-! ## Frames -/

/-- The messages between clients and the daemon. -/
inductive Frame where
  -- client to daemon
  | authHello
  | authResponse
  | exec (cmd : String) (timeoutMs : Nat)
  | shell (cols rows : Nat)
  | shellInput (data : List UInt8)
  | status
  | shutdown (passphrase : String)
  | unlock (passphrase : String)
  | profileAuthorized (callKey : String)
  | listProfiles
  | issueGrant (profile : String) (operations : List String) (budget ttlSecs : Nat)
      (holderKey : String)
  | grantIssued (grantId : String) (profileGeneration : UInt64)
      (issuedUnixMs expiresUnixMs : Nat)
  | listDir (path : String) (timeoutMs : Nat)
  | createDir (path : String) (timeoutMs : Nat)
  | download (transferId : TransferId) (path : String) (localTargetSha256 : Option String)
      (backend : TransferBackend) (resume : TransferResumeMode) (resumeOffset : Nat)
      (expectedSize : Option Nat) (expectedSha256 : Option String)
      (expectedHelperIdentity : Option ExpectedNativeHelperIdentity) (idleTimeoutMs : Nat)
      (deadlineMs : Option Nat)
  | uploadBegin (transferId : TransferId) (path : String) (size : Nat) (sha256 : String)
      (backend : TransferBackend) (resume : TransferResumeMode) (resumeToken : Option String)
      (expectedHelperIdentity : Option ExpectedNativeHelperIdentity) (idleTimeoutMs : Nat)
      (deadlineMs : Option Nat)
  | uploadChunk (data : List UInt8)
  | uploadEnd
  | transferStatus (transferId : Option TransferId)
      (operationContextId : Option OperationContextId)
  | transferCancel (transferId : TransferId) (operationContextId : Option OperationContextId)
  | tunnelOpen (spec : TunnelSpec)
  | tunnelStop
  | managedTunnelOpen (spec : TunnelSpec) (deadlineUnixMs : Nat)
  | managedTunnelStatus (tunnelId : Option TunnelId)
      (operationContextId : Option OperationContextId)
  | managedTunnelCancel (tunnelId : TunnelId) (operationContextId : Option OperationContextId)
  | connectionIdentity (profileId : Bytes 16) (profileGeneration : UInt64)
  -- daemon to client
  | authChallenge
  | authAccepted
  | execOut (data : List UInt8)
  | execErr (data : List UInt8)
  | execExit (code : Option Int32) (operationContextId : Option OperationContextId)
      (revision : Nat)
  | shellOut
  | shellClosed
  | profileList
  | statusInfo
  | ack
  | createDirAccepted (operationContextId : Option OperationContextId) (revision : Nat)
  | transferAck (confirmedBytes durableBytes : Nat)
  | dirList
  | fileChunk (data : List UInt8)
  | transferDone (bytes : Nat)
  | transferDigest (transferId : TransferId) (sha256 : String)
  | transferProgress (progress : TransferProgress)
  | transferStatusInfo (transfers : List TransferProgress)
  | transferCancelAccepted (progress : TransferProgress)
  | tunnelReady
  | tunnelClosed
  | managedTunnelOpened (status : TunnelStatus)
  | managedTunnelStatusInfo (tunnels : List TunnelStatus)
  | managedTunnelTerminal (status : TunnelStatus)
  | connectionIdentityInfo
  | error (msg : String)
  deriving DecidableEq, Repr

/-- The operation kind of a root request, or the kind of traffic that a frame belongs to. -/
def frameKind : Frame → String
  | .authHello => "auth"
  | .authResponse => "auth"
  | .authChallenge => "auth"
  | .authAccepted => "auth"
  | .exec _ _ => "ssh.exec"
  | .connectionIdentity _ _ => "ssh.connection-identity"
  | .shell _ _ => "ssh.pty"
  | .shellInput _ => "ssh.pty"
  | .status => "daemon.status"
  | .shutdown _ => "daemon.shutdown"
  | .unlock _ => "daemon.unlock"
  | .listProfiles => "daemon.list-profiles"
  | .issueGrant _ _ _ _ _ => "daemon.issue-grant"
  | .listDir _ _ => "sftp.list"
  | .createDir _ _ => "sftp.write"
  | .download _ _ _ _ _ _ _ _ _ _ _ => "transfer.read"
  | .uploadBegin _ _ _ _ _ _ _ _ _ _ => "transfer.write"
  | .uploadChunk _ => "transfer.write"
  | .uploadEnd => "transfer.write"
  | .transferStatus _ _ => "transfer.status"
  | .transferCancel _ _ => "transfer.cancel"
  | .tunnelOpen _ => "forward"
  | .tunnelStop => "forward"
  | .managedTunnelOpen spec _ => match spec.mode with
    | .localForward => "forward.local/open"
    | .remoteForward => "forward.remote/open"
    | .dynamic => "forward.dynamic/open"
  | .managedTunnelStatus _ _ => "forward.status"
  | .managedTunnelCancel _ _ => "forward.cancel"
  | _ => "stream"

end Serctl.Ipc
