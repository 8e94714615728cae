import Serctl.Lib.Bytes
import Serctl.Lib.Failure
import Serctl.Lib.Guard
import Serctl.Lib.HashChain

/-!
# Audit records

The events of an audit ledger, the records that chain and authenticate them, and the
verification of a whole log.

Serialization, SHA-256 and HMAC are not part of the repository: `Serde` and `Crypto` stand for
them.  `Serde.Lawful` states what the ledger relies on about the serializer.
-/

namespace Serctl.Audit

open Lib Lib.Guard Lib.Text

/-- Errors of the ledger. -/
abbrev Error := Failure Empty

def auditSchemaVersion : Nat := 1

def maxAuditLogBytes : Nat := 64 * 1024 * 1024

def maxAuditRecordBytes : Nat := 16 * 1024

def maxOperationKindBytes : Nat := 64

def maxReasonCodeBytes : Nat := 96

/-! ## Events -/

/-- The place of an event in its request. -/
inductive AuditPhase where
  | intent
  | outcome
  | administrative
  deriving DecidableEq, Repr

/-- What was decided about a request, or became of it. -/
inductive AuditDecision where
  | pending
  | allowed
  | denied
  | succeeded
  | failed
  | unknown
  deriving DecidableEq, Repr

/-- What is recorded about a request. -/
structure AuditEvent where
  profileId : String
  profileGeneration : UInt64
  requestId : Bytes 16
  atUnixMs : UInt64
  operationKind : String
  phase : AuditPhase
  decision : AuditDecision
  policyDigest : String
  intentDigest : String
  resultDigest : Option String
  reasonCode : String
  deriving DecidableEq, Repr

/-- Refuse with a message unless the condition holds. -/
def ensure (c : Prop) [Decidable c] (message : String) : Except Error Unit :=
  rejectIf (¬c) (.msg message)

@[simp] theorem ensure_eq_ok {c : Prop} [Decidable c] {message : String} {u : Unit} :
    ensure c message = .ok u ↔ c := by
  simp [ensure]

/-- A byte of the alphabet of tokens. -/
def isTokenChar (c : Char) : Bool :=
  ('a' ≤ c && c ≤ 'z') || ('0' ≤ c && c ≤ '9') || c == '.' || c == '-' || c == '_'

/-- A short text of token characters. -/
def validateToken (value : String) (max : Nat) (label : String) : Except Error Unit :=
  ensure (value.isEmpty = false ∧ byteLen value ≤ max ∧ value.toList.all isTokenChar = true)
    (label ++ " must contain 1..=" ++ toString max ++ " bytes of [a-z0-9._-]")

/-- Sixteen bytes in hexadecimal. -/
def validateProfileId (value : String) : Except Error Unit :=
  ensure (isLowerHex value 16 = true)
    "audit profile id must be 32 lowercase hexadecimal characters"

/-- Thirty-two bytes in hexadecimal. -/
def validateDigest (value label : String) : Except Error Unit :=
  ensure (isLowerHex value 32 = true)
    (label ++ " must be 64 lowercase hexadecimal characters")

/-- The checks on the decision and the result digest, by phase. -/
def AuditEvent.validatePhase (e : AuditEvent) : Except Error Unit :=
  match e.phase with
  | .intent => ensure (e.decision = .pending ∧ e.resultDigest.isNone = true)
      "intent records must be pending and cannot carry a result digest"
  | .outcome => ensure (e.decision ≠ .pending ∧ e.resultDigest.isSome = true)
      "outcome records must be terminal and carry a result digest"
  | .administrative => ensure (e.decision ≠ .pending ∧ e.resultDigest.isSome = true)
      "administrative records must be terminal and carry a result digest"

/-- A digest, if there is one. -/
def validateResultDigest : Option String → Except Error Unit
  | some digest => validateDigest digest "result digest"
  | none => .ok ()

/-- What every event must fulfil. -/
def AuditEvent.validate (e : AuditEvent) : Except Error Unit := do
  validateProfileId e.profileId
  ensure (0 < e.profileGeneration) "audit profile generation must be non-zero"
  ensure (0 < e.atUnixMs) "audit timestamp must be non-zero"
  validateToken e.operationKind maxOperationKindBytes "operation kind"
  validateToken e.reasonCode maxReasonCodeBytes "reason code"
  validateDigest e.policyDigest "policy digest"
  validateDigest e.intentDigest "intent digest"
  validateResultDigest e.resultDigest
  e.validatePhase

/-! ## Records and checkpoints -/

/-- An event in the chain, with the digest of the record before it. -/
structure AuditRecord where
  schemaVersion : Nat
  sequence : Nat
  previousHash : String
  event : AuditEvent
  recordHash : String
  recordMac : String
  deriving DecidableEq, Repr

/-- How far the log was known to reach. -/
structure AuditCheckpoint where
  schemaVersion : Nat
  profileId : String
  profileGeneration : UInt64
  sequence : Nat
  recordHash : String
  mac : String
  deriving DecidableEq, Repr

/-- The authenticated part of a checkpoint: everything but its MAC. -/
structure UnsignedCheckpoint where
  schemaVersion : Nat
  profileId : String
  profileGeneration : UInt64
  sequence : Nat
  recordHash : String
  deriving DecidableEq, Repr

/-- The checkpoint without its MAC. -/
def AuditCheckpoint.unsigned (cp : AuditCheckpoint) : UnsignedCheckpoint :=
  ⟨cp.schemaVersion, cp.profileId, cp.profileGeneration, cp.sequence, cp.recordHash⟩

/-- The authenticated part of a record: everything but its MAC. -/
def AuditRecord.body (r : AuditRecord) : Nat × Nat × String × AuditEvent × String :=
  (r.schemaVersion, r.sequence, r.previousHash, r.event, r.recordHash)

/-- The hash functions. -/
structure Crypto where
  sha256 : List UInt8 → Bytes 32
  hmacSha256 : Bytes 32 → List UInt8 → Bytes 32

/-- The serializer: what it writes for each type, and what it reads. -/
structure Serde where
  event : AuditEvent → List UInt8
  record : AuditRecord → List UInt8
  recordBody : Nat × Nat × String × AuditEvent × String → List UInt8
  checkpoint : AuditCheckpoint → List UInt8
  unsignedCheckpoint : UnsignedCheckpoint → List UInt8
  parseRecord : List UInt8 → Option AuditRecord
  parseCheckpoint : List UInt8 → Option AuditCheckpoint

/-- A record whose texts need no escapes. -/
structure AuditRecord.Plain (r : AuditRecord) : Prop where
  schemaVersion : r.schemaVersion < 2 ^ 16
  sequence : r.sequence < 2 ^ 64
  previousHash : isLowerHex r.previousHash 32 = true
  event : r.event.validate = .ok ()
  recordHash : isLowerHex r.recordHash 32 = true
  recordMac : isLowerHex r.recordMac 32 = true

/-- A checkpoint whose texts need no escapes. -/
structure AuditCheckpoint.Plain (c : AuditCheckpoint) : Prop where
  schemaVersion : c.schemaVersion < 2 ^ 16
  profileId : isLowerHex c.profileId 16 = true
  sequence : c.sequence < 2 ^ 64
  recordHash : isLowerHex c.recordHash 32 = true
  mac : isLowerHex c.mac 32 = true

/-- The newline that ends a record. -/
def newline : UInt8 := 10

/-- What the ledger relies on about the serializer: a compact text on one line that is read back
    as it was written, different texts for different events, and checkpoints that are short and
    not empty. -/
structure Serde.Lawful (s : Serde) : Prop where
  parse_record : ∀ r : AuditRecord, r.Plain → s.parseRecord (s.record r) = some r
  record_line : ∀ r : AuditRecord, r.Plain → s.record r ≠ [] ∧ newline ∉ s.record r
  parse_checkpoint : ∀ c : AuditCheckpoint, c.Plain → s.parseCheckpoint (s.checkpoint c) = some c
  checkpoint_length : ∀ c : AuditCheckpoint, c.Plain →
    (s.checkpoint c).length ≤ maxAuditRecordBytes
  parse_nil : s.parseCheckpoint [] = none
  event_injective : ∀ e e' : AuditEvent, e.validate = .ok () → e'.validate = .ok () →
    s.event e = s.event e' → e = e'

theorem one_pos : (0 : UInt64) < 1 := by decide

/-- A ledger of one profile generation, which `with_protected_key` checks not to be zero. -/
structure AuditLedger where
  profileId : Bytes 16
  profileGeneration : UInt64
  key : Bytes 32
  generation_pos : 0 < profileGeneration
  deriving DecidableEq, Repr

def recordDomain : List UInt8 := utf8Bytes "serctl/audit/record/v1" ++ [0]

def recordMacDomain : List UInt8 := utf8Bytes "serctl/audit/record-mac/v1" ++ [0]

def checkpointDomain : List UInt8 := utf8Bytes "serctl/audit/checkpoint/v1" ++ [0]

/-- What stands before the first record. -/
def zeroHash : Bytes 32 := Bytes.zero 32

section Hashing

variable (c : Crypto) (s : Serde)

/-- The hashed message of a record. -/
def recordMessage (sequence : Nat) (previousHash : Bytes 32) (event : AuditEvent) : List UInt8 :=
  recordDomain ++ ((Bytes.beBytes 2 auditSchemaVersion).val ++
    ((Bytes.beBytes 8 sequence).val ++ (previousHash.val ++
      ((Bytes.beBytes 8 (s.event event).length).val ++ s.event event))))

/-- The digest of a record. -/
def calculateRecordHash (sequence : Nat) (previousHash : Bytes 32) (event : AuditEvent) :
    Bytes 32 :=
  c.sha256 (recordMessage s sequence previousHash event)

/-- The hash chain of the ledger. -/
def auditChain : HashChain.Links AuditEvent (List UInt8) (Bytes 32) where
  zero := zeroHash
  message := recordMessage s
  hash := c.sha256

variable (l : AuditLedger)

/-- The MAC of a record. -/
def recordMac (r : AuditRecord) : String :=
  hexEncode (c.hmacSha256 l.key (recordMacDomain ++ s.recordBody r.body)).val

/-- The MAC of a checkpoint. -/
def checkpointMac (cp : AuditCheckpoint) : String :=
  hexEncode (c.hmacSha256 l.key (checkpointDomain ++ s.unsignedCheckpoint cp.unsigned)).val

/-- Compare a presented MAC with the expected one. -/
def verifyMac (presented expected decodeMessage lengthMessage mismatchMessage : String) :
    Except Error Unit :=
  match hexDecode presented with
  | none => .error ((Failure.msg "invalid hexadecimal").context decodeMessage)
  | some provided => do
    ensure (provided.length = 32) lengthMessage
    ensure (hexDecode expected = some provided) mismatchMessage

/-- The check of a record's MAC. -/
def verifyRecordMac (r : AuditRecord) : Except Error Unit :=
  verifyMac r.recordMac (recordMac c s l r) "decode audit record MAC"
    "audit record MAC length is invalid" "audit record authentication failed"

/-- The check of a checkpoint and of its MAC. -/
def verifyCheckpointMac (cp : AuditCheckpoint) : Except Error Unit := do
  ensure (cp.schemaVersion = auditSchemaVersion) "unsupported audit checkpoint schema"
  ensure (cp.profileId = hexEncode l.profileId.val ∧
      cp.profileGeneration = l.profileGeneration)
    "audit checkpoint profile identity mismatch"
  validateDigest cp.recordHash "checkpoint record hash"
  verifyMac cp.mac (checkpointMac c s l cp) "decode audit checkpoint MAC"
    "audit checkpoint MAC length is invalid" "audit checkpoint authentication failed"

/-- The MAC does not cover itself, so it is computed over a checkpoint without one. -/
def makeCheckpoint (sequence : Nat) (recordHash : Bytes 32) : AuditCheckpoint :=
  let checkpoint : AuditCheckpoint := ⟨auditSchemaVersion, hexEncode l.profileId.val,
    l.profileGeneration, sequence, hexEncode recordHash.val, ""⟩
  { checkpoint with mac := checkpointMac c s l checkpoint }

end Hashing

/-! ## Verified logs -/

/-- What an outcome must agree with its intent about. -/
structure PendingIntentBinding where
  operationKind : String
  policyDigest : String
  intentDigest : String
  deriving DecidableEq, Repr

/-- What an intent says. -/
def PendingIntentBinding.fromIntent (e : AuditEvent) : PendingIntentBinding :=
  ⟨e.operationKind, e.policyDigest, e.intentDigest⟩

/-- An outcome says the same as its intent. -/
def PendingIntentBinding.ensureMatchesOutcome (b : PendingIntentBinding) (e : AuditEvent) :
    Except Error Unit := do
  ensure (e.operationKind = b.operationKind)
    "audit Outcome operation kind does not match its Intent"
  ensure (e.policyDigest = b.policyDigest) "audit Outcome policy digest does not match its Intent"
  ensure (e.intentDigest = b.intentDigest) "audit Outcome intent digest does not match its Intent"

/-- What the verification of a log collects. -/
structure VerifiedLog where
  sequence : Nat := 0
  recordHash : Bytes 32 := zeroHash
  hashes : List (Bytes 32) := []
  seenIntents : List (Bytes 16) := []
  pendingIntents : List (Bytes 16 × PendingIntentBinding) := []
  firstEvent : Option AuditEvent := none
  deriving DecidableEq, Repr

/-- The intents after an event. -/
def VerifiedLog.track (v : VerifiedLog) (e : AuditEvent) : VerifiedLog :=
  match e.phase with
  | .intent => { v with
      seenIntents := v.seenIntents ++ [e.requestId]
      pendingIntents := v.pendingIntents ++ [(e.requestId, .fromIntent e)] }
  | .outcome => { v with
      pendingIntents := v.pendingIntents.filter fun entry => entry.1 ≠ e.requestId }
  | .administrative => v

/-- An outcome needs a pending intent that it agrees with. -/
def VerifiedLog.ensurePending (v : VerifiedLog) (e : AuditEvent) : Except Error Unit :=
  match v.pendingIntents.lookup e.requestId with
  | none => .error (.msg "audit Outcome does not match a pending Intent")
  | some binding => binding.ensureMatchesOutcome e

/-- May the event follow?  The message says how a repeated intent is reported. -/
def VerifiedLog.ensurePhase (v : VerifiedLog) (e : AuditEvent) (duplicate : String) :
    Except Error Unit :=
  match e.phase with
  | .intent => ensure (e.requestId ∉ v.seenIntents) duplicate
  | .outcome => v.ensurePending e
  | .administrative => .ok ()

section Verification

variable (c : Crypto) (s : Serde) (l : AuditLedger)

/-- The state after a record with this event. -/
def VerifiedLog.advance (v : VerifiedLog) (e : AuditEvent) : VerifiedLog :=
  let hash := calculateRecordHash c s (v.sequence + 1) v.recordHash e
  { v.track e with
    sequence := v.sequence + 1
    recordHash := hash
    hashes := v.hashes ++ [hash]
    firstEvent := v.firstEvent.or (some e) }

/-- The event is about the profile generation of the ledger. -/
def ensureIdentity (e : AuditEvent) (message : String) : Except Error Unit :=
  ensure (e.profileId = hexEncode l.profileId.val ∧
    e.profileGeneration = l.profileGeneration) message

/-- The checks on a record that parses. -/
def verifyRecord (v : VerifiedLog) (record : AuditRecord) : Except Error VerifiedLog := do
  ensure (record.schemaVersion = auditSchemaVersion) "unsupported audit record schema"
  verifyRecordMac c s l record
  record.event.validate
  ensureIdentity l record.event "audit record profile identity mismatch"
  v.ensurePhase record.event "audit ledger contains a duplicate Intent request id"
  ensure (v.sequence + 1 < 2 ^ 64) "audit sequence overflow"
  ensure (record.sequence = v.sequence + 1) "audit record sequence gap, replay or reordering"
  ensure (record.previousHash = hexEncode v.recordHash.val)
    "audit record previous hash mismatch"
  ensure (record.recordHash =
      hexEncode (calculateRecordHash c s record.sequence v.recordHash record.event).val)
    "audit record hash mismatch"
  return v.advance c s record.event

/-- One line, its newline included if it has one. -/
def verifyLine (v : VerifiedLog) (rawLine : List UInt8) : Except Error VerifiedLog := do
  ensure (rawLine.getLast? = some newline) "audit log ends with a partial record"
  ensure (rawLine.dropLast ≠ []) "audit log contains an empty record"
  ensure (rawLine.dropLast.length ≤ maxAuditRecordBytes) "audit record exceeds its size limit"
  match s.parseRecord rawLine.dropLast with
  | none => .error (.msg "parse audit record")
  | some record => verifyRecord c s l v record

/-- The lines of a text, each with the newline that ends it. -/
def splitInclusive : List UInt8 → List (List UInt8)
  | [] => []
  | b :: rest =>
    if b = newline then [b] :: splitInclusive rest
    else match splitInclusive rest with
      | [] => [[b]]
      | line :: lines => (b :: line) :: lines

/-- **Verify a log**, line by line. -/
def verifyLog (encoded : List UInt8) : Except Error VerifiedLog := do
  ensure (encoded.length ≤ maxAuditLogBytes) "audit log is oversized"
  (splitInclusive encoded).foldlM (verifyLine c s l) {}

/-- The events of a log, as its lines carry them. -/
def logEvents (encoded : List UInt8) : Option (List AuditEvent) :=
  (splitInclusive encoded).mapM fun line => (s.parseRecord line.dropLast).map AuditRecord.event

end Verification

end Serctl.Audit
