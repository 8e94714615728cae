import Serctl.Lib.Sha256
import Serctl.Remote.Codec

/-!
# Jobs and their receipts

The record of a job that the helper journals, and the receipt that it issues when the job has
ended.  A receipt binds the job, its deadlines and its outcome under a token that only the
controller and the job know; it is encoded in a fixed number of bytes.
-/

namespace Serctl.Remote

open Lib Lib.Guard List Lib.Bytes

/-! ## Words -/

/-- Addition that stops at the largest word. -/
def saturatingAdd (a b : UInt64) : UInt64 :=
  UInt64.ofNat (min (a.toNat + b.toNat) (2 ^ 64 - 1))

@[simp] theorem toNat_saturatingAdd (a b : UInt64) :
    (saturatingAdd a b).toNat = min (a.toNat + b.toNat) (2 ^ 64 - 1) := by
  rw [saturatingAdd, UInt64.toNat_ofNat']
  exact Nat.mod_eq_of_lt (by omega)

/-- Subtraction that stops at zero. -/
def saturatingSub (a b : UInt64) : UInt64 := if b ≤ a then a - b else 0

/-! ## Jobs -/

def maxRelayWindowMs : UInt64 := 40 * 60 * 1000
def maxResultRetentionMs : UInt64 := 24 * 60 * 60 * 1000

/-- How far a job has come. -/
inductive JobStage where
  | submitted
  | running
  | cancelling
  | unknown
  | completed
  | failed
  | cancelled
  deriving DecidableEq, Repr

/-- The job has ended. -/
def JobStage.isTerminal : JobStage → Bool
  | .completed | .failed | .cancelled => true
  | _ => false

/-- When a job must end, be told of and be forgotten. -/
structure JobDeadlines where
  remoteUnixMs : UInt64
  relayUnixMs : UInt64
  resultRetentionUnixMs : UInt64
  deriving DecidableEq, Repr

/-- The deadlines are in order and not too far away. -/
def JobDeadlines.validateAt (deadlines : JobDeadlines) (nowUnixMs : UInt64) :
    Except String Unit := do
  rejectIf (¬nowUnixMs < deadlines.remoteUnixMs) "remote deadline must be in the future"
  rejectIf (¬deadlines.remoteUnixMs ≤ deadlines.relayUnixMs)
    "relay deadline precedes remote deadline"
  rejectIf (¬deadlines.relayUnixMs ≤ deadlines.resultRetentionUnixMs)
    "result retention precedes relay deadline"
  rejectIf (¬saturatingSub deadlines.relayUnixMs nowUnixMs ≤ maxRelayWindowMs)
    "relay deadline exceeds the 40-minute grant window"
  rejectIf (¬saturatingSub deadlines.resultRetentionUnixMs nowUnixMs ≤ maxResultRetentionMs)
    "result retention exceeds the policy ceiling"

/-- What a job is. -/
structure JobIdentity where
  jobId : JobId
  profileId : ProfileId
  profileGeneration : UInt64
  policyDigest : Digest32
  inputDigest : Digest32
  deriving DecidableEq, Repr

/-- Some byte is not zero. -/
def anyNonzero {n : Nat} (bytes : Bytes n) : Bool := bytes.val.any (· != 0)

/-- No part is zero. -/
def JobIdentity.validate (identity : JobIdentity) : Except String Unit := do
  rejectIf (anyNonzero identity.jobId = false) "job identifier must be non-zero"
  rejectIf (anyNonzero identity.profileId = false) "profile identifier must be non-zero"
  rejectIf (¬identity.profileGeneration > 0) "profile generation must be non-zero"
  rejectIf (anyNonzero identity.policyDigest = false) "policy digest must be non-zero"
  rejectIf (anyNonzero identity.inputDigest = false) "input digest must be non-zero"

/-- The journal of a job. -/
structure JobRecord where
  identity : JobIdentity
  deadlines : JobDeadlines
  runAsUid : UInt32
  stage : JobStage
  heartbeatOrdinal : UInt64
  elapsedMs : UInt64
  stdoutBytes : UInt64
  stderrBytes : UInt64
  maxOutputBytes : UInt64
  updatedUnixMs : UInt64
  deriving DecidableEq, Repr

namespace JobRecord

/-- The journal of a new job. -/
def submitted (identity : JobIdentity) (deadlines : JobDeadlines) (runAsUid : UInt32)
    (maxOutputBytes nowUnixMs : UInt64) : Except String JobRecord := do
  identity.validate
  deadlines.validateAt nowUnixMs
  rejectIf (runAsUid = 0) "execution UID must be non-zero"
  rejectIf (¬maxOutputBytes > 0) "output budget must be non-zero"
  return {
    identity, deadlines, runAsUid, maxOutputBytes
    stage := .submitted
    heartbeatOrdinal := 0
    elapsedMs := 0
    stdoutBytes := 0
    stderrBytes := 0
    updatedUnixMs := nowUnixMs }

/-- The child is about to be started. -/
def markRunning (record : JobRecord) (nowUnixMs : UInt64) : Except String JobRecord := do
  rejectIf (record.stage ≠ .submitted) "job can enter running only from submitted"
  rejectIf (¬nowUnixMs ≥ record.updatedUnixMs) "job clock moved backwards"
  rejectIf (¬nowUnixMs < record.deadlines.remoteUnixMs) "remote deadline already elapsed"
  return { record with stage := .running, updatedUnixMs := nowUnixMs }

/-- A heartbeat that counts on. -/
def observeHeartbeat (record : JobRecord) (heartbeat : HeartbeatFrame) (nowUnixMs : UInt64) :
    Except String JobRecord := do
  rejectIf (¬(record.stage = .running ∨ record.stage = .cancelling))
    "heartbeat is invalid in the current stage"
  rejectIf (heartbeat.jobId ≠ record.identity.jobId) "heartbeat job mismatch"
  rejectIf (¬heartbeat.ordinal > record.heartbeatOrdinal) "heartbeat replay or reordering"
  rejectIf (¬heartbeat.elapsedMs ≥ record.elapsedMs) "elapsed time regressed"
  rejectIf (¬(heartbeat.stdoutBytes ≥ record.stdoutBytes ∧
    heartbeat.stderrBytes ≥ record.stderrBytes)) "output counters regressed"
  rejectIf (¬saturatingAdd heartbeat.stdoutBytes heartbeat.stderrBytes ≤ record.maxOutputBytes)
    "output budget exceeded"
  rejectIf (¬nowUnixMs ≥ record.updatedUnixMs) "job clock moved backwards"
  return { record with
    heartbeatOrdinal := heartbeat.ordinal
    elapsedMs := heartbeat.elapsedMs
    stdoutBytes := heartbeat.stdoutBytes
    stderrBytes := heartbeat.stderrBytes
    updatedUnixMs := nowUnixMs }

/-- The job is to be stopped. -/
def requestCancel (record : JobRecord) (nowUnixMs : UInt64) : Except String JobRecord := do
  rejectIf (record.stage ≠ .running) "job is not cancellable"
  rejectIf (¬nowUnixMs ≥ record.updatedUnixMs) "job clock moved backwards"
  return { record with stage := .cancelling, updatedUnixMs := nowUnixMs }

/-- Disconnects, restarts and relay deadlines are inconclusive. -/
def markUnknown (record : JobRecord) (nowUnixMs : UInt64) : Except String JobRecord := do
  rejectIf (record.stage.isTerminal = true) "terminal jobs cannot become unknown"
  rejectIf (¬nowUnixMs ≥ record.updatedUnixMs) "job clock moved backwards"
  return { record with stage := .unknown, updatedUnixMs := nowUnixMs }

end JobRecord

/-! ## Receipts -/

/-- How a job ended, in its receipt. -/
inductive ReceiptOutcome where
  | exited (code : Int32)
  | cancelled
  | deadlineExceeded
  deriving DecidableEq, Repr

/-- What a receipt vouches for. -/
structure ReceiptBody where
  identity : JobIdentity
  runAsUid : UInt32
  deadlines : JobDeadlines
  maxOutputBytes : UInt64
  stdoutDigest : Digest32
  stderrDigest : Digest32
  outcome : ReceiptOutcome
  completedUnixMs : UInt64
  deriving DecidableEq, Repr

/-- A receipt with its authentication. -/
structure AuthenticatedReceipt where
  body : ReceiptBody
  tokenHash : Bytes 32
  mac : Bytes 32
  deriving DecidableEq, Repr

def receiptVersion : UInt16 := 1
def receiptBytes : Nat :=
  4 + 2 + 16 + 16 + 8 + 32 + 32 + 4 + (8 * 4) + 32 + 32 + 1 + 4 + 8 + 32 + 32
def receiptMagic : Bytes 4 := ⟨[0x53, 0x52, 0x52, 0x43], rfl⟩
def tokenHashDomain : List UInt8 := Text.utf8Bytes "serctl-job-token-v1" ++ [0]
def receiptMacDomain : List UInt8 := Text.utf8Bytes "serctl-job-receipt-v1" ++ [0]

/-- How the job ended, as five bytes. -/
def putReceiptOutcome : ReceiptOutcome → List UInt8
  | .exited code => 0 :: putI32 code
  | .cancelled => 1 :: putI32 0
  | .deadlineExceeded => 2 :: putI32 0

/-- The fields behind magic and version. -/
def ReceiptBody.fields (body : ReceiptBody) : List UInt8 :=
  body.identity.jobId.val ++ (body.identity.profileId.val ++
    (putU64 body.identity.profileGeneration ++ (body.identity.policyDigest.val ++
    (body.identity.inputDigest.val ++ (putU32 body.runAsUid ++
    (putU64 body.deadlines.remoteUnixMs ++ (putU64 body.deadlines.relayUnixMs ++
    (putU64 body.deadlines.resultRetentionUnixMs ++ (putU64 body.maxOutputBytes ++
    (body.stdoutDigest.val ++ (body.stderrDigest.val ++ (putReceiptOutcome body.outcome ++
    putU64 body.completedUnixMs))))))))))))

/-- The bytes that are authenticated. -/
def canonicalReceiptBody (body : ReceiptBody) : List UInt8 :=
  receiptMagic.val ++ (putU16 receiptVersion ++ body.fields)

/-- The digest of the token. -/
def hashToken (token : Secret32) : Bytes 32 := Sha256.digest (tokenHashDomain ++ token.val)

/-- The MAC of a receipt. -/
def receiptMac (token : Secret32) (body : List UInt8) (tokenHash : Bytes 32) : Bytes 32 :=
  Sha256.hmac token.val (receiptMacDomain ++ body ++ tokenHash.val)

/-- Each deadline is not before the last. -/
def JobDeadlines.ordered (deadlines : JobDeadlines) : Prop :=
  deadlines.remoteUnixMs ≤ deadlines.relayUnixMs ∧
    deadlines.relayUnixMs ≤ deadlines.resultRetentionUnixMs

instance (deadlines : JobDeadlines) : Decidable deadlines.ordered :=
  inferInstanceAs (Decidable (_ ∧ _))

/-- Fields are read off the front of what is left of a receipt. -/
abbrev ReceiptReader := Reader String

def takeArray (n : Nat) : ReceiptReader (Bytes n) := Reader.take n "receipt is truncated"

def takeU8 : ReceiptReader UInt8 := do
  let bytes ← takeArray 1
  return UInt8.ofNat (ofBytes bytes.val)

def takeU32 : ReceiptReader UInt32 := do
  let bytes ← takeArray 4
  return UInt32.ofNat (ofBytes bytes.val)

def takeI32 : ReceiptReader Int32 := do
  let value ← takeU32
  return value.toInt32

def takeU64 : ReceiptReader UInt64 := do
  let bytes ← takeArray 8
  return UInt64.ofNat (ofBytes bytes.val)

/-- How a job ended. -/
def receiptOutcome (kind : UInt8) (code : Int32) : Except String ReceiptOutcome :=
  if kind = 0 then .ok (.exited code)
  else if kind = 1 ∧ code = 0 then .ok .cancelled
  else if kind = 2 ∧ code = 0 then .ok .deadlineExceeded
  else .error "receipt outcome is invalid"

/-- The fields behind magic and version, up to the end. -/
def readReceipt : ReceiptReader AuthenticatedReceipt := do
  let jobId ← takeArray 16
  let profileId ← takeArray 16
  let profileGeneration ← takeU64
  let policyDigest ← takeArray 32
  let inputDigest ← takeArray 32
  let runAsUid ← takeU32
  let remoteUnixMs ← takeU64
  let relayUnixMs ← takeU64
  let resultRetentionUnixMs ← takeU64
  let maxOutputBytes ← takeU64
  let stdoutDigest ← takeArray 32
  let stderrDigest ← takeArray 32
  let outcomeKind ← takeU8
  let exitCode ← takeI32
  let outcome ← Reader.check (receiptOutcome outcomeKind exitCode)
  let completedUnixMs ← takeU64
  let tokenHash ← takeArray 32
  let mac ← takeArray 32
  let left ← Reader.left
  Reader.check (rejectIf (left ≠ 0) "receipt has trailing bytes")
  return {
    body := {
      identity := ⟨jobId, profileId, profileGeneration, policyDigest, inputDigest⟩
      runAsUid
      deadlines := ⟨remoteUnixMs, relayUnixMs, resultRetentionUnixMs⟩
      maxOutputBytes, stdoutDigest, stderrDigest, outcome, completedUnixMs }
    tokenHash, mac }

namespace AuthenticatedReceipt

/-- **Issue a receipt.** -/
def issue (body : ReceiptBody) (token : Secret32) : Except String AuthenticatedReceipt := do
  body.identity.validate
  rejectIf (body.runAsUid = 0) "execution UID must be non-zero"
  rejectIf (¬body.deadlines.ordered) "receipt deadline ordering is invalid"
  rejectIf (¬body.maxOutputBytes > 0) "receipt output budget must be non-zero"
  rejectIf (¬body.completedUnixMs > 0) "completion time must be non-zero"
  let tokenHash := hashToken token
  return ⟨body, tokenHash, receiptMac token (canonicalReceiptBody body) tokenHash⟩

/-- A receipt as bytes. -/
def encode (receipt : AuthenticatedReceipt) : List UInt8 :=
  canonicalReceiptBody receipt.body ++ (receipt.tokenHash.val ++ receipt.mac.val)

/-- Bytes as a receipt. -/
def decode (bytes : List UInt8) : Except String AuthenticatedReceipt := do
  rejectIf (bytes.length ≠ receiptBytes) "receipt length is invalid"
  rejectIf (slice bytes 0 4 ≠ receiptMagic.val) "receipt magic is invalid"
  rejectIf (UInt16.ofNat (ofBytes (slice bytes 4 6)) ≠ receiptVersion)
    "receipt version is unsupported"
  let read ← readReceipt (bytes.drop 6)
  let receipt := read.1
  receipt.body.identity.validate
  rejectIf (receipt.body.runAsUid = 0) "receipt execution UID is invalid"
  rejectIf (¬receipt.body.deadlines.ordered) "receipt deadline ordering is invalid"
  rejectIf (¬receipt.body.maxOutputBytes > 0) "receipt output budget is invalid"
  return receipt

/-- The receipt is for this job and this token. -/
def verify (receipt : AuthenticatedReceipt) (expected : JobIdentity) (deadlines : JobDeadlines)
    (runAsUid : UInt32) (maxOutputBytes : UInt64) (token : Secret32) (nowUnixMs : UInt64) :
    Except String ReceiptBody := do
  rejectIf (receipt.body.identity ≠ expected) "receipt identity mismatch"
  rejectIf (¬(receipt.body.runAsUid = runAsUid ∧ runAsUid ≠ 0)) "receipt execution UID mismatch"
  rejectIf (receipt.body.deadlines ≠ deadlines) "receipt deadlines mismatch"
  rejectIf (¬(receipt.body.maxOutputBytes = maxOutputBytes ∧ maxOutputBytes ≠ 0))
    "receipt output budget mismatch"
  rejectIf (¬receipt.body.completedUnixMs ≤ deadlines.relayUnixMs)
    "receipt completion exceeds relay deadline"
  rejectIf (¬receipt.body.completedUnixMs ≤ nowUnixMs) "receipt completion is in the future"
  rejectIf (¬nowUnixMs ≤ deadlines.resultRetentionUnixMs) "receipt retention expired"
  rejectIf (hashToken token ≠ receipt.tokenHash) "receipt token mismatch"
  rejectIf (receiptMac token (canonicalReceiptBody receipt.body) receipt.tokenHash ≠ receipt.mac)
    "receipt authentication failed"
  return receipt.body

end AuthenticatedReceipt

/-- How a query for a receipt is answered. -/
def verifyQueryReceipt (record : JobRecord) (receiptBytes : List UInt8)
    (query : QueryReceiptFrame) (nowUnixMs : UInt64) : Except String ReceiptBody := do
  let expected : JobIdentity := ⟨query.jobId, query.profileId, query.profileGeneration,
    query.policyDigest, query.inputDigest⟩
  rejectIf (record.identity ≠ expected) "receipt query identity mismatch"
  let receipt ← AuthenticatedReceipt.decode receiptBytes
  receipt.verify expected record.deadlines record.runAsUid record.maxOutputBytes
    query.receiptToken nowUnixMs

/-! ## Reconciliation -/

/-- What a job turns out to be after a restart. -/
inductive ReconcileOutcome where
  | unknown (record : JobRecord)
  | recovered (record : JobRecord) (receipt : ReceiptBody)
  deriving DecidableEq, Repr

/-- The stage that an outcome ends a job in. -/
def ReceiptOutcome.stage : ReceiptOutcome → JobStage
  | .exited code => if code = 0 then .completed else .failed
  | .deadlineExceeded => .failed
  | .cancelled => .cancelled

/-- What a job turns out to be after a restart. -/
def reconcile (record : JobRecord) (receiptBytes : Option (List UInt8)) (token : Secret32)
    (nowUnixMs : UInt64) : Except String ReconcileOutcome :=
  match receiptBytes with
  | none => do
    rejectIf (¬nowUnixMs ≥ record.updatedUnixMs) "job clock moved backwards"
    return .unknown { record with stage := .unknown, updatedUnixMs := nowUnixMs }
  | some bytes => do
    let receipt ← AuthenticatedReceipt.decode bytes
    let body ← receipt.verify record.identity record.deadlines record.runAsUid
      record.maxOutputBytes token nowUnixMs
    return .recovered
      { record with stage := body.outcome.stage, updatedUnixMs := body.completedUnixMs } body

/-! ## Issued receipts -/

variable {bytes rest : List UInt8}

@[simp] theorem takeArray_eq_ok {n : Nat} {b : Bytes n} :
    takeArray n bytes = .ok (b, rest) ↔ bytes = b.val ++ rest :=
  Reader.take_eq_ok

@[simp] theorem takeU8_eq_ok {v : UInt8} : takeU8 bytes = .ok (v, rest) ↔ bytes = v :: rest :=
  Reader.byte_eq_ok

@[simp] theorem takeU32_eq_ok {v : UInt32} :
    takeU32 bytes = .ok (v, rest) ↔ bytes = putU32 v ++ rest :=
  Reader.word_eq_ok (g := UInt32.toNat) (by simp) (by intro m hm; simp; omega)
    (fun v => v.toNat_lt)

@[simp] theorem takeU64_eq_ok {v : UInt64} :
    takeU64 bytes = .ok (v, rest) ↔ bytes = putU64 v ++ rest :=
  Reader.word_eq_ok (g := UInt64.toNat) (by simp) (by intro m hm; simp; omega)
    (fun v => v.toNat_lt)

@[simp] theorem takeI32_eq_ok {v : Int32} :
    takeI32 bytes = .ok (v, rest) ↔ bytes = putI32 v ++ rest := by
  simp only [takeI32, Reader.bind_eq_ok, takeU32_eq_ok, Reader.pure_eq_ok]
  constructor
  · rintro ⟨value, _, rfl, rfl, rfl⟩
    simp [putI32]
  · rintro rfl
    exact ⟨v.toUInt32, rest, rfl, by simp, rfl⟩

/-- An outcome is read from the bytes that are written for it and from no others. -/
theorem exists_receiptOutcome {outcome : ReceiptOutcome} {head : List UInt8} :
    (∃ kind code, head = kind :: putI32 code ∧ receiptOutcome kind code = .ok outcome) ↔
      head = putReceiptOutcome outcome := by
  constructor
  · rintro ⟨kind, code, rfl, hread⟩
    -- the kinds without a code are read with the code zero only
    unfold receiptOutcome at hread
    split_ifs at hread with hexit hcancel hdeadline
    · cases hread
      rw [hexit]
      rfl
    · cases hread
      rw [hcancel.1, hcancel.2]
      rfl
    · cases hread
      rw [hdeadline.1, hdeadline.2]
      rfl
  · rintro rfl
    cases outcome with
    | exited code => exact ⟨0, code, rfl, rfl⟩
    | cancelled => exact ⟨1, 0, rfl, rfl⟩
    | deadlineExceeded => exact ⟨2, 0, rfl, rfl⟩

/-- The fields of a receipt are read back. -/
theorem readReceipt_fields (receipt : AuthenticatedReceipt) :
    readReceipt (receipt.body.fields ++ (receipt.tokenHash.val ++ receipt.mac.val)) =
      .ok (receipt, []) := by
  obtain ⟨kind, code, hput, hread⟩ :=
    exists_receiptOutcome.mpr (Eq.refl (putReceiptOutcome receipt.body.outcome))
  simp only [readReceipt, ReceiptBody.fields, hput, append_assoc, cons_append,
    Reader.bind_eq_ok, takeArray_eq_ok, takeU8_eq_ok, takeU32_eq_ok, takeU64_eq_ok, takeI32_eq_ok,
    Reader.check_eq_ok, Reader.left_eq_ok, Reader.pure_eq_ok, rejectIf_eq_ok]
  refine ⟨_, _, rfl, _, _, rfl, _, _, rfl, _, _, rfl, _, _, rfl, _, _, rfl, _, _, rfl, _, _, rfl,
    _, _, rfl, _, _, rfl, _, _, rfl, _, _, rfl, kind, _, rfl, code, _, rfl, _, _, ⟨hread, rfl⟩,
    _, _, rfl, _, _, rfl, receipt.mac, [], by simp, 0, [], ⟨rfl, rfl⟩, (), [], ⟨by simp, rfl⟩,
    rfl, rfl⟩

variable {receipt : AuthenticatedReceipt}

/-- A receipt is read from its own fields only. -/
theorem fields_of_readReceipt (h : readReceipt bytes = .ok (receipt, rest)) :
    bytes = receipt.body.fields ++ (receipt.tokenHash.val ++ receipt.mac.val) := by
  simp only [readReceipt, Reader.bind_eq_ok, takeArray_eq_ok, takeU8_eq_ok, takeU32_eq_ok,
    takeU64_eq_ok, takeI32_eq_ok, Reader.check_eq_ok, Reader.left_eq_ok, Reader.pure_eq_ok,
    rejectIf_eq_ok, not_not] at h
  obtain ⟨jobId, _, rfl, profileId, _, rfl, generation, _, rfl, policy, _, rfl, h⟩ := h
  obtain ⟨input, _, rfl, uid, _, rfl, remote, _, rfl, relay, _, rfl, h⟩ := h
  obtain ⟨retention, _, rfl, output, _, rfl, stdout, _, rfl, stderr, _, rfl, h⟩ := h
  obtain ⟨kind, _, rfl, code, _, rfl, outcome, _, ⟨houtcome, rfl⟩, completed, _, rfl, h⟩ := h
  obtain ⟨tokenHash, _, rfl, mac, _, rfl, left, _, ⟨rfl, rfl⟩, _, _, ⟨hleft, rfl⟩, rfl, rfl⟩ := h
  have hput := exists_receiptOutcome.mp ⟨kind, code, rfl, houtcome⟩
  simp only [ReceiptBody.fields, ← hput, length_eq_zero_iff.mp hleft, append_assoc,
    cons_append, append_nil]

theorem length_putReceiptOutcome (outcome : ReceiptOutcome) :
    (putReceiptOutcome outcome).length = 5 := by
  cases outcome <;> simp [putReceiptOutcome, putI32, putU32, (beBytes 4 _).property]

namespace AuthenticatedReceipt

/-- All receipts have one length. -/
theorem length_encode (receipt : AuthenticatedReceipt) :
    receipt.encode.length = receiptBytes := by
  simp only [encode, canonicalReceiptBody, ReceiptBody.fields, putU16, putU32, putU64,
    length_append, length_val, length_putReceiptOutcome, receiptBytes]

/-- What every issued receipt fulfils; reading checks it again. -/
structure Wellformed (body : ReceiptBody) : Prop where
  identity : body.identity.validate = .ok ()
  runAsUid : body.runAsUid ≠ 0
  deadlines : body.deadlines.ordered
  maxOutputBytes : 0 < body.maxOutputBytes

/-- **A receipt is read back from its bytes.** -/
theorem decode_encode (h : Wellformed receipt.body) :
    decode receipt.encode = .ok receipt := by
  have hmagic : slice receipt.encode 0 4 = receiptMagic.val := by
    simp [slice, encode, canonicalReceiptBody, take_append_of_le_length, receiptMagic]
  have hversion : UInt16.ofNat (ofBytes (slice receipt.encode 4 6)) = receiptVersion := by
    rfl
  have hfields : receipt.encode.drop 6 =
      receipt.body.fields ++ (receipt.tokenHash.val ++ receipt.mac.val) := by
    rfl
  simp only [decode, bind_eq_ok, rejectIf_eq_ok, pure_eq_ok, hmagic, hversion, hfields,
    readReceipt_fields]
  exact ⟨(), by simp [length_encode], (), by simp, (), by simp, _, rfl, (), h.identity, (),
    h.runAsUid, (), not_not.mpr h.deadlines, (), not_not.mpr h.maxOutputBytes, rfl⟩

/-- **Encodings are canonical**: bytes that are read as a receipt are its encoding. -/
theorem encode_of_decode {bytes : List UInt8}
    (h : decode bytes = .ok receipt) : receipt.encode = bytes := by
  simp only [decode, bind_eq_ok, rejectIf_eq_ok, pure_eq_ok, not_not] at h
  obtain ⟨-, hlength, -, hmagic, -, hversion, ⟨read, left⟩, hread, -, -, -, -, -, -, -, -, rfl⟩ := h
  have hlong : 6 ≤ bytes.length := by
    rw [hlength]
    decide
  -- magic and version take the first six bytes, the fields what is left
  have hword : slice bytes 4 6 = putU16 receiptVersion := by
    have htwo : (slice bytes 4 6).length = 2 := by
      simp only [slice, length_take, length_drop]
      omega
    have hback := beBytes_ofBytes (n := 2) ⟨slice bytes 4 6, htwo⟩
    have hvalue : ofBytes (slice bytes 4 6) = receiptVersion.toNat := by
      have hlt := ofBytes_lt (slice bytes 4 6)
      rw [← hversion, UInt16.toNat_ofNat', Nat.mod_eq_of_lt]
      rwa [htwo] at hlt
    rw [hvalue] at hback
    exact (congrArg Subtype.val hback).symm
  calc read.encode = receiptMagic.val ++ (putU16 receiptVersion ++ bytes.drop 6) := by
        rw [fields_of_readReceipt hread]
        simp [encode, canonicalReceiptBody]
    _ = bytes.take 4 ++ ((bytes.drop 4).take 2 ++ bytes.drop 6) := by
        rw [← hmagic, ← hword]
        rfl
    _ = bytes := by
        rw [show bytes.drop 6 = (bytes.drop 4).drop 2 by simp, take_append_drop, take_append_drop]

variable {token : Secret32}

/-- When a receipt is issued, and which. -/
theorem issue_eq_ok {body : ReceiptBody} :
    issue body token = .ok receipt ↔ Wellformed body ∧ 0 < body.completedUnixMs ∧
      receipt = ⟨body, hashToken token,
        receiptMac token (canonicalReceiptBody body) (hashToken token)⟩ := by
  simp only [issue, bind_eq_ok, rejectIf_eq_ok, pure_eq_ok, not_not]
  constructor
  · rintro ⟨_, hidentity, _, huid, _, hdeadlines, _, houtput, _, hcompleted, rfl⟩
    exact ⟨⟨hidentity, huid, hdeadlines, houtput⟩, hcompleted, rfl⟩
  · rintro ⟨h, hcompleted, rfl⟩
    exact ⟨(), h.identity, (), h.runAsUid, (), h.deadlines, (), h.maxOutputBytes, (), hcompleted,
      rfl⟩

/-- **When an issued receipt is accepted**: for its own job and token, the times alone decide. -/
theorem verify_issue {body : ReceiptBody} (h : issue body token = .ok receipt) (now : UInt64) :
    receipt.verify body.identity body.deadlines body.runAsUid body.maxOutputBytes token now =
        .ok body ↔
      body.completedUnixMs ≤ body.deadlines.relayUnixMs ∧ body.completedUnixMs ≤ now ∧
        now ≤ body.deadlines.resultRetentionUnixMs := by
  obtain ⟨hbody, -, rfl⟩ := issue_eq_ok.mp h
  have houtput : body.maxOutputBytes ≠ 0 := (UInt64.ne_of_lt hbody.maxOutputBytes).symm
  simp only [verify, bind_eq_ok, rejectIf_eq_ok, pure_eq_ok, not_not]
  simp [hbody.runAsUid, houtput]

/-! ## Changed receipts -/

/-- What the code of a receipt authenticates. -/
def authenticated (receipt : AuthenticatedReceipt) : List UInt8 :=
  receiptMacDomain ++ canonicalReceiptBody receipt.body ++ receipt.tokenHash.val

/-- Nobody finds the code of a message that the holder of the token did not sign. -/
def Unforged (token : Secret32) (signed : Set (List UInt8)) (message : List UInt8)
    (mac : Bytes 32) : Prop :=
  Sha256.hmac token.val message = mac → message ∈ signed

/-- The authenticated bytes say everything. -/
theorem canonicalReceiptBody_injective {b c : ReceiptBody}
    (h : canonicalReceiptBody b = canonicalReceiptBody c) : b = c := by
  have hread := readReceipt_fields ⟨b, zero 32, zero 32⟩
  have hfields : b.fields = c.fields := by
    simpa [canonicalReceiptBody] using h
  rw [hfields, readReceipt_fields ⟨c, zero 32, zero 32⟩] at hread
  cases hread
  rfl

/-- Only the issued receipt itself is accepted for its job and token. -/
theorem eq_of_verify {body body' : ReceiptBody}
    {other : AuthenticatedReceipt} {now : UInt64} (h : issue body token = .ok receipt)
    (hunforged : Unforged token {receipt.authenticated} other.authenticated other.mac)
    (haccepted : other.verify body.identity body.deadlines body.runAsUid body.maxOutputBytes token
      now = .ok body') : other = receipt := by
  obtain ⟨-, -, rfl⟩ := issue_eq_ok.mp h
  simp only [verify, bind_eq_ok, rejectIf_eq_ok, pure_eq_ok, not_not] at haccepted
  obtain ⟨-, -, -, -, -, -, -, -, -, -, -, -, -, -, -, htoken, -, hmac, -⟩ := haccepted
  -- the code is right, so what it authenticates was signed
  have hsigned : other.authenticated = _ := hunforged hmac
  simp only [authenticated, htoken, append_assoc, append_cancel_left_eq,
    append_cancel_right_eq] at hsigned
  have hbody : other.body = body := canonicalReceiptBody_injective hsigned
  calc other = ⟨other.body, other.tokenHash, other.mac⟩ := rfl
    _ = _ := by rw [← hmac, ← htoken, hbody]

/-- **Receipts**.  An issued receipt is read back and accepted between completion and retention,
    bytes that are read as a receipt are its encoding, and other bytes than those of the issued
    receipt are refused for its job and token. -/
theorem receipt_roundtrip_tamperproof :
    (∀ body token receipt, issue body token = .ok receipt →
      decode receipt.encode = .ok receipt ∧
      (∀ now, body.completedUnixMs ≤ body.deadlines.relayUnixMs → body.completedUnixMs ≤ now →
        now ≤ body.deadlines.resultRetentionUnixMs →
        receipt.verify body.identity body.deadlines body.runAsUid body.maxOutputBytes token now =
          .ok body) ∧
      ∀ bytes ≠ receipt.encode,
        (∀ other, decode bytes = .ok other →
          Unforged token {receipt.authenticated} other.authenticated other.mac) →
        ∀ now, ¬∃ other body', decode bytes = .ok other ∧
          other.verify body.identity body.deadlines body.runAsUid body.maxOutputBytes token now =
            .ok body') ∧
    ∀ bytes receipt, decode bytes = .ok receipt → receipt.encode = bytes := by
  refine ⟨fun body token receipt h => ⟨?_, ?_, ?_⟩, fun bytes receipt h => encode_of_decode h⟩
  · obtain ⟨hbody, -, rfl⟩ := issue_eq_ok.mp h
    exact decode_encode hbody
  · intro now hrelay hnow hretention
    exact (verify_issue h now).mpr ⟨hrelay, hnow, hretention⟩
  · rintro bytes hbytes hunforged now ⟨other, body', hread, haccepted⟩
    apply hbytes
    rw [← encode_of_decode hread, eq_of_verify h (hunforged other hread) haccepted]

/-- The receipt of a job that was stopped at its deadline. -/
def stoppedBody : ReceiptBody where
  identity := ⟨.fill 16 1, .fill 16 2, 3, .fill 32 4, .fill 32 5⟩
  runAsUid := 1000
  deadlines := ⟨2000, 3000, 4000⟩
  maxOutputBytes := 100
  stdoutDigest := .fill 32 6
  stderrDigest := .fill 32 7
  outcome := .deadlineExceeded
  completedUnixMs := 2000

def stoppedToken : Secret32 := .fill 32 8

def stoppedReceipt : AuthenticatedReceipt :=
  ⟨stoppedBody, hashToken stoppedToken,
    receiptMac stoppedToken (canonicalReceiptBody stoppedBody) (hashToken stoppedToken)⟩

/-- Every byte of the code is changed. -/
def changedReceipt : AuthenticatedReceipt :=
  { stoppedReceipt with mac := ⟨stoppedReceipt.mac.val.map (· + 1), by
      rw [List.length_map]
      exact stoppedReceipt.mac.property⟩ }

theorem issue_stopped : issue stoppedBody stoppedToken = .ok stoppedReceipt :=
  issue_eq_ok.mpr ⟨⟨rfl, by decide, by decide, by decide⟩, by decide, rfl⟩

theorem wellformed_stoppedBody : Wellformed stoppedBody := (issue_eq_ok.mp issue_stopped).1

theorem decode_stoppedReceipt : decode stoppedReceipt.encode = .ok stoppedReceipt :=
  decode_encode wellformed_stoppedBody

theorem decode_changedReceipt : decode changedReceipt.encode = .ok changedReceipt :=
  decode_encode wellformed_stoppedBody

theorem changedReceipt_ne : changedReceipt.encode ≠ stoppedReceipt.encode := by
  intro h
  have hsame : changedReceipt = stoppedReceipt := by
    apply Except.ok.inj (ε := String)
    rw [← decode_changedReceipt, h, decode_stoppedReceipt]
  have hmac : stoppedReceipt.mac.val.map (· + 1) = stoppedReceipt.mac.val :=
    congrArg (fun r => r.mac.val) hsame
  have hlength := stoppedReceipt.mac.property
  -- no byte is its own successor
  cases hbytes : stoppedReceipt.mac.val with
  | nil => simp [hbytes] at hlength
  | cons b bytes =>
    rw [hbytes, map_cons] at hmac
    have hb : (b + 1).toNat = b.toNat := congrArg UInt8.toNat (List.cons.inj hmac).1
    rw [UInt8.toNat_add] at hb
    have hlt := b.toNat_lt
    simp only [UInt8.toNat_one] at hb
    omega

theorem stopped_receipt_tamperproof :
    stoppedReceipt.verify stoppedBody.identity stoppedBody.deadlines stoppedBody.runAsUid
        stoppedBody.maxOutputBytes stoppedToken 2500 = .ok stoppedBody ∧
      decode changedReceipt.encode = .ok changedReceipt ∧
      ¬∃ other body', decode changedReceipt.encode = .ok other ∧
        other.verify stoppedBody.identity stoppedBody.deadlines stoppedBody.runAsUid
          stoppedBody.maxOutputBytes stoppedToken 2500 = .ok body' := by
  obtain ⟨-, hverify, htamper⟩ := receipt_roundtrip_tamperproof.1 _ _ _ issue_stopped
  refine ⟨hverify 2500 (by decide) (by decide) (by decide), decode_changedReceipt,
    htamper _ changedReceipt_ne ?_ 2500⟩
  intro other hother
  rw [decode_changedReceipt] at hother
  cases hother
  -- the body is the one that was signed
  intro _
  simp only [Set.mem_singleton_iff, authenticated, changedReceipt]

end AuthenticatedReceipt

end Serctl.Remote
