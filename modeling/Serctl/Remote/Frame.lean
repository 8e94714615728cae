import Serctl.Lib.Wire

/-!
# Frames of the remote helper

The controller and the helper on the remote host exchange frames over the standard streams of
the helper.  A frame has a fixed header and a payload of a kind; numbers are big-endian, texts and
byte strings carry their length in front.
-/

namespace Serctl.Remote

open Lib Lib.Guard Lib.Reader

/-! ## Limits -/

def magic : Bytes 4 := ⟨[0x53, 0x52, 0x52, 0x50], rfl⟩
def protocolVersion : UInt16 := 1
def headerBytes : Nat := 20
def maxFramePayload : Nat := 128 * 1024
def maxOutputChunk : Nat := 32 * 1024
def maxPolicyBytes : Nat := 64 * 1024
def maxProgramBytes : Nat := 128
def maxArgCount : Nat := 64
def maxArgBytes : Nat := 4 * 1024
def maxArgTotalBytes : Nat := 16 * 1024
def maxEnvCount : Nat := 16
def maxEnvNameBytes : Nat := 64
def maxEnvValueBytes : Nat := 1024
def maxEnvTotalBytes : Nat := 8 * 1024
def maxPathBytes : Nat := 4 * 1024
def maxReceiptBytes : Nat := 4 * 1024
def maxErrorCodeBytes : Nat := 64
def maxErrorMessageBytes : Nat := 2 * 1024
def maxCancelReasonBytes : Nat := 256
def maxOutputBytes : UInt64 := 64 * 1024 * 1024
def featureCancel : UInt64 := 1
def featureReceiptQuery : UInt64 := 2
def supportedFeatureBits : UInt64 := featureCancel ||| featureReceiptQuery

/-! ## Frames -/

abbrev JobId := Bytes 16
abbrev ProfileId := Bytes 16
abbrev Digest32 := Bytes 32
abbrev Secret32 := Bytes 32

/-- The kinds of frames. -/
inductive FrameKind where
  | hello
  | start
  | stdout
  | stderr
  | heartbeat
  | cancel
  | exit
  | receipt
  | error
  | queryReceipt
  deriving DecidableEq, Repr

/-- What can be wrong with a stream of frames. -/
inductive ProtocolError where
  | io (message : String)
  | badMagic
  | unsupportedVersion (version : UInt16)
  | unknownFrameKind (kind : UInt8)
  | reservedFlags (flags : UInt8)
  | frameTooLarge (size : Nat)
  | kindPayloadTooLarge (kind : FrameKind) (size : Nat)
  | truncated
  | trailingBytes
  | invalidUtf8
  | invalidValue (field : String)
  | sequence (expected actual : UInt64)
  | invalidState (message : String)
  deriving DecidableEq, Repr

/-- The codes of the kinds. -/
def FrameKind.code : FrameKind → UInt8
  | .hello => 1
  | .start => 2
  | .stdout => 3
  | .stderr => 4
  | .heartbeat => 5
  | .cancel => 6
  | .exit => 7
  | .receipt => 8
  | .error => 9
  | .queryReceipt => 10

/-- The kind with a code. -/
def FrameKind.tryFrom (value : UInt8) : Except ProtocolError FrameKind :=
  if value = 1 then .ok .hello
  else if value = 2 then .ok .start
  else if value = 3 then .ok .stdout
  else if value = 4 then .ok .stderr
  else if value = 5 then .ok .heartbeat
  else if value = 6 then .ok .cancel
  else if value = 7 then .ok .exit
  else if value = 8 then .ok .receipt
  else if value = 9 then .ok .error
  else if value = 10 then .ok .queryReceipt
  else .error (.unknownFrameKind value)

/-- `effectiveUid` is zero when the controller speaks. -/
structure HelloFrame where
  maxFramePayload : UInt32
  featureBits : UInt64
  effectiveUid : UInt32
  deriving DecidableEq, Repr

/-- A variable of the environment. -/
structure EnvEntry where
  name : String
  value : String
  deriving DecidableEq, Repr

/-- A request for a job. -/
structure StartFrame where
  jobId : JobId
  profileId : ProfileId
  profileGeneration : UInt64
  policyDigest : Digest32
  inputDigest : Digest32
  remoteDeadlineUnixMs : UInt64
  relayDeadlineUnixMs : UInt64
  resultRetentionUnixMs : UInt64
  runAsUid : UInt32
  maxOutputBytes : UInt64
  program : String
  argv : List String
  env : List EnvEntry
  cwd : Option String
  policyJson : List UInt8
  receiptToken : Secret32
  deriving DecidableEq, Repr

/-- A piece of the output of a job. -/
structure OutputFrame where
  jobId : JobId
  offset : UInt64
  data : List UInt8
  deriving DecidableEq, Repr

/-- A sign of life. -/
structure HeartbeatFrame where
  jobId : JobId
  ordinal : UInt64
  elapsedMs : UInt64
  stdoutBytes : UInt64
  stderrBytes : UInt64
  deriving DecidableEq, Repr

/-- The wish that a job ends. -/
structure CancelFrame where
  jobId : JobId
  reason : String
  deriving DecidableEq, Repr

/-- How a job ended. -/
inductive ExitOutcome where
  | exited (code : Int32)
  | cancelled
  | deadlineExceeded
  deriving DecidableEq, Repr

/-- The end of a job. -/
structure ExitFrame where
  jobId : JobId
  outcome : ExitOutcome
  completedUnixMs : UInt64
  deriving DecidableEq, Repr

/-- The encoded receipt of a job. -/
structure ReceiptFrame where
  jobId : JobId
  bytes : List UInt8
  deriving DecidableEq, Repr

/-- What went wrong. -/
structure ErrorFrame where
  jobId : Option JobId
  code : String
  message : String
  retryable : Bool
  deriving DecidableEq, Repr

/-- A query for the receipt of a job. -/
structure QueryReceiptFrame where
  jobId : JobId
  profileId : ProfileId
  profileGeneration : UInt64
  policyDigest : Digest32
  inputDigest : Digest32
  receiptToken : Secret32
  deriving DecidableEq, Repr

/-- The messages between the controller and the helper. -/
inductive Frame where
  | hello (value : HelloFrame)
  | start (value : StartFrame)
  | stdout (value : OutputFrame)
  | stderr (value : OutputFrame)
  | heartbeat (value : HeartbeatFrame)
  | cancel (value : CancelFrame)
  | exit (value : ExitFrame)
  | receipt (value : ReceiptFrame)
  | error (value : ErrorFrame)
  | queryReceipt (value : QueryReceiptFrame)
  deriving DecidableEq, Repr

/-- The kind of a frame. -/
def Frame.kind : Frame → FrameKind
  | .hello _ => .hello
  | .start _ => .start
  | .stdout _ => .stdout
  | .stderr _ => .stderr
  | .heartbeat _ => .heartbeat
  | .cancel _ => .cancel
  | .exit _ => .exit
  | .receipt _ => .receipt
  | .error _ => .error
  | .queryReceipt _ => .queryReceipt

/-- A frame with its number. -/
structure Envelope where
  sequence : UInt64
  frame : Frame
  deriving DecidableEq, Repr

/-! ## Checks -/

/-- A payload is not too long for its kind. -/
def validatePayloadSize (kind : FrameKind) (size : Nat) : Except ProtocolError Unit := do
  rejectIf (size > maxFramePayload) (.frameTooLarge size)
  let kindLimit := match kind with
    | .hello => 16
    | .start => maxFramePayload
    | .stdout | .stderr => 24 + maxOutputChunk
    | .heartbeat => 48
    | .cancel => 18 + maxCancelReasonBytes
    | .exit => 29
    | .receipt => 20 + maxReceiptBytes
    | .error => 24 + maxErrorCodeBytes + maxErrorMessageBytes
    | .queryReceipt => 136
  rejectIf (size > kindLimit) (.kindPayloadTooLarge kind size)

/-- A length is within its bounds. -/
def validateRange (field : String) (length minimum maximum : Nat) : Except ProtocolError Unit :=
  rejectIf (¬(minimum ≤ length ∧ length ≤ maximum)) (.invalidValue field)

/-- A text is within its bounds and has no control character. -/
def validateText (field value : String) (minimum maximum : Nat) : Except ProtocolError Unit := do
  validateRange field (Text.byteLen value) minimum maximum
  rejectIf ((Text.utf8Bytes value).contains 0 = true ∨ Text.hasControl value = true)
    (.invalidValue field)

/-- Some byte is not zero. -/
def validateNonzero {n : Nat} (field : String) (bytes : Bytes n) : Except ProtocolError Unit :=
  rejectIf (bytes.val.all (· == 0) = true) (.invalidValue field)

/-- Lengths are added up in 64 bits and stay at the top. -/
def saturatingSum (lengths : List Nat) : Nat :=
  lengths.foldl (fun sum n => min (sum + n) (2 ^ 64 - 1)) 0

/-- The size of all arguments. -/
def argvBytes (argv : List String) : Nat := saturatingSum (argv.map Text.byteLen)

/-- The size of the environment. -/
def envBytes (env : List EnvEntry) : Nat :=
  saturatingSum (env.flatMap fun entry => [Text.byteLen entry.name, Text.byteLen entry.value])

/-- What every variable must fulfil. -/
def EnvEntry.validate (entry : EnvEntry) : Except ProtocolError Unit := do
  validateText "environment name" entry.name 1 maxEnvNameBytes
  validateText "environment value" entry.value 0 maxEnvValueBytes
  rejectIf (Text.containsChar entry.name '=' = true) (.invalidValue "environment name")

/-- A directory, if there is one, is not too long. -/
def validateCwd : Option String → Except ProtocolError Unit
  | some cwd => validateText "cwd" cwd 1 maxPathBytes
  | none => .ok ()

/-- What a request to start a job must fulfil. -/
def StartFrame.validate (value : StartFrame) : Except ProtocolError Unit := do
  validateNonzero "job_id" value.jobId
  validateNonzero "profile_id" value.profileId
  validateNonzero "policy_digest" value.policyDigest
  validateNonzero "input_digest" value.inputDigest
  validateNonzero "receipt_token" value.receiptToken
  rejectIf (value.profileGeneration = 0) (.invalidValue "profile_generation")
  rejectIf (value.runAsUid = 0) (.invalidValue "run_as_uid")
  rejectIf (value.remoteDeadlineUnixMs = 0 ∨
      value.remoteDeadlineUnixMs > value.relayDeadlineUnixMs ∨
      value.relayDeadlineUnixMs > value.resultRetentionUnixMs)
    (.invalidValue "deadlines")
  rejectIf (value.maxOutputBytes = 0 ∨ value.maxOutputBytes > Remote.maxOutputBytes)
    (.invalidValue "max_output_bytes")
  validateText "program" value.program 1 maxProgramBytes
  rejectIf (value.argv.length > maxArgCount) (.invalidValue "argv count")
  let _ ← collect (validateText "argument" · 0 maxArgBytes) value.argv
  rejectIf (argvBytes value.argv > maxArgTotalBytes) (.invalidValue "argv bytes")
  rejectIf (value.env.length > maxEnvCount) (.invalidValue "environment count")
  let _ ← collect EnvEntry.validate value.env
  rejectIf (envBytes value.env > maxEnvTotalBytes) (.invalidValue "environment bytes")
  validateCwd value.cwd
  validateRange "policy_json" value.policyJson.length 1 maxPolicyBytes

/-- What a query must fulfil. -/
def QueryReceiptFrame.validate (value : QueryReceiptFrame) : Except ProtocolError Unit := do
  validateNonzero "job_id" value.jobId
  validateNonzero "profile_id" value.profileId
  validateNonzero "policy_digest" value.policyDigest
  validateNonzero "input_digest" value.inputDigest
  validateNonzero "receipt_token" value.receiptToken
  rejectIf (value.profileGeneration = 0) (.invalidValue "profile_generation")

/-- The size of payloads that the peer takes. -/
def HelloFrame.checkPayload (maxFramePayload : UInt32) : Except ProtocolError Unit :=
  rejectIf (maxFramePayload = 0 ∨ maxFramePayload.toNat > Remote.maxFramePayload)
    (.invalidValue "hello max_frame_payload")

/-- No feature is unknown. -/
def HelloFrame.checkFeatures (featureBits : UInt64) : Except ProtocolError Unit :=
  rejectIf (featureBits &&& ~~~supportedFeatureBits ≠ 0)
    (.invalidValue "hello feature_bits")

/-! ## Writing

Each function returns the bytes that the code appends. -/

def putU16 (value : UInt16) : List UInt8 := (Bytes.beBytes 2 value.toNat).val

def putU32 (value : UInt32) : List UInt8 := (Bytes.beBytes 4 value.toNat).val

def putI32 (value : Int32) : List UInt8 := putU32 value.toUInt32

def putU64 (value : UInt64) : List UInt8 := (Bytes.beBytes 8 value.toNat).val

/-- Bytes after their number. -/
def putBytesU32 (bytes : List UInt8) : Except ProtocolError (List UInt8) := do
  rejectIf (¬bytes.length < 2 ^ 32) (.frameTooLarge bytes.length)
  return putU32 (UInt32.ofNat bytes.length) ++ bytes

/-- A text after its length. -/
def putStringU16 (field value : String) (minimum maximum : Nat) :
    Except ProtocolError (List UInt8) := do
  validateText field value minimum maximum
  rejectIf (¬Text.byteLen value < 2 ^ 16) (.invalidValue field)
  return putU16 (UInt16.ofNat (Text.byteLen value)) ++ Text.utf8Bytes value

/-- A variable as bytes. -/
def putEnvEntry (entry : EnvEntry) : Except ProtocolError (List UInt8) := do
  let name ← putStringU16 "environment name" entry.name 1 maxEnvNameBytes
  let value ← putStringU16 "environment value" entry.value 0 maxEnvValueBytes
  return name ++ value

/-- A directory, if there is one. -/
def putCwd : Option String → Except ProtocolError (List UInt8)
  | some cwd => do
    let text ← putStringU16 "cwd" cwd 1 maxPathBytes
    return 1 :: text
  | none => return [0]

/-- How a job ended, as five bytes. -/
def putExitOutcome : ExitOutcome → List UInt8
  | .exited code => 0 :: putI32 code
  | .cancelled => 1 :: putI32 0
  | .deadlineExceeded => 2 :: putI32 0

/-- A job, if there is one. -/
def putJobPresence : Option JobId → List UInt8
  | some jobId => 1 :: jobId.val
  | none => [0]

/-- A request for a job as bytes. -/
def encodeStart (value : StartFrame) : Except ProtocolError (List UInt8) := do
  value.validate
  let program ← putStringU16 "program" value.program 1 maxProgramBytes
  let argv ← collect (putStringU16 "argument" · 0 maxArgBytes) value.argv
  let env ← collect putEnvEntry value.env
  let cwd ← putCwd value.cwd
  let policyJson ← putBytesU32 value.policyJson
  return value.jobId.val ++ (value.profileId.val ++ (putU64 value.profileGeneration ++
    (value.policyDigest.val ++ (value.inputDigest.val ++ (putU64 value.remoteDeadlineUnixMs ++
    (putU64 value.relayDeadlineUnixMs ++ (putU64 value.resultRetentionUnixMs ++
    (putU32 value.runAsUid ++ (putU64 value.maxOutputBytes ++ (program ++
    (putU16 (UInt16.ofNat value.argv.length) ++ (argv.flatten ++
    (putU16 (UInt16.ofNat value.env.length) ++ (env.flatten ++ (cwd ++ (policyJson ++
    value.receiptToken.val))))))))))))))))

/-- A piece of output as bytes. -/
def encodeOutput (value : OutputFrame) : Except ProtocolError (List UInt8) := do
  validateRange "output data" value.data.length 0 maxOutputChunk
  return value.jobId.val ++ (putU64 value.offset ++ value.data)

/-- What follows the header. -/
def encodePayload : Frame → Except ProtocolError (List UInt8)
  | .hello value => do
    HelloFrame.checkPayload value.maxFramePayload
    HelloFrame.checkFeatures value.featureBits
    return putU32 value.maxFramePayload ++ (putU64 value.featureBits ++ putU32 value.effectiveUid)
  | .start value => encodeStart value
  | .stdout value | .stderr value => encodeOutput value
  | .heartbeat value =>
    return value.jobId.val ++ (putU64 value.ordinal ++ (putU64 value.elapsedMs ++
      (putU64 value.stdoutBytes ++ putU64 value.stderrBytes)))
  | .cancel value => do
    let reason ← putStringU16 "cancel reason" value.reason 1 maxCancelReasonBytes
    return value.jobId.val ++ reason
  | .exit value =>
    return value.jobId.val ++ (putExitOutcome value.outcome ++ putU64 value.completedUnixMs)
  | .receipt value => do
    validateRange "receipt" value.bytes.length 1 maxReceiptBytes
    let bytes ← putBytesU32 value.bytes
    return value.jobId.val ++ bytes
  | .error value => do
    let code ← putStringU16 "error code" value.code 1 maxErrorCodeBytes
    let message ← putStringU16 "error message" value.message 1 maxErrorMessageBytes
    return putJobPresence value.jobId ++ (code ++ (message ++ [if value.retryable then 1 else 0]))
  | .queryReceipt value => do
    value.validate
    return value.jobId.val ++ (value.profileId.val ++ (putU64 value.profileGeneration ++
      (value.policyDigest.val ++ (value.inputDigest.val ++ value.receiptToken.val))))

/-- **An envelope as bytes.** -/
def encode (envelope : Envelope) : Except ProtocolError (List UInt8) := do
  let payload ← encodePayload envelope.frame
  validatePayloadSize envelope.frame.kind payload.length
  rejectIf (¬payload.length < 2 ^ 32) (.frameTooLarge payload.length)
  return magic.val ++ (putU16 protocolVersion ++ (envelope.frame.kind.code :: 0 ::
    (putU64 envelope.sequence ++ (putU32 (UInt32.ofNat payload.length) ++ payload))))

/-! ## Reading -/

/-- Fields are read off the front of what is left of a payload. -/
abbrev PayloadReader := Reader ProtocolError

namespace PayloadReader

def array (n : Nat) : PayloadReader (Bytes n) := take n .truncated

def u8 : PayloadReader UInt8 := do
  let bytes ← array 1
  return UInt8.ofNat (Bytes.ofBytes bytes.val)

def u16 : PayloadReader UInt16 := do
  let bytes ← array 2
  return UInt16.ofNat (Bytes.ofBytes bytes.val)

def u32 : PayloadReader UInt32 := do
  let bytes ← array 4
  return UInt32.ofNat (Bytes.ofBytes bytes.val)

def i32 : PayloadReader Int32 := do
  let value ← u32
  return value.toInt32

def u64 : PayloadReader UInt64 := do
  let bytes ← array 8
  return UInt64.ofNat (Bytes.ofBytes bytes.val)

def jobId : PayloadReader JobId := array 16

/-- Bytes after their number. -/
def bytesU32 (field : String) (minimum maximum : Nat) : PayloadReader (List UInt8) := do
  let length ← u32
  check (validateRange field length.toNat minimum maximum)
  let bytes ← array length.toNat
  return bytes.val

/-- The text that the bytes encode. -/
def fromUtf8 (bytes : List UInt8) : Except ProtocolError String :=
  match Text.ofUtf8 bytes with
  | some value => .ok value
  | none => .error .invalidUtf8

/-- A text after its length. -/
def stringU16 (field : String) (minimum maximum : Nat) : PayloadReader String := do
  let length ← u16
  check (validateRange field length.toNat minimum maximum)
  let bytes ← array length.toNat
  let value ← check (fromUtf8 bytes.val)
  check (validateText field value minimum maximum)
  return value

/-- All that is left. -/
def remainingBounded (maximum : Nat) : PayloadReader (List UInt8) := do
  let remaining ← left
  check (validateRange "remaining payload" remaining 0 maximum)
  let bytes ← array remaining
  return bytes.val

/-- Nothing is left. -/
def finish : PayloadReader Unit := do
  let remaining ← left
  check (rejectIf (remaining ≠ 0) .trailingBytes)

end PayloadReader

open PayloadReader

/-- A variable. -/
def decodeEnvEntry : PayloadReader EnvEntry := do
  let name ← stringU16 "environment name" 1 maxEnvNameBytes
  check (rejectIf (Text.containsChar name '=' = true)
    (.invalidValue "environment name"))
  let value ← stringU16 "environment value" 0 maxEnvValueBytes
  return ⟨name, value⟩

/-- A directory, if there is one. -/
def decodeCwd : PayloadReader (Option String) := do
  let presence ← u8
  if presence = 0 then return none
  else if presence = 1 then do
    let cwd ← stringU16 "cwd" 1 maxPathBytes
    return some cwd
  else check (.error (.invalidValue "cwd presence"))

/-- A request for a job. -/
def decodeStart : PayloadReader StartFrame := do
  let jobId ← jobId
  let profileId ← array 16
  let profileGeneration ← u64
  let policyDigest ← array 32
  let inputDigest ← array 32
  let remoteDeadlineUnixMs ← u64
  let relayDeadlineUnixMs ← u64
  let resultRetentionUnixMs ← u64
  let runAsUid ← u32
  let maxOutputBytes ← u64
  let program ← stringU16 "program" 1 maxProgramBytes
  let argumentCount ← u16
  check (rejectIf (argumentCount.toNat > maxArgCount) (.invalidValue "argv count"))
  let argv ← (stringU16 "argument" 0 maxArgBytes).times argumentCount.toNat
  check (rejectIf (argvBytes argv > maxArgTotalBytes) (.invalidValue "argv bytes"))
  let environmentCount ← u16
  check (rejectIf (environmentCount.toNat > maxEnvCount)
    (.invalidValue "environment count"))
  let env ← decodeEnvEntry.times environmentCount.toNat
  check (rejectIf (envBytes env > maxEnvTotalBytes)
    (.invalidValue "environment bytes"))
  let cwd ← decodeCwd
  let policyJson ← bytesU32 "policy_json" 1 maxPolicyBytes
  let receiptToken ← array 32
  let start : StartFrame := ⟨jobId, profileId, profileGeneration, policyDigest, inputDigest,
    remoteDeadlineUnixMs, relayDeadlineUnixMs, resultRetentionUnixMs, runAsUid, maxOutputBytes,
    program, argv, env, cwd, policyJson, receiptToken⟩
  check start.validate
  return start

/-- A piece of output. -/
def decodeOutput : PayloadReader OutputFrame := do
  let jobId ← jobId
  let offset ← u64
  let data ← remainingBounded maxOutputChunk
  return ⟨jobId, offset, data⟩

/-- How a job ended. -/
def exitOutcome (kind : UInt8) (code : Int32) : Except ProtocolError ExitOutcome :=
  if kind = 0 then .ok (.exited code)
  else if kind = 1 ∧ code = 0 then .ok .cancelled
  else if kind = 2 ∧ code = 0 then .ok .deadlineExceeded
  else .error (.invalidValue "exit outcome")

/-- A job, if there is one. -/
def decodeJobPresence : PayloadReader (Option JobId) := do
  let presence ← u8
  if presence = 0 then return none
  else if presence = 1 then do
    let jobId ← jobId
    return some jobId
  else check (.error (.invalidValue "error job presence"))

/-- A truth value as a byte. -/
def retryableFrom (value : UInt8) : Except ProtocolError Bool :=
  if value = 0 then .ok false
  else if value = 1 then .ok true
  else .error (.invalidValue "error retryable")

/-- The fields of a frame. -/
def decodeFields : FrameKind → PayloadReader Frame
  | .hello => do
    let maxFramePayload ← u32
    let featureBits ← u64
    check (HelloFrame.checkPayload maxFramePayload)
    check (HelloFrame.checkFeatures featureBits)
    let effectiveUid ← u32
    return .hello ⟨maxFramePayload, featureBits, effectiveUid⟩
  | .start => do
    let start ← decodeStart
    return .start start
  | .stdout => do
    let output ← decodeOutput
    return .stdout output
  | .stderr => do
    let output ← decodeOutput
    return .stderr output
  | .heartbeat => do
    let jobId ← jobId
    let ordinal ← u64
    let elapsedMs ← u64
    let stdoutBytes ← u64
    let stderrBytes ← u64
    return .heartbeat ⟨jobId, ordinal, elapsedMs, stdoutBytes, stderrBytes⟩
  | .cancel => do
    let jobId ← jobId
    let reason ← stringU16 "cancel reason" 1 maxCancelReasonBytes
    return .cancel ⟨jobId, reason⟩
  | .exit => do
    let jobId ← jobId
    let kind ← u8
    let code ← i32
    let outcome ← check (exitOutcome kind code)
    let completedUnixMs ← u64
    return .exit ⟨jobId, outcome, completedUnixMs⟩
  | .receipt => do
    let jobId ← jobId
    let bytes ← bytesU32 "receipt" 1 maxReceiptBytes
    return .receipt ⟨jobId, bytes⟩
  | .error => do
    let jobId ← decodeJobPresence
    let code ← stringU16 "error code" 1 maxErrorCodeBytes
    let message ← stringU16 "error message" 1 maxErrorMessageBytes
    let flag ← u8
    let retryable ← check (retryableFrom flag)
    return .error ⟨jobId, code, message, retryable⟩
  | .queryReceipt => do
    let jobId ← jobId
    let profileId ← array 16
    let profileGeneration ← u64
    check (rejectIf (profileGeneration = 0) (.invalidValue "profile_generation"))
    let policyDigest ← array 32
    let inputDigest ← array 32
    let receiptToken ← array 32
    let query : QueryReceiptFrame :=
      ⟨jobId, profileId, profileGeneration, policyDigest, inputDigest, receiptToken⟩
    check query.validate
    return .queryReceipt query

/-- A payload is read to its end. -/
def decodePayload (kind : FrameKind) (payload : List UInt8) : Except ProtocolError Frame := do
  let read ← (do
    let frame ← decodeFields kind
    finish
    return frame : PayloadReader Frame) payload
  return read.1

/-- The bytes from one position up to another. -/
def slice (bytes : List UInt8) (start stop : Nat) : List UInt8 :=
  (bytes.drop start).take (stop - start)

/-- **Bytes as an envelope**, with nothing behind it. -/
def decodeExact (bytes : List UInt8) : Except ProtocolError Envelope := do
  rejectIf (bytes.length < headerBytes) .truncated
  rejectIf (slice bytes 0 4 ≠ magic.val) .badMagic
  let version := UInt16.ofNat (Bytes.ofBytes (slice bytes 4 6))
  rejectIf (version ≠ protocolVersion) (.unsupportedVersion version)
  let kind ← FrameKind.tryFrom (bytes.getD 6 0)
  let flags := bytes.getD 7 0
  rejectIf (flags ≠ 0) (.reservedFlags flags)
  let sequence := UInt64.ofNat (Bytes.ofBytes (slice bytes 8 16))
  let payloadLen := (UInt32.ofNat (Bytes.ofBytes (slice bytes 16 20))).toNat
  validatePayloadSize kind payloadLen
  let expected := headerBytes + payloadLen
  rejectIf (bytes.length < expected) .truncated
  rejectIf (bytes.length ≠ expected) .trailingBytes
  let frame ← decodePayload kind (bytes.drop headerBytes)
  return ⟨sequence, frame⟩

end Serctl.Remote
