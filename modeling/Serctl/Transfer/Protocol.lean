import Mathlib.Data.List.Basic
import Serctl.Lib.Input
import Serctl.Lib.Json
import Serctl.Lib.Sha256

/-!
# The transfer protocol

Frames between a client and the transfer helper: control messages are bounded JSON, file data is
carried as raw bytes.  Frames are checked where they are written and again where they are read.
-/

namespace Serctl.Transfer

open Lib Lib.Codec Lib.Guard

/-! ## Limits -/

def magic : List UInt8 := [0x53, 0x52, 0x58, 0x46]
def version : UInt16 := 1
def maxControlBytes : Nat := 64 * 1024
def maxChunkBytes : Nat := 1024 * 1024
def maxFrameBytes : Nat := maxChunkBytes + 64
def maxWindowBytes : UInt32 := 8 * 1024 * 1024
def maxPathBytes : Nat := 4 * 1024
def maxErrorCodeBytes : Nat := 64
def maxHelperVersionBytes : Nat := 256
def maxHelperBinaryBytes : UInt64 := 512 * 1024 * 1024
def helperBinaryName : String := "serctl-xfer"

/-! ## Texts -/

/-- Sixteen bytes in hexadecimal. -/
def validateTransferId (value : String) : Except String Unit :=
  rejectIf (Text.isLowerHex value 16 = false)
    "native transfer id must contain 32 lowercase hex characters"

/-- Thirty-two bytes in hexadecimal. -/
def validateSha256 (value label : String) : Except String Unit :=
  rejectIf (Text.isLowerHex value 32 = false)
    (label ++ " must contain 64 lowercase hex characters")

/-- A path is not empty, not too long and has no zero byte. -/
def validatePath (value label : String) : Except String Unit :=
  rejectIf (¬(value ≠ "" ∧ Text.byteLen value ≤ maxPathBytes ∧ '\x00' ∉ value.toList))
    ("invalid native transfer " ++ label)

/-- What stands before and behind the first occurrence of a text. -/
def splitOnce (separator : List Char) : List Char → Option (List Char × List Char)
  | [] => none
  | c :: cs => match (c :: cs).dropPrefix? separator with
    | some rest => some ([], rest)
    | none => (splitOnce separator cs).map fun (before, behind) => (c :: before, behind)

def isAsciiControl (c : Char) : Bool := c.toNat < 32 || c.toNat == 127

def isAsciiAlphanumeric (c : Char) : Bool := c.isAlpha || c.isDigit

def isLowerHexDigit (c : Char) : Bool := ('0' ≤ c && c ≤ '9') || ('a' ≤ c && c ≤ 'f')

/-- What a helper says it is. -/
structure HelperRuntimeIdentity where
  name : String
  binarySize : UInt64
  sha256 : String
  version : String
  deriving DecidableEq, Repr

/-- The release and the commit that a version names. -/
def releaseAndCommit (version : String) : Option (List Char × List Char) :=
  (version.toList.dropPrefix? (helperBinaryName ++ " ").toList).bind fun body =>
    (body.dropSuffix? "; transfer protocol v1)".toList).bind fun body =>
      splitOnce " (git ".toList body

/-- The commit without the mark of a build from changed sources. -/
def cleanCommit (commit : List Char) : List Char :=
  (commit.dropSuffix? "-dirty".toList).getD commit

namespace HelperRuntimeIdentity

/-- The version of a helper. -/
def validateVersion (value : String) : Except String Unit := do
  rejectIf (¬(value ≠ "" ∧ Text.byteLen value ≤ maxHelperVersionBytes ∧
      value.toList.all (fun c => c.toNat < 128) = true ∧
      value.toList.any isAsciiControl = false))
    "native helper version identity is invalid"
  let (release, commit) ← (releaseAndCommit value).elim
    (.error "native helper version identity grammar mismatch") .ok
  rejectIf (¬(release ≠ [] ∧ release.length ≤ 64 ∧
      release.all (fun c => isAsciiAlphanumeric c || c == '.' || c == '-') = true))
    "native helper release version is invalid"
  rejectIf (¬((cleanCommit commit).length = 12 ∧ (cleanCommit commit).all isLowerHexDigit = true))
    "native helper commit identity is invalid"

/-- What a helper must say it is. -/
def validate (identity : HelperRuntimeIdentity) : Except String Unit := do
  rejectIf (identity.name ≠ helperBinaryName) "native helper name mismatch"
  rejectIf (¬(1 ≤ identity.binarySize ∧ identity.binarySize ≤ maxHelperBinaryBytes))
    "native helper binary size is invalid"
  validateSha256 identity.sha256 "native helper binary SHA-256"
  validateVersion identity.version

end HelperRuntimeIdentity

/-! ## Control messages -/

/-- The control messages. -/
inductive Control where
  | helperHello (version : UInt16) (maxChunk maxWindow : UInt32)
      (resume sha256 fsync noReplace : Bool) (identity : HelperRuntimeIdentity)
  | hello (version : UInt16) (maxChunk maxWindow : UInt32) (resume sha256 fsync noReplace : Bool)
  | beginPush (transferId target : String) (size : UInt64) (sha256 resumeToken : String)
      (resume : Bool)
  | beginPull (transferId source : String) (offset : UInt64)
  | ready (chunk window : UInt32) (durableOffset : UInt64)
  | pullReady (chunk window : UInt32) (size : UInt64) (sha256 : String) (startOffset : UInt64)
  | ack (confirmedOffset durableOffset : UInt64) (receiverWindow : UInt32)
  | commit
  | completed (size : UInt64) (sha256 : String)
  | cancel
  | error (code message : String) (outcomeUnknown : Bool)
  deriving DecidableEq, Repr

/-- The version and the limits of a greeting. -/
def validateHelloLimits (helloVersion : UInt16) (maxChunk maxWindow : UInt32) :
    Except String Unit := do
  rejectIf (helloVersion ≠ version) "native transfer hello version mismatch"
  rejectIf (¬(1 ≤ maxChunk ∧ maxChunk ≤ UInt32.ofNat maxChunkBytes))
    "native transfer hello chunk limit is invalid"
  rejectIf (¬(maxChunk ≤ maxWindow ∧ maxWindow ≤ maxWindowBytes))
    "native transfer hello window limit is invalid"

/-- A chunk fits into the window. -/
def validateLimits (chunk window : UInt32) : Except String Unit := do
  rejectIf (¬(1 ≤ chunk ∧ chunk ≤ UInt32.ofNat maxChunkBytes))
    "native transfer chunk limit is invalid"
  rejectIf (¬(chunk ≤ window ∧ window ≤ maxWindowBytes)) "native transfer window limit is invalid"

def isErrorCodeChar (c : Char) : Bool := c.isLower || c.isDigit || c == '_' || c == '-' || c == '.'

/-- What every control message must fulfil. -/
def Control.validate : Control → Except String Unit
  | .helperHello version maxChunk maxWindow _ _ _ _ identity => do
    validateHelloLimits version maxChunk maxWindow
    identity.validate
  | .hello version maxChunk maxWindow _ _ _ _ => validateHelloLimits version maxChunk maxWindow
  | .beginPush transferId target _ sha256 resumeToken _ => do
    validateTransferId transferId
    validatePath target "target path"
    validateSha256 sha256 "native transfer SHA-256"
    validateSha256 resumeToken "native transfer resume token"
  | .beginPull transferId source _ => do
    validateTransferId transferId
    validatePath source "source path"
  | .ready chunk window _ => validateLimits chunk window
  | .pullReady chunk window size sha256 startOffset => do
    validateLimits chunk window
    rejectIf (¬startOffset ≤ size) "native pull start offset exceeds source size"
    validateSha256 sha256 "native pull SHA-256"
  | .ack confirmedOffset durableOffset receiverWindow => do
    rejectIf (¬durableOffset ≤ confirmedOffset)
      "native transfer durable offset exceeds confirmation"
    rejectIf (¬(1 ≤ receiverWindow ∧ receiverWindow ≤ maxWindowBytes))
      "native transfer receiver window is invalid"
  | .completed _ sha256 => validateSha256 sha256 "native completion SHA-256"
  | .error code message _ => do
    rejectIf (¬(code ≠ "" ∧ Text.byteLen code ≤ maxErrorCodeBytes ∧
      code.toList.all isErrorCodeChar = true)) "native transfer error code is invalid"
    rejectIf ('\x00' ∈ message.toList) "native transfer error message contains NUL"
  | .commit | .cancel => .ok ()

/-! ## The JSON of control messages -/

/-- The kinds of control messages. -/
inductive ControlType where
  | helperHello | hello | beginPush | beginPull | ready | pullReady | ack | commit | completed
  | cancel | error
  deriving DecidableEq, Repr

/-- The names of the kinds. -/
def ControlType.name : ControlType → String
  | .helperHello => "helper_hello"
  | .hello => "hello"
  | .beginPush => "begin_push"
  | .beginPull => "begin_pull"
  | .ready => "ready"
  | .pullReady => "pull_ready"
  | .ack => "ack"
  | .commit => "commit"
  | .completed => "completed"
  | .cancel => "cancel"
  | .error => "error"

/-- The fields of a type of messages. -/
def ControlType.Fields : ControlType → Type
  | .helperHello => (UInt16 × UInt32 × UInt32 × Bool × Bool × Bool × Bool) × HelperRuntimeIdentity
  | .hello => UInt16 × UInt32 × UInt32 × Bool × Bool × Bool × Bool
  | .beginPush => String × String × UInt64 × String × String × Bool
  | .beginPull => String × String × UInt64
  | .ready => UInt32 × UInt32 × UInt64
  | .pullReady => UInt32 × UInt32 × UInt64 × String × UInt64
  | .ack => UInt64 × UInt64 × UInt32
  | .commit | .cancel => Unit
  | .completed => UInt64 × String
  | .error => String × String × Bool

/-- A number of 64 bits and the byte that ends it. -/
def u64Codec (stop : UInt8) (hstop : 32 ≤ stop ∧ ¬(48 ≤ stop ∧ stop ≤ 57)) : Codec UInt64 :=
  numeral UInt64.toNat UInt64.ofNat (2 ^ 64) UInt64.toNat_lt @UInt64.ofNat_toNat stop hstop

/-- Numbers of 32 bits. -/
def u32Codec (stop : UInt8) (hstop : 32 ≤ stop ∧ ¬(48 ≤ stop ∧ stop ≤ 57)) : Codec UInt32 :=
  numeral UInt32.toNat UInt32.ofNat (2 ^ 32) UInt32.toNat_lt @UInt32.ofNat_toNat stop hstop

/-- Numbers of 16 bits. -/
def u16Codec (stop : UInt8) (hstop : 32 ≤ stop ∧ ¬(48 ≤ stop ∧ stop ≤ 57)) : Codec UInt16 :=
  numeral UInt16.toNat UInt16.ofNat (2 ^ 16) UInt16.toNat_lt @UInt16.ofNat_toNat stop hstop

/-- The JSON of an identity. -/
def identityCodec : Codec HelperRuntimeIdentity :=
  convert
    (seq (after "\x7b\"name\":" Json.text (by decide)) <|
     seq (after ",\"binary_size\":" (u64Codec 44 stop_comma) (by decide)) <|
     seq (after "\"sha256\":" Json.text (by decide))
       (after ",\"version\":" (before Json.text "\x7d" isPrintable_brace) (by decide)))
    (fun i => (i.name, i.binarySize, i.sha256, i.version))
    (fun (name, binarySize, sha256, version) => some ⟨name, binarySize, sha256, version⟩)
    (fun _ => True) (fun _ _ => ⟨⟨trivial, trivial, trivial, trivial⟩, rfl⟩)

/-- The JSON of a greeting. -/
def helloCodec : Codec (UInt16 × UInt32 × UInt32 × Bool × Bool × Bool × Bool) :=
  seq (after ",\"version\":" (u16Codec 44 stop_comma) (by decide)) <|
  seq (after "\"max_chunk\":" (u32Codec 44 stop_comma) (by decide)) <|
  seq (after "\"max_window\":" (u32Codec 44 stop_comma) (by decide)) <|
  seq (after "\"resume\":" Json.boolean (by decide)) <|
  seq (after ",\"sha256\":" Json.boolean (by decide)) <|
  seq (after ",\"fsync\":" Json.boolean (by decide))
    (after ",\"no_replace\":" Json.boolean (by decide))

/-- The fields behind the type, up to the closing brace. -/
def ControlType.fieldsCodec : (t : ControlType) → Codec t.Fields
  | .helperHello => seq helloCodec
      (after ",\"identity\":" (before identityCodec "\x7d" isPrintable_brace) (by decide))
  | .hello => before helloCodec "\x7d" isPrintable_brace
  | .beginPush =>
    seq (after ",\"transfer_id\":" Json.text (by decide)) <|
    seq (after ",\"target\":" Json.text (by decide)) <|
    seq (after ",\"size\":" (u64Codec 44 stop_comma) (by decide)) <|
    seq (after "\"sha256\":" Json.text (by decide)) <|
    seq (after ",\"resume_token\":" Json.text (by decide))
      (after ",\"resume\":" (before Json.boolean "\x7d" isPrintable_brace) (by decide))
  | .beginPull =>
    seq (after ",\"transfer_id\":" Json.text (by decide)) <|
    seq (after ",\"source\":" Json.text (by decide))
      (after ",\"offset\":" (u64Codec 125 stop_brace) (by decide))
  | .ready =>
    seq (after ",\"chunk\":" (u32Codec 44 stop_comma) (by decide)) <|
    seq (after "\"window\":" (u32Codec 44 stop_comma) (by decide))
      (after "\"durable_offset\":" (u64Codec 125 stop_brace) (by decide))
  | .pullReady =>
    seq (after ",\"chunk\":" (u32Codec 44 stop_comma) (by decide)) <|
    seq (after "\"window\":" (u32Codec 44 stop_comma) (by decide)) <|
    seq (after "\"size\":" (u64Codec 44 stop_comma) (by decide)) <|
    seq (after "\"sha256\":" Json.text (by decide))
      (after ",\"start_offset\":" (u64Codec 125 stop_brace) (by decide))
  | .ack =>
    seq (after ",\"confirmed_offset\":" (u64Codec 44 stop_comma) (by decide)) <|
    seq (after "\"durable_offset\":" (u64Codec 44 stop_comma) (by decide))
      (after "\"receiver_window\":" (u32Codec 125 stop_brace) (by decide))
  | .commit => before nothing "\x7d" isPrintable_brace
  | .completed =>
    seq (after ",\"size\":" (u64Codec 44 stop_comma) (by decide))
      (after "\"sha256\":" (before Json.text "\x7d" isPrintable_brace) (by decide))
  | .cancel => before nothing "\x7d" isPrintable_brace
  | .error =>
    seq (after ",\"code\":" Json.text (by decide)) <|
    seq (after ",\"message\":" Json.text (by decide))
      (after ",\"outcome_unknown\":" (before Json.boolean "\x7d" isPrintable_brace) (by decide))

/-- The kind of a message. -/
def controlTypeCodec : Codec ControlType :=
  after "\x7b\"type\":" (named ControlType.name
    [.helperHello, .hello, .beginPush, .beginPull, .ready, .pullReady, .ack, .commit, .completed,
      .cancel, .error]
    (by intro t; cases t <;> decide) (by intro t; cases t <;> decide)) (by decide)

/-- The type of a message and its fields. -/
def Control.unpack : Control → Σ t : ControlType, t.Fields
  | .helperHello version maxChunk maxWindow resume sha256 fsync noReplace identity =>
    ⟨.helperHello, (version, maxChunk, maxWindow, resume, sha256, fsync, noReplace), identity⟩
  | .hello version maxChunk maxWindow resume sha256 fsync noReplace =>
    ⟨.hello, version, maxChunk, maxWindow, resume, sha256, fsync, noReplace⟩
  | .beginPush transferId target size sha256 resumeToken resume =>
    ⟨.beginPush, transferId, target, size, sha256, resumeToken, resume⟩
  | .beginPull transferId source offset => ⟨.beginPull, transferId, source, offset⟩
  | .ready chunk window durableOffset => ⟨.ready, chunk, window, durableOffset⟩
  | .pullReady chunk window size sha256 startOffset =>
    ⟨.pullReady, chunk, window, size, sha256, startOffset⟩
  | .ack confirmedOffset durableOffset receiverWindow =>
    ⟨.ack, confirmedOffset, durableOffset, receiverWindow⟩
  | .commit => ⟨.commit, ()⟩
  | .completed size sha256 => ⟨.completed, size, sha256⟩
  | .cancel => ⟨.cancel, ()⟩
  | .error code message outcomeUnknown => ⟨.error, code, message, outcomeUnknown⟩

/-- A message from its fields. -/
def Control.pack : (Σ t : ControlType, t.Fields) → Control
  | ⟨.helperHello, (version, maxChunk, maxWindow, resume, sha256, fsync, noReplace), identity⟩ =>
    .helperHello version maxChunk maxWindow resume sha256 fsync noReplace identity
  | ⟨.hello, version, maxChunk, maxWindow, resume, sha256, fsync, noReplace⟩ =>
    .hello version maxChunk maxWindow resume sha256 fsync noReplace
  | ⟨.beginPush, transferId, target, size, sha256, resumeToken, resume⟩ =>
    .beginPush transferId target size sha256 resumeToken resume
  | ⟨.beginPull, transferId, source, offset⟩ => .beginPull transferId source offset
  | ⟨.ready, chunk, window, durableOffset⟩ => .ready chunk window durableOffset
  | ⟨.pullReady, chunk, window, size, sha256, startOffset⟩ =>
    .pullReady chunk window size sha256 startOffset
  | ⟨.ack, confirmedOffset, durableOffset, receiverWindow⟩ =>
    .ack confirmedOffset durableOffset receiverWindow
  | ⟨.commit, _⟩ => .commit
  | ⟨.completed, size, sha256⟩ => .completed size sha256
  | ⟨.cancel, _⟩ => .cancel
  | ⟨.error, code, message, outcomeUnknown⟩ => .error code message outcomeUnknown

/-- Every value fits the codec of its fields: texts and numbers of any kind are written. -/
theorem fits_fieldsCodec (t : ControlType) (fields : t.Fields) : t.fieldsCodec.Fits fields := by
  cases t with
  | helperHello =>
    exact ⟨⟨trivial, trivial, trivial, trivial, trivial, trivial, trivial⟩, trivial⟩
  | hello => exact ⟨trivial, trivial, trivial, trivial, trivial, trivial, trivial⟩
  | beginPush => exact ⟨trivial, trivial, trivial, trivial, trivial, trivial⟩
  | beginPull => exact ⟨trivial, trivial, trivial⟩
  | ready => exact ⟨trivial, trivial, trivial⟩
  | pullReady => exact ⟨trivial, trivial, trivial, trivial, trivial⟩
  | ack => exact ⟨trivial, trivial, trivial⟩
  | commit => exact trivial
  | completed => exact ⟨trivial, trivial⟩
  | cancel => exact trivial
  | error => exact ⟨trivial, trivial, trivial⟩

/-- The JSON of control messages. -/
def controlCodec : Codec Control :=
  convert (tagged controlTypeCodec ControlType.fieldsCodec) Control.unpack (some ∘ Control.pack)
    (fun _ => True) (by
      intro control _
      refine ⟨⟨trivial, fits_fieldsCodec _ _⟩, ?_⟩
      cases control <;> rfl)

/-! ## Data frames -/

/-- A piece of a file. -/
structure DataFrame where
  transferId : Bytes 16
  offset : UInt64
  chunkSha256 : Bytes 32
  payload : List UInt8
  deriving DecidableEq, Repr

/-- Where the piece ends. -/
def DataFrame.endOffset (data : DataFrame) : Except String UInt64 :=
  if data.offset.toNat + data.payload.length < 2 ^ 64 then
    .ok (data.offset + UInt64.ofNat data.payload.length)
  else .error "native transfer chunk offset overflow"

/-- What every piece must fulfil. -/
def DataFrame.validate (data : DataFrame) : Except String Unit := do
  rejectIf (data.payload = []) "native transfer chunk is empty"
  rejectIf (¬data.payload.length ≤ maxChunkBytes) "native transfer chunk is too large"
  rejectIf (Sha256.digest data.payload ≠ data.chunkSha256) "native transfer chunk SHA-256 mismatch"
  let _ ← data.endOffset

/-- The messages of a transfer. -/
inductive Frame where
  | control (control : Control)
  | data (data : DataFrame)
  deriving DecidableEq, Repr

/-- The kinds of messages. -/
inductive FrameKind where
  | control
  | data
  deriving DecidableEq, Repr

/-- The codes of the kinds. -/
def FrameKind.code : FrameKind → UInt8
  | .control => 1
  | .data => 2

/-! ## Writing -/

/-- Magic, version, kind, flags and the length of the body. -/
def header (kind : FrameKind) (bodyLen : Nat) : List UInt8 :=
  magic ++ ((Bytes.beBytes 2 version.toNat).val ++ ((Bytes.beBytes 1 kind.code.toNat).val ++
    ((Bytes.beBytes 1 0).val ++ (Bytes.beBytes 4 bodyLen).val)))

/-- The header of a frame. -/
def writeHeader (kind : FrameKind) (bodyLen : Nat) : Except String (List UInt8) := do
  rejectIf (¬bodyLen ≤ maxFrameBytes) "native transfer frame is too large"
  rejectIf (¬bodyLen < 2 ^ 32) "native transfer frame length overflow"
  return header kind bodyLen

/-- A control message as bytes. -/
def writeControl (control : Control) : Except String (List UInt8) := do
  control.validate
  let body := controlCodec.encode control
  rejectIf (¬body.length ≤ maxControlBytes) "native transfer control is too large"
  let header ← writeHeader .control body.length
  return header ++ body

/-- The bytes behind the header. -/
def DataFrame.body (data : DataFrame) : List UInt8 :=
  data.transferId.val ++ ((Bytes.beBytes 8 data.offset.toNat).val ++ (data.chunkSha256.val ++
    data.payload))

/-- A piece as bytes. -/
def writeData (data : DataFrame) : Except String (List UInt8) := do
  data.validate
  let header ← writeHeader .data (16 + 8 + 32 + data.payload.length)
  return header ++ data.body

/-- A frame as bytes. -/
def writeFrame : Frame → Except String (List UInt8)
  | .control control => writeControl control
  | .data data => writeData data

/-- Frames one after the other. -/
def writeFrames (frames : List Frame) : Except String (List UInt8) := do
  let texts ← collect writeFrame frames
  return texts.flatten

/-! ## Reading -/

section Read

variable {σ : Type} [AsyncRead σ]

-- The parser of control messages.
variable (fromSlice : List UInt8 → Option Control)

/-- The error of an input that ends too early. -/
def earlyEof : String := "early eof"

/-- The fields of a header behind its first byte: the kind and the length of the body. -/
def readHeaderFields (first : List UInt8) : Input String σ (UInt8 × Nat) := do
  let rest ← Input.readExact earlyEof 3
  Input.check (rejectIf (first ++ rest ≠ magic) "native transfer frame magic mismatch")
  let frameVersion ← Input.readWord earlyEof 2
  Input.check (rejectIf (frameVersion ≠ version.toNat)
    "unsupported native transfer protocol version")
  let kind ← Input.readWord earlyEof 1
  let flags ← Input.readWord earlyEof 1
  Input.check (rejectIf (flags ≠ 0) "unknown native transfer frame flags")
  let bodyLen ← Input.readWord earlyEof 4
  return (UInt8.ofNat kind, bodyLen)

/-- The kind and the length of a frame. -/
def readHeader (first : List UInt8) : Input String σ (UInt8 × Nat) := do
  let (kind, bodyLen) ← readHeaderFields first
  Input.check (rejectIf (¬bodyLen ≤ maxFrameBytes) "native transfer frame is too large")
  return (kind, bodyLen)

/-- A control message. -/
def readControl (bodyLen : Nat) : Input String σ Control := do
  Input.check (rejectIf (¬bodyLen ≤ maxControlBytes) "native transfer control is too large")
  let body ← Input.readExact earlyEof bodyLen
  let control ← Input.check ((fromSlice body).elim (.error "parse native transfer control") .ok)
  Input.check control.validate
  return control

/-- A piece. -/
def readData (bodyLen : Nat) : Input String σ DataFrame := do
  Input.check (rejectIf (¬56 ≤ bodyLen) "native transfer data frame is truncated")
  Input.check (rejectIf (¬bodyLen - 56 ≤ maxChunkBytes) "native transfer chunk is too large")
  let transferId ← Input.readArray earlyEof 16
  let offset ← Input.readWord earlyEof 8
  let chunkSha256 ← Input.readArray earlyEof 32
  let payload ← Input.readExact earlyEof (bodyLen - 56)
  let data : DataFrame := ⟨transferId, UInt64.ofNat offset, chunkSha256, payload⟩
  Input.check data.validate
  return data

/-- The rest of a frame. -/
def readBody (kind : UInt8) (bodyLen : Nat) : Input String σ Frame :=
  if kind = FrameKind.control.code then do
    let control ← readControl fromSlice bodyLen
    return .control control
  else if kind = FrameKind.data.code then do
    let data ← readData bodyLen
    return .data data
  else Input.check (.error "unknown native transfer frame kind")

/-- The next frame; none at the end of the input. -/
def readFrame : Input String σ (Option Frame) := do
  let first ← Input.read 1
  if first = [] then return none
  else do
    let (kind, bodyLen) ← readHeader first
    let frame ← readBody fromSlice kind bodyLen
    return some frame

/-- A number of reads. -/
def readFrames : Nat → Input String σ (List (Option Frame))
  | 0 => return []
  | n + 1 => do
    let frame ← readFrame fromSlice
    let frames ← readFrames n
    return frame :: frames

end Read

end Serctl.Transfer
