import Serctl.Lib.Act
import Serctl.Lib.Failure
import Serctl.Xfer.Fs

/-!
# Serving a native upload

The program that the transfer helper runs for one upload request: it recognises an upload that
is already committed, opens or resumes the private partial file, receives data frames, records
durable progress in the sidecar, links the finished file to the target name and cleans up.

The receive loop is unrolled `fuel` times and then waits without end; a run with any number of
frames is a run for a large enough `fuel`.
-/

namespace Serctl.Xfer

open Lib Lib.Act Lib.Failure

/-! ## Errors -/

/-- The error types that callers distinguish. -/
inductive ErrorMark where
  | transferBusy
  | commitNotApplied
  | commitOutcomeUnknown
  | cleanupIncomplete
  deriving DecidableEq, Repr

/-- Errors of an upload. -/
abbrev Error := Failure ErrorMark

namespace Error

/-- The target was not linked. -/
def commitNotApplied (source : Error) : Error :=
  ⟨[.commitNotApplied],
    ("native upload no-replace commit was not applied: " ++ source.toString) :: source.chain⟩

/-- Nobody knows whether the target was linked. -/
def commitOutcomeUnknown (source : Error) : Error :=
  ⟨[.commitOutcomeUnknown],
    ("native upload commit outcome unknown: " ++ source.toString) :: source.chain⟩

/-- Another run holds the lock. -/
def transferBusy : Error :=
  .typed .transferBusy "native transfer is already active for this intent"

/-- Something was left behind. -/
def cleanupIncomplete (message : String) : Error :=
  .typed .cleanupIncomplete ("native transfer cleanup incomplete: " ++ message)

/-- A cleanup failure put in front of the error that led to the cleanup. -/
def contextCleanupIncomplete (e : Error) (message : String) : Error :=
  ⟨.cleanupIncomplete :: e.marks,
    ("native transfer cleanup incomplete: " ++ message) :: e.chain⟩

end Error

/-- Once the target is linked, an error says so. -/
def normalizePostCommitResult (result : Except Error Unit) (commitApplied : Bool) :
    Except Error Unit :=
  match result with
  | .error e =>
    if commitApplied && e.is .cleanupIncomplete then .error e
    else if commitApplied then .error (.commitOutcomeUnknown e)
    else .error e
  | .ok () => .ok ()

/-- Keep the error of the first sidecar write only if what it left behind was removed. -/
def reconcileInitialSidecarFailure (sidecarError : Error) (cleanup : Except Error Unit)
    (cleanupKind : String) : Error :=
  match cleanup with
  | .ok () => sidecarError
  | .error cleanupError => .cleanupIncomplete
      ("initial resume sidecar persistence failed: " ++ sidecarError.alternate ++
        "; identity-verified " ++ cleanupKind ++ " cleanup failed: " ++ cleanupError.alternate)

/-! ## Requests -/

/-- The hash function, and how paths are displayed in messages. -/
structure HelperEnv where
  sha256 : List UInt8 → List UInt8
  display : PathName → String

/-- A digest in hexadecimal. -/
def HelperEnv.digest (env : HelperEnv) (bytes : List UInt8) : String :=
  Text.hexEncode (env.sha256 bytes)

/-- A request for an upload. -/
structure PushRequest where
  transferId : String
  target : String
  size : Nat
  expectedSha256 : String
  resumeToken : String
  resume : Bool
  chunk : Nat
  window : Nat
  deriving DecidableEq, Repr

/-- What identifies an upload across its runs. -/
structure Upload where
  transferId : String
  transferIdBytes : List UInt8
  size : Nat
  expectedSha256 : String
  resumeTokenHash : String
  deriving DecidableEq, Repr

/-- A request whose texts have been decoded. -/
structure PushParams extends Upload where
  resume : Bool
  chunk : Nat
  window : Nat
  deriving DecidableEq, Repr

/-- The local variables of a run that its cleanup reads. -/
structure Locals where
  owned : Bool := false
  ownedIdentity : Option FileIdentity := none
  commitApplied : Bool := false
  durable : Nat := 0
  deriving DecidableEq, Repr

/-- Programs of the helper. -/
abbrev Io (σ : Type) := Act σ Error Op Ans

section Helpers

variable {σ : Type}

/-- The value of an operation, or an early return with its message as `f` presents it. -/
def io (op : Op) (f : String → Error := msg) : Io σ (Val op) := call op >>= orElseFail f

/-- A check with its message. -/
def ensure (c : Prop) [Decidable c] (message : String) : Io σ Unit := require c (.msg message)

def ensureStillBound : Io σ Unit := io .ensureStillBound

def ensureOriginalParentBound : Io σ Unit := io .ensureOriginalParentBound

def syncParent : Io σ Unit := io .syncParent

/-- Is there an entry? -/
def pathEntryExists (env : HelperEnv) (path : PathName) : Io σ Bool :=
  io (.entryExists path) fun m =>
    (msg m).context ("inspect native transfer path " ++ env.display path)

/-- A private file that is there. -/
def openExistingPrivate (env : HelperEnv) (path : PathName) : Io σ FileIdentity := do
  let file ← io (.openEntry path) fun m =>
    (msg m).context ("open owned native transfer file " ++ env.display path)
  let metadata ← io (.fstat file)
  ensure (metadata.isFile = true) "owned native transfer path is not a regular file"
  ensure (metadata.ownerOnly = true) "owned native transfer file is accessible to another user"
  ensure (metadata.ownUser = true) "owned native transfer file belongs to another user"
  return file

/-- The partial file. -/
def openOwnedPartial (env : HelperEnv) : Io σ FileIdentity := openExistingPrivate env .part

/-- The digest of a file of this size. -/
def hashFileExact (env : HelperEnv) (file : FileIdentity) (size : Nat) : Io σ String := do
  io (.seek file 0)
  -- the last byte read is the probe for a file that grew
  let bytes ← io (.read file (size + 1))
  ensure (size ≤ bytes.length) "owned native transfer file ended early"
  ensure (bytes.length ≤ size) "owned native transfer file grew while hashing"
  return env.digest bytes

/-- The file is still the one that was created. -/
def validateOwnedFileIdentity (file expectedIdentity : FileIdentity) (expectedSize : Nat) :
    Io σ Unit := do
  let metadata ← io (.fstat file)
  ensure (metadata.isFile = true) "owned native transfer file is not regular"
  ensure (metadata.ownerOnly = true) "owned native transfer file is accessible to another user"
  ensure (metadata.ownUser = true) "owned native transfer file belongs to another user"
  ensure (metadata.identity = expectedIdentity) "owned native transfer file identity changed"
  ensure (metadata.len = expectedSize) "owned native transfer file length changed"

/-- Remove a file, if it is still the one that was created. -/
def removeOwnedPrivateFile (env : HelperEnv) (path : PathName) (expectedIdentity : FileIdentity)
    (kind : String) : Io σ Unit := do
  let file ← openExistingPrivate env path
  let metadata ← io (.fstat file)
  ensure (metadata.identity = expectedIdentity)
    ("refusing to remove a replaced native " ++ kind)
  io (.unlink path) fun m =>
    (msg m).context ("remove owned native " ++ kind ++ " " ++ env.display path)
  mapError (fun e => e.context ("sync removed native " ++ kind ++ " parent")) syncParent

/-- Remove the partial file. -/
def removeOwnedPartial (env : HelperEnv) (expectedIdentity : FileIdentity) : Io σ Unit :=
  removeOwnedPrivateFile env .part expectedIdentity "partial"

end Helpers

/-! ## The resume sidecar -/

def resumeSidecarSchema : Nat := 2

/-- The record of an upload. -/
def ResumeSidecar.new (p : Upload) (durableOffset : Nat) (identity : FileIdentity)
    (state : ResumeSidecarState) : ResumeSidecar :=
  ⟨resumeSidecarSchema, p.transferId, p.size, p.expectedSha256, p.resumeTokenHash,
    durableOffset, identity, state⟩

/-- The record belongs to this upload. -/
def ResumeSidecar.validate (r : ResumeSidecar) (p : Upload) (identity : FileIdentity) :
    Except Error Unit :=
  if r.schema ≠ resumeSidecarSchema then .error (.msg "unsupported resume sidecar schema")
  else if r.transferId ≠ p.transferId then .error (.msg "resume transfer id mismatch")
  else if r.size ≠ p.size then .error (.msg "resume source size mismatch")
  else if r.sha256 ≠ p.expectedSha256 then .error (.msg "resume source SHA-256 mismatch")
  else if r.resumeTokenHash ≠ p.resumeTokenHash then
    .error (.msg "resume ownership token mismatch")
  else if p.size < r.durableOffset then .error (.msg "resume durable offset exceeds source size")
  else if r.identity ≠ identity then .error (.msg "resume partial identity mismatch")
  else if r.state = .committed ∧ r.durableOffset ≠ p.size then
    .error (.msg "committed resume receipt is not fully durable")
  else .ok ()

section Sidecar

variable {σ : Type}

/-- The record that is stored. -/
def readResumeSidecar (env : HelperEnv) : Io σ ResumeSidecar := do
  let _ ← openExistingPrivate env .sidecar
  let content ← io .readSidecar
  match content with
  | .sealed record => return record
  | .torn => fail (.msg "parse resume sidecar")

/-- Create the ownership sidecar exactly once; an existing one is never overwritten. -/
def createResumeSidecar (env : HelperEnv) (state : ResumeSidecar) : Io σ Unit := do
  let file ← io (.createNew .sidecar) fun m =>
    (msg m).context ("create native resume sidecar " ++ env.display .sidecar)
  let metadata ← io (.fstat file)
  let persistence ← attempt do
    io (.writeSidecar state) fun m =>
      (msg m).context "write initial resume sidecar"
    io (.syncFile file) fun m => (msg m).context "sync initial resume sidecar"
    mapError (fun e => e.context "sync initial resume sidecar parent") syncParent
  match persistence with
  | .ok () => return
  | .error error =>
    let cleanup ← attempt
      (removeOwnedPrivateFile env .sidecar metadata.identity "resume sidecar")
    fail (reconcileInitialSidecarFailure error cleanup "resume sidecar")

/-- Store a record in place of a valid one. -/
def replaceVerifiedResumeSidecar (env : HelperEnv) (p : PushParams)
    (expectedIdentity : FileIdentity) (expectedDurable : Nat)
    (expectedState : ResumeSidecarState) (next : ResumeSidecar) : Io σ Unit := do
  let current ← readResumeSidecar env
  orElseFail id (current.validate p.toUpload expectedIdentity)
  ensure (current.durableOffset = expectedDurable ∧ current.state = expectedState)
    "resume sidecar changed before its verified update"
  io (.replaceSidecar next) fun m =>
    (msg m).context ("commit resume sidecar " ++ env.display .sidecar)

/-- Remove the sidecar. -/
def removeOwnedSidecar (env : HelperEnv) (p : PushParams) (expectedIdentity : FileIdentity) :
    Io σ Unit := do
  let state ← readResumeSidecar env
  orElseFail id (state.validate p.toUpload expectedIdentity)
  io (.unlink .sidecar) fun m =>
    (msg m).context ("remove owned native sidecar " ++ env.display .sidecar)
  mapError (fun e => e.context "sync removed native sidecar parent") syncParent

end Sidecar

/-! ## An upload that is already committed -/

/-- A failure after the commit is known leaves residue, and is reported as that. -/
def orCleanupIncomplete (message : String) (x : Io Locals Unit) : Io Locals Unit :=
  mapError (fun e => .cleanupIncomplete (message ++ e.alternate)) x

/-- The client confirms a commit that was found done. -/
def awaitCommitConfirmation : Option Frame → Io Locals Unit
  | some (.control .commit) => pure ()
  | some (.control .cancel) => fail (.msg "transfer cancelled")
  | some _ => fail (.msg "unexpected frame while recovering native commit receipt")
  | none => fail (.msg "native transfer client disconnected during receipt recovery")

/-- Remove the partial name of a file that is known to be committed. -/
def removeRecoveredPartial (env : HelperEnv) (identity : FileIdentity) : Io Locals Unit := do
  ensureStillBound
  orCleanupIncomplete ("recovered committed partial " ++ env.display .part ++ ": ")
    (removeOwnedPartial env identity)

/-- Announce that everything is durable, wait for the client's commit, and report completion. -/
def reportRecovered (p : PushParams) : Io Locals Unit := do
  io (.send (.ready p.chunk p.window p.size))
  let frame ← io .recv
  awaitCommitConfirmation frame
  ensureStillBound
  ensureOriginalParentBound
  io (.send (.completed p.size p.expectedSha256))

/-- The target exists: recognise it as the committed file of this upload, promote its receipt,
    remove the partial name and report completion. -/
def recoverCommitted (env : HelperEnv) (p : PushParams) : Io Locals Unit := do
  ensure (p.resume = true) "destination already exists and this request has no resume proof"
  let state ← mapError
    (fun e => e.context "destination exists without a readable commit receipt")
    (readResumeSidecar env)
  let targetFile ← openExistingPrivate env .target
  let metadata ← io (.fstat targetFile)
  orElseFail id (state.validate p.toUpload metadata.identity)
  ensure (state.durableOffset = p.size)
    "destination exists without a fully durable commit receipt"
  let digest ← hashFileExact env targetFile p.size
  ensure (digest = p.expectedSha256) "committed destination no longer matches its receipt"
  assign fun l => { l with commitApplied := true }
  ensureStillBound
  ensureOriginalParentBound
  mapError (fun e => e.context "sync recovered native target parent") syncParent
  ensureStillBound
  orCleanupIncomplete "persist recovered native commit receipt: "
    (replaceVerifiedResumeSidecar env p metadata.identity state.durableOffset state.state
      { state with state := .committed })
  let partialExists ← pathEntryExists env .part
  onlyIf (partialExists = true) (removeRecoveredPartial env metadata.identity)
  reportRecovered p

/-! ## Opening the partial file -/

/-- Drop the bytes after the durable prefix. -/
def cutToDurable (file : FileIdentity) (durable : Nat) : Io Locals Unit := do
  ensureStillBound
  io (.setLen file durable) fun m =>
    (msg m).context "truncate owned partial to its durable prefix"
  io (.syncFile file) fun m => (msg m).context "sync truncated owned partial"

/-- Feed the durable prefix to the hasher and go on behind it; the result is the file, and the
    bytes that its hasher has seen. -/
def hashDurablePrefix (file : FileIdentity) (durable : Nat) :
    Io Locals (FileIdentity × List UInt8) := do
  io (.seek file 0)
  let bytes ← io (.read file durable)
  ensure (bytes.length = durable) "native resume partial ended before durable offset"
  io (.seek file durable)
  return (file, bytes)

/-- Take up the partial file at its durable prefix. -/
def resumePartial (env : HelperEnv) (p : PushParams) :
    Io Locals (FileIdentity × List UInt8) := do
  let state ← readResumeSidecar env
  let file ← openOwnedPartial env
  let metadata ← io (.fstat file)
  orElseFail id (state.validate p.toUpload metadata.identity)
  ensure (state.state = .receiving) "committed receipt exists but its destination is missing"
  assign fun l => { l with durable := state.durableOffset }
  ensure (state.durableOffset ≤ metadata.len ∧ metadata.len ≤ p.size)
    "native resume partial length is inconsistent"
  onlyIf (metadata.len ≠ state.durableOffset) (cutToDurable file state.durableOffset)
  hashDurablePrefix file state.durableOffset

/-- Create the partial file and its sidecar. -/
def createPartial (env : HelperEnv) (p : PushParams) :
    Io Locals (FileIdentity × List UInt8) := do
  ensureStillBound
  let file ← io (.createNew .part) fun m =>
    (msg m).context ("create native partial " ++ env.display .part)
  assign fun l => { l with owned := true }
  let metadata ← io (.fstat file)
  ensureStillBound
  let created ← attempt
    (createResumeSidecar env (.new p.toUpload 0 metadata.identity .receiving))
  match created with
  | .ok () => return (file, [])
  | .error error =>
    let cleanup ← attempt do
      ensureStillBound
      removeOwnedPartial env metadata.identity
    fail (reconcileInitialSidecarFailure error cleanup "partial")

/-- **The partial file**, taken up or created. -/
def openPartial (env : HelperEnv) (p : PushParams) : Io Locals (FileIdentity × List UInt8) := do
  let continuing ← if p.resume then pathEntryExists env .sidecar else pure false
  if continuing then resumePartial env p else createPartial env p

/-! ## Receiving -/

/-- Record `next` as durable: the file is synced first, then the sidecar is replaced. -/
def recordDurable (env : HelperEnv) (p : PushParams) (file : FileIdentity) (next : Nat) :
    Io Locals Unit := do
  ensureStillBound
  io (.syncFile file)
  let previous ← vars
  assign fun l => { l with durable := next }
  ensureStillBound
  replaceVerifiedResumeSidecar env p file previous.durable .receiving
    (.new p.toUpload next file .receiving)

/-- One data frame: check its place, store it, and acknowledge it.  The result is the new
    offset. -/
def receiveData (env : HelperEnv) (p : PushParams) (file : FileIdentity) (confirmed : Nat)
    (data : DataFrame) : Io Locals Nat := do
  ensure (data.transferId = p.transferIdBytes) "transfer id mismatch"
  ensure (data.offset = confirmed) "native transfer offset gap, replay, or reordering"
  ensure (data.payload.length ≤ p.chunk) "native transfer chunk exceeds the negotiated size"
  ensure (confirmed + data.payload.length < 2 ^ 64) "native transfer size overflow"
  ensure (confirmed + data.payload.length ≤ p.size) "native transfer exceeded declared size"
  ensureStillBound
  io (.writeAt file confirmed data.payload)
  let before ← vars
  onlyIf (p.window ≤ confirmed + data.payload.length - before.durable)
    (recordDurable env p file (confirmed + data.payload.length))
  let after ← vars
  io (.send (.ack (confirmed + data.payload.length) after.durable p.window))
  return confirmed + data.payload.length

/-- Receive frames until the client commits; the result is the offset reached and the bytes
    hashed. -/
def receiveLoop (env : HelperEnv) (p : PushParams) (file : FileIdentity) :
    Nat → Nat → List UInt8 → Io Locals (Nat × List UInt8)
  | 0, _, _ => do
    let never ← io .hang
    return nomatch (never : Empty)
  | fuel + 1, confirmed, hashed => do
    let frame ← io .recv
    match frame with
    | some (.data data) =>
      let next ← receiveData env p file confirmed data
      receiveLoop env p file fuel next (hashed ++ data.payload)
    | some (.control .commit) => return (confirmed, hashed)
    | some (.control .cancel) => fail (.msg "transfer cancelled")
    | some _ => fail (.msg "unexpected native transfer frame")
    | none => fail (.msg "native transfer client disconnected")

/-! ## Committing -/

/-- Everything is durable before the link. -/
def prepareNoReplaceCommit (file identity : FileIdentity) (size : Nat) : Io Locals Unit := do
  io .openPinnedParent
  validateOwnedFileIdentity file identity size
  let probe ← io (.fstat file)
  ensure (probe.identity = identity) "descriptor-bound native commit source identity mismatch"

/-- The target is the file that was linked. -/
def openCommittedTarget (identity : FileIdentity) (size : Nat) : Io Locals FileIdentity := do
  let target ← io (.openEntry .target) fun m =>
    (msg m).context "open descriptor-bound committed native target"
  validateOwnedFileIdentity target identity size
  return target

/-- Link the file to the target name and verify the entry.  Only a failure of the link itself
    is known not to have committed. -/
def noReplaceCommit (file identity : FileIdentity) (size : Nat) : Io Locals Unit := do
  io (.linkTarget file) fun m =>
    .commitNotApplied ((msg m).context "descriptor-bound no-replace native commit")
  let first ← openCommittedTarget identity size
  mapError (fun e => e.context "sync pinned native target parent") syncParent
  let second ← openCommittedTarget identity size
  let firstMetadata ← io (.fstat first)
  let secondMetadata ← io (.fstat second)
  ensure (firstMetadata.identity = secondMetadata.identity)
    "native target directory entry changed during commit"

/-- Commit, and tell a link that failed from one whose outcome is unknown. -/
def commitOnce (file identity : FileIdentity) (size : Nat) : Io Locals Unit := do
  let committed ← attempt (noReplaceCommit file identity size)
  match committed with
  | .ok () => pure ()
  | .error error =>
    if error.is .commitNotApplied then fail error else fail (.commitOutcomeUnknown error)

/-- Promote the sidecar of a committed upload to a receipt. -/
def persistReceipt (env : HelperEnv) (p : PushParams) (file : FileIdentity) : Io Locals Unit := do
  ensureStillBound
  let l ← vars
  orCleanupIncomplete "persist native commit receipt: "
    (replaceVerifiedResumeSidecar env p file l.durable .receiving
      (.new p.toUpload l.durable file .committed))

/-- Remove the sidecar of a committed upload that is not resumable. -/
def dropSidecar (env : HelperEnv) (p : PushParams) (file : FileIdentity) : Io Locals Unit := do
  ensureStillBound
  orCleanupIncomplete ("committed sidecar " ++ env.display .sidecar ++ ": ")
    (removeOwnedSidecar env p file)

/-- The file is committed: promote the receipt, remove the partial name and report completion. -/
def reportCommitted (env : HelperEnv) (p : PushParams) (file : FileIdentity)
    (actualSha256 : String) : Io Locals Unit := do
  assign fun l => { l with commitApplied := true }
  ensureStillBound
  ensureOriginalParentBound
  onlyIf (p.resume = true) (persistReceipt env p file)
  ensureStillBound
  orCleanupIncomplete ("committed partial " ++ env.display .part ++ ": ")
    (removeOwnedPartial env file)
  onlyIf (p.resume = false) (dropSidecar env p file)
  assign fun l => { l with owned := false }
  ensureStillBound
  ensureOriginalParentBound
  io (.send (.completed p.size actualSha256))

/-- All bytes are received: make them durable, verify them on disk and commit. -/
def commitUpload (env : HelperEnv) (p : PushParams) (file : FileIdentity) (confirmed : Nat)
    (hashed : List UInt8) : Io Locals Unit := do
  ensure (confirmed = p.size) "native transfer size mismatch"
  ensure (env.digest hashed = p.expectedSha256) "native transfer SHA-256 mismatch"
  recordDurable env p file p.size
  validateOwnedFileIdentity file file p.size
  let actualSha256 ← hashFileExact env file p.size
  ensure (actualSha256 = p.expectedSha256) "native transfer on-disk SHA-256 mismatch"
  validateOwnedFileIdentity file file p.size
  ensureStillBound
  ensureOriginalParentBound
  prepareNoReplaceCommit file file p.size
  commitOnce file file p.size
  reportCommitted env p file actualSha256

/-! ## One run -/

/-- What a run does under the lock, before its cleanup. -/
def pushBody (env : HelperEnv) (p : PushParams) (fuel : Nat) : Io Locals Unit := do
  let targetExists ← pathEntryExists env .target
  if targetExists then recoverCommitted env p
  else
    let opened ← openPartial env p
    assign fun l => { l with owned := true, ownedIdentity := some opened.1 }
    let l ← vars
    io (.send (.ready p.chunk p.window l.durable))
    let received ← receiveLoop env p opened.1 fuel l.durable opened.2
    commitUpload env p opened.1 received.1 received.2

/-- The failures of a cleanup, joined. -/
def joinFailures (removed cleared : Except Error Unit) : Except Error Unit :=
  match removed, cleared with
  | .ok (), .ok () => .ok ()
  | .error e, .ok () | .ok (), .error e => .error (.msg e.toString)
  | .error e, .error e' => .error (.msg (e.toString ++ "; " ++ e'.toString))

/-- Only an upload that cannot be resumed loses its sidecar. -/
def clearSidecar (env : HelperEnv) (p : PushParams) (expectedIdentity : FileIdentity) :
    Io Unit Unit :=
  if p.resume then pure () else removeOwnedSidecar env p expectedIdentity

/-- Remove what a failed run leaves, or cut it to the durable prefix. -/
def cleanupFailedUpload (env : HelperEnv) (p : PushParams) (expectedIdentity : FileIdentity)
    (durable : Nat) (committed : Bool) : Io Unit Unit :=
  if committed || !p.resume then do
    let removed ← attempt (removeOwnedPartial env expectedIdentity)
    let cleared ← attempt (clearSidecar env p expectedIdentity)
    orElseFail id (joinFailures removed cleared)
  else do
    let file ← mapError (fun e => .msg e.toString) (openOwnedPartial env)
    let metadata ← io (.fstat file) fun m => .msg ("inspect owned partial: " ++ m)
    ensure (metadata.identity = expectedIdentity)
      "refusing to truncate a replaced native partial"
    io (.setLen file durable) fun m => .msg ("truncate owned partial: " ++ m)
    io (.syncFile file) fun m => .msg ("sync truncated owned partial: " ++ m)

/-- After a commit whose outcome is unknown, the synced partial and its sidecar stay as
    evidence. -/
def preservesEvidence (result : Except Error Unit) (commitApplied : Bool) : Bool :=
  !commitApplied && match result with
    | .error e => e.is .commitOutcomeUnknown
    | .ok () => false

/-- Remove what the run has created. -/
def cleanupOwned (env : HelperEnv) (p : PushParams) (l : Locals) : Io Unit (Except Error Unit) :=
  match l.ownedIdentity with
  | some identity => attempt do
      ensureStillBound
      cleanupFailedUpload env p identity l.durable l.commitApplied
  | none => pure (.ok ())

/-- The end of a run: normalize the result of its body and clean up after an error. -/
def finishPush (env : HelperEnv) (p : PushParams) (result : Except Error Unit) (l : Locals) :
    Io Unit Unit :=
  match normalizePostCommitResult result l.commitApplied with
  | .ok () => pure ()
  | .error error =>
    if l.owned && !preservesEvidence result l.commitApplied then do
      let cleanup ← cleanupOwned env p l
      match cleanup with
      | .ok () => fail error
      | .error cleanupError => fail (error.contextCleanupIncomplete cleanupError.toString)
    else fail error

/-- The decoded parameters of a request. -/
def pushParams (env : HelperEnv) (r : PushRequest) : Except Error PushParams :=
  if ¬(r.target.isEmpty = false ∧ Text.byteLen r.target ≤ 4096 ∧
      Text.containsChar r.target (Char.ofNat 0) = false) then
    .error (.msg "invalid target path")
  else if Text.isLowerHex r.expectedSha256 32 = false then
    .error (.msg "invalid expected SHA-256")
  else if Text.isLowerHex r.transferId 16 = false then
    .error (.msg "native transfer id must contain 32 lowercase hex characters")
  else match Text.hexDecode r.transferId, Text.hexDecode r.resumeToken with
    | none, _ => .error (.msg "native transfer id must be hex")
    | _, none => .error (.msg "decode resume token")
    | some idBytes, some tokenBytes =>
      if tokenBytes.length ≠ 32 then .error (.msg "resume token must decode to 32 bytes")
      else .ok ⟨⟨r.transferId, idBytes, r.size, r.expectedSha256, env.digest tokenBytes⟩,
        r.resume, r.chunk, r.window⟩

/-- One run of the helper for an upload request. -/
def servePush (env : HelperEnv) (r : PushRequest) (fuel : Nat) : Io Unit Unit := do
  let p ← orElseFail id (pushParams env r)
  let free : Bool ← io .acquireGuard
  require (free = true) .transferBusy
  let ended ← within {} (pushBody env p fuel)
  finishPush env p ended.1 ended.2

end Serctl.Xfer
