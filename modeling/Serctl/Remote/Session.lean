import Serctl.Remote.Jobs

/-!
# Who may say what, and when

Both ends check the order of the frames that they receive.  The helper accepts from its controller
a greeting, one request and at most one cancellation; the controller accepts from the helper a
greeting, output without gaps, heartbeats that agree with it, and in the end an error, or a receipt
and the exit that the receipt vouches for.
-/

namespace Serctl.Remote

open Lib Lib.Guard List

/-- The number is the expected one. -/
def validateSequence (expected actual : UInt64) : Except ProtocolError Unit :=
  rejectIf (expected ≠ actual) (.sequence expected actual)

/-- The number after this one. -/
def nextSequence (current : UInt64) : Except ProtocolError UInt64 := do
  rejectIf (current.toNat = 2 ^ 64 - 1) (.invalidState "sequence exhausted")
  return current + 1

/-! ## From the controller -/

/-- What the controller may send next. -/
inductive ControllerPhase where
  | hello
  | ready
  | running
  | terminal
  deriving DecidableEq, Repr

/-- Frames from the controller. -/
structure ControllerSessionValidator where
  nextSequence : UInt64 := 0
  phase : ControllerPhase := .hello
  jobId : Option JobId := none
  deriving DecidableEq, Repr

namespace ControllerSessionValidator

def illegal : ProtocolError := .invalidState "illegal controller-to-helper frame transition"

/-- The phase and the job after a frame. -/
def transition (v : ControllerSessionValidator) (frame : Frame) :
    Except ProtocolError ControllerSessionValidator :=
  match v.phase, frame with
  | .hello, .hello hello =>
    if hello.effectiveUid = 0 then .ok { v with phase := .ready } else .error illegal
  | .ready, .start start => .ok { v with jobId := some start.jobId, phase := .running }
  | .ready, .queryReceipt query => .ok { v with jobId := some query.jobId, phase := .terminal }
  | .running, .cancel cancel =>
    if v.jobId = some cancel.jobId then .ok { v with phase := .terminal } else .error illegal
  | _, _ => .error illegal

/-- A frame with its number. -/
def validate (v : ControllerSessionValidator) (envelope : Envelope) :
    Except ProtocolError ControllerSessionValidator := do
  validateSequence v.nextSequence envelope.sequence
  let next ← Remote.nextSequence v.nextSequence
  let v ← v.transition envelope.frame
  return { v with nextSequence := next }

end ControllerSessionValidator

/-! ## From the helper -/

/-- What a session is for. -/
inductive HelperMode where
  | job (maxOutputBytes : UInt64)
  | receiptQuery
  deriving DecidableEq, Repr

/-- What the helper may send next. -/
inductive HelperPhase where
  | hello
  | streaming
  | receiptAuthenticationPending
  | receiptAuthenticated
  | terminal
  deriving DecidableEq, Repr

/-- The end that an authenticated receipt vouches for. -/
structure AuthenticatedTerminal where
  outcome : ExitOutcome
  completedUnixMs : UInt64
  deriving DecidableEq, Repr

/-- Frames from the helper. -/
structure HelperSessionValidator where
  nextSequence : UInt64
  phase : HelperPhase
  mode : HelperMode
  jobId : JobId
  stdoutOffset : UInt64
  stderrOffset : UInt64
  heartbeatOrdinal : UInt64
  heartbeatElapsedMs : UInt64
  pendingReceiptDigest : Option (Bytes 32)
  authenticatedTerminal : Option AuthenticatedTerminal
  deriving DecidableEq, Repr

/-- Where the next output begins. -/
def advanceOutputOffset (error : String) (expected : UInt64) (output : OutputFrame) :
    Except ProtocolError UInt64 := do
  rejectIf (output.offset ≠ expected) (.invalidState error)
  rejectIf (¬expected.toNat + output.data.length < 2 ^ 64) (.invalidState "output offset overflow")
  return expected + UInt64.ofNat output.data.length

namespace HelperSessionValidator

/-- A validator that has heard nothing. -/
def new (jobId : JobId) (mode : HelperMode) : HelperSessionValidator where
  nextSequence := 0
  phase := .hello
  mode := mode
  jobId := jobId
  stdoutOffset := 0
  stderrOffset := 0
  heartbeatOrdinal := 0
  heartbeatElapsedMs := 0
  pendingReceiptDigest := none
  authenticatedTerminal := none

/-- The validator for a job. -/
def forJob (jobId : JobId) (maxOutputBytes : UInt64) :
    Except ProtocolError HelperSessionValidator := do
  rejectIf (maxOutputBytes = 0 ∨ maxOutputBytes > Remote.maxOutputBytes)
    (.invalidValue "max_output_bytes")
  return new jobId (.job maxOutputBytes)

/-- The validator for a query. -/
def forReceiptQuery (jobId : JobId) : HelperSessionValidator := new jobId .receiptQuery

/-- The frame is about the job. -/
def validateJob (v : HelperSessionValidator) (jobId : JobId) : Except ProtocolError Unit :=
  rejectIf (v.jobId ≠ jobId) (.invalidState "job identifier mismatch")

/-- The output is within its budget. -/
def validateOutputBudget (v : HelperSessionValidator) : Except ProtocolError Unit :=
  match v.mode with
  | .job maxOutputBytes =>
    rejectIf (saturatingAdd v.stdoutOffset v.stderrOffset > maxOutputBytes)
      (.invalidState "output budget exceeded")
  | .receiptQuery => .error (.invalidState "receipt query emitted output")

def illegal : ProtocolError := .invalidState "illegal helper-to-controller frame transition"

/-- The session is for a job. -/
def isJob (v : HelperSessionValidator) : Bool :=
  match v.mode with
  | .job _ => true
  | .receiptQuery => false

/-- The first frame. -/
def acceptHello (v : HelperSessionValidator) (hello : HelloFrame) :
    Except ProtocolError HelperSessionValidator := do
  rejectIf (hello.effectiveUid = 0) illegal
  rejectIf (v.isJob = false ∧ hello.featureBits &&& featureReceiptQuery = 0)
    (.invalidState "helper does not advertise receipt query support")
  return { v with phase := .streaming }

/-- Output of one of the streams: its offset, and the state with another one. -/
def acceptOutput (v : HelperSessionValidator) (error : String) (offset : UInt64)
    (set : UInt64 → HelperSessionValidator) (output : OutputFrame) :
    Except ProtocolError HelperSessionValidator := do
  rejectIf (v.isJob = false) illegal
  v.validateJob output.jobId
  let offset ← advanceOutputOffset error offset output
  (set offset).validateOutputBudget
  return set offset

/-- Standard output. -/
def acceptStdout (v : HelperSessionValidator) (output : OutputFrame) :
    Except ProtocolError HelperSessionValidator :=
  v.acceptOutput "stdout offset gap or replay" v.stdoutOffset
    (fun offset => { v with stdoutOffset := offset }) output

/-- Standard error. -/
def acceptStderr (v : HelperSessionValidator) (output : OutputFrame) :
    Except ProtocolError HelperSessionValidator :=
  v.acceptOutput "stderr offset gap or replay" v.stderrOffset
    (fun offset => { v with stderrOffset := offset }) output

/-- A heartbeat that counts on. -/
def acceptHeartbeat (v : HelperSessionValidator) (heartbeat : HeartbeatFrame) :
    Except ProtocolError HelperSessionValidator := do
  rejectIf (v.isJob = false) illegal
  v.validateJob heartbeat.jobId
  rejectIf (heartbeat.ordinal ≤ v.heartbeatOrdinal ∨ heartbeat.elapsedMs < v.heartbeatElapsedMs ∨
      heartbeat.stdoutBytes ≠ v.stdoutOffset ∨ heartbeat.stderrBytes ≠ v.stderrOffset)
    (.invalidState "non-monotonic heartbeat")
  return { v with heartbeatOrdinal := heartbeat.ordinal, heartbeatElapsedMs := heartbeat.elapsedMs }

/-- A receipt, to be authenticated. -/
def acceptReceipt (v : HelperSessionValidator) (receipt : ReceiptFrame) :
    Except ProtocolError HelperSessionValidator := do
  v.validateJob receipt.jobId
  return { v with
    pendingReceiptDigest := some (Sha256.digest receipt.bytes)
    phase := .receiptAuthenticationPending }

/-- An error ends the session. -/
def acceptError (v : HelperSessionValidator) (error : ErrorFrame) :
    Except ProtocolError HelperSessionValidator := do
  rejectIf (∃ jobId ∈ error.jobId, v.jobId ≠ jobId) (.invalidState "job identifier mismatch")
  return { v with phase := .terminal }

/-- An exit as the receipt tells it. -/
def acceptExit (v : HelperSessionValidator) (exit : ExitFrame) :
    Except ProtocolError HelperSessionValidator := do
  v.validateJob exit.jobId
  rejectIf (v.authenticatedTerminal ≠ some ⟨exit.outcome, exit.completedUnixMs⟩)
    (.invalidState "Exit does not match authenticated receipt")
  return { v with phase := .terminal }

/-- The state after a frame, but for its number. -/
def transition (v : HelperSessionValidator) (frame : Frame) :
    Except ProtocolError HelperSessionValidator :=
  match v.phase, frame with
  | .hello, .hello hello => v.acceptHello hello
  | .streaming, .stdout output => v.acceptStdout output
  | .streaming, .stderr output => v.acceptStderr output
  | .streaming, .heartbeat heartbeat => v.acceptHeartbeat heartbeat
  | .streaming, .receipt receipt => v.acceptReceipt receipt
  | .streaming, .error error => v.acceptError error
  | .receiptAuthenticated, .exit exit => v.acceptExit exit
  | _, _ => .error illegal

/-- A frame with its number. -/
def validate (v : HelperSessionValidator) (envelope : Envelope) :
    Except ProtocolError HelperSessionValidator := do
  validateSequence v.nextSequence envelope.sequence
  let next ← Remote.nextSequence v.nextSequence
  let v ← v.transition envelope.frame
  return { v with nextSequence := next }

/-- The controller has authenticated the receipt. -/
def authenticateReceipt (v : HelperSessionValidator) (receiptBytes : List UInt8)
    (terminal : AuthenticatedTerminal) : Except ProtocolError HelperSessionValidator := do
  rejectIf (v.phase ≠ .receiptAuthenticationPending)
    (.invalidState "no receipt is pending authentication")
  rejectIf (v.pendingReceiptDigest ≠ some (Sha256.digest receiptBytes))
    (.invalidState "authenticated receipt bytes do not match pending frame")
  return { v with
    pendingReceiptDigest := none
    authenticatedTerminal := some terminal
    phase := .receiptAuthenticated }

end HelperSessionValidator

/-! ## A whole session -/

/-- The outcome on the wire. -/
def ReceiptOutcome.toExit : ReceiptOutcome → ExitOutcome
  | .exited code => .exited code
  | .cancelled => .cancelled
  | .deadlineExceeded => .deadlineExceeded

/-- What a receipt vouches for. -/
def AuthenticatedReceipt.terminal (receipt : AuthenticatedReceipt) : AuthenticatedTerminal :=
  ⟨receipt.body.outcome.toExit, receipt.body.completedUnixMs⟩

namespace HelperSessionValidator

/-- A receipt that has just arrived is authenticated with what it vouches for. -/
def authenticateArrived (v : HelperSessionValidator) :
    Frame → Except ProtocolError HelperSessionValidator
  | .receipt receipt => match AuthenticatedReceipt.decode receipt.bytes with
    | .ok decoded => v.authenticateReceipt receipt.bytes decoded.terminal
    | .error _ => .ok v
  | _ => .ok v

/-- A frame, and the receipt authenticated as it arrives. -/
def observe (v : HelperSessionValidator) (envelope : Envelope) :
    Except ProtocolError HelperSessionValidator := do
  let v ← v.validate envelope
  v.authenticateArrived envelope.frame

/-- The same without the number of the frame. -/
def accept (v : HelperSessionValidator) (frame : Frame) :
    Except ProtocolError HelperSessionValidator := do
  let v ← v.transition frame
  v.authenticateArrived frame

/-- The frames are accepted one after the other, up to their numbers, and lead to a state. -/
def Accepts (v : HelperSessionValidator) (frames : List Frame) (v' : HelperSessionValidator) :
    Prop := frames.foldlM accept v = .ok v'

/-- The state with another number expected. -/
def expecting (v : HelperSessionValidator) (sequence : UInt64) : HelperSessionValidator :=
  { v with nextSequence := sequence }

/-- No transition looks at the number that is expected. -/
theorem transition_expecting (v : HelperSessionValidator) (n : UInt64) (frame : Frame) :
    (v.expecting n).transition frame = (v.transition frame).map (·.expecting n) := by
  have hmap : ∀ {α : Type} (r : Except ProtocolError α)
      (k : α → Except ProtocolError HelperSessionValidator),
      (r >>= k).map (·.expecting n) = r >>= fun a => (k a).map (·.expecting n) := by
    intro α r k
    cases r <;> rfl
  have hsame : (v.expecting n).phase = v.phase := rfl
  unfold transition
  rw [hsame]
  cases v.phase <;> cases frame
  all_goals
    simp only [acceptHello, acceptStdout, acceptStderr, acceptOutput, acceptHeartbeat,
      acceptReceipt, acceptError, acceptExit, hmap]
    rfl

theorem authenticateArrived_expecting (v : HelperSessionValidator) (n : UInt64) (frame : Frame) :
    (v.expecting n).authenticateArrived frame =
      (v.authenticateArrived frame).map (·.expecting n) := by
  cases frame with
  | receipt receipt =>
    simp only [authenticateArrived]
    split
    · simp only [authenticateReceipt]
      -- both checks look at the phase and at the digest only
      by_cases hphase : v.phase = .receiptAuthenticationPending <;>
        by_cases hdigest : v.pendingReceiptDigest = some (Sha256.digest receipt.bytes) <;>
        simp [expecting, rejectIf, hphase, hdigest, bind, Except.bind, Except.map, pure,
          Except.pure]
    · rfl
  | _ => rfl

variable {v v' : HelperSessionValidator}

/-- A frame with the expected number is accepted for its content. -/
theorem observe_eq_ok {n : UInt64} {frame : Frame}
    (hn : n.toNat < 2 ^ 64 - 1) (h : v.accept frame = .ok v') :
    (v.expecting n).observe ⟨n, frame⟩ = .ok (v'.expecting (n + 1)) := by
  simp only [accept, bind_eq_ok] at h
  obtain ⟨mid, htransition, harrived⟩ := h
  simp only [observe, validate, validateSequence, Remote.nextSequence, bind_eq_ok, pure_eq_ok,
    rejectIf_eq_ok, not_not]
  refine ⟨mid.expecting (n + 1), ⟨(), rfl, n + 1, ⟨(), ?_, rfl⟩, mid.expecting n, ?_, rfl⟩, ?_⟩
  · show ¬n.toNat = 2 ^ 64 - 1
    omega
  · rw [transition_expecting, htransition]
    rfl
  · rw [authenticateArrived_expecting, harrived]
    rfl

/-- The frames with their numbers, from a number on. -/
def numbered : Nat → List Frame → List Envelope
  | _, [] => []
  | k, frame :: frames => ⟨UInt64.ofNat k, frame⟩ :: numbered (k + 1) frames

theorem numbered_concat (k : Nat) (frames : List Frame) (frame : Frame) :
    numbered k (frames ++ [frame]) =
      numbered k frames ++ [⟨UInt64.ofNat (k + frames.length), frame⟩] := by
  induction frames generalizing k with
  | nil => rfl
  | cons first frames ih =>
    rw [cons_append, numbered, numbered, ih, cons_append, length_cons, Nat.add_assoc,
      Nat.add_comm 1]

/-- **Numbers in order are all that is left to check**, as long as they do not run out. -/
theorem observeAll_of_accepts {frames : List Frame} {k : Nat}
    (hk : k + frames.length ≤ 2 ^ 64 - 1) (h : v.Accepts frames v') :
    (numbered k frames).foldlM observe (v.expecting (UInt64.ofNat k)) =
      .ok (v'.expecting (UInt64.ofNat (k + frames.length))) := by
  induction frames generalizing v k with
  | nil =>
    cases h
    rfl
  | cons frame frames ih =>
    simp only [Accepts, foldlM_cons, bind_eq_ok] at h
    obtain ⟨mid, hframe, hrest⟩ := h
    simp only [length_cons] at hk
    have hnumber : (UInt64.ofNat k).toNat = k := by
      rw [UInt64.toNat_ofNat', Nat.mod_eq_of_lt (by omega)]
    have hobserve := observe_eq_ok (n := UInt64.ofNat k) (by omega) hframe
    have hnext : UInt64.ofNat k + 1 = UInt64.ofNat (k + 1) := by
      rw [← UInt64.toNat_inj, UInt64.toNat_add, hnumber, UInt64.toNat_ofNat']
      rfl
    simp only [numbered, foldlM_cons, hobserve, length_cons]
    rw [hnext, show k + (frames.length + 1) = k + 1 + frames.length by omega]
    exact ih (by omega) hrest

/-! ## Frames that are accepted -/

/-- One frame more is accepted. -/
theorem Accepts.concat {frames : List Frame} {v'' : HelperSessionValidator}
    (h : v.Accepts frames v') {frame : Frame} (hframe : v'.accept frame = .ok v'') :
    v.Accepts (frames ++ [frame]) v'' := by
  unfold Accepts at h ⊢
  simp only [foldlM_append, foldlM_cons, foldlM_nil, bind_eq_ok, pure_eq_ok]
  exact ⟨v', h, v'', hframe, rfl⟩

theorem forJob_eq_ok {jobId : JobId} {maxOutputBytes : UInt64} :
    forJob jobId maxOutputBytes = .ok v ↔ maxOutputBytes ≠ 0 ∧
      maxOutputBytes ≤ Remote.maxOutputBytes ∧ v = new jobId (.job maxOutputBytes) := by
  simp only [forJob, bind_eq_ok, rejectIf_eq_ok, pure_eq_ok, not_or, UInt64.not_lt, gt_iff_lt]
  constructor
  · rintro ⟨_, ⟨hpositive, hbounded⟩, rfl⟩
    exact ⟨hpositive, hbounded, rfl⟩
  · rintro ⟨hpositive, hbounded, rfl⟩
    exact ⟨(), ⟨hpositive, hbounded⟩, rfl⟩

/-- A greeting that promises what is asked for. -/
theorem accept_hello {hello : HelloFrame} (hphase : v.phase = .hello)
    (huid : hello.effectiveUid ≠ 0)
    (hfeatures : v.isJob = false → hello.featureBits &&& featureReceiptQuery ≠ 0) :
    v.accept (.hello hello) = .ok { v with phase := .streaming } := by
  unfold accept transition
  simp only [hphase, acceptHello, bind_eq_ok, rejectIf_eq_ok, pure_eq_ok, not_and]
  exact ⟨_, ⟨(), huid, (), hfeatures, rfl⟩, rfl⟩

/-- Output at the right place and within the budget. -/
theorem acceptOutput_of_budget {error : String} {set : UInt64 → HelperSessionValidator}
    {output : OutputFrame} {max next : UInt64} (hmode : v.mode = .job max)
    (hjob : v.jobId = output.jobId)
    (hfits : output.offset.toNat + output.data.length < 2 ^ 64)
    (hnext : output.offset + UInt64.ofNat output.data.length = next)
    (hset : (set next).mode = .job max)
    (hbudget : (set next).stdoutOffset.toNat + (set next).stderrOffset.toNat ≤ max.toNat) :
    v.acceptOutput error output.offset set output = .ok (set next) := by
  have hwithin : (set next).validateOutputBudget = .ok () := by
    rw [validateOutputBudget, hset]
    refine rejectIf_eq_ok.mpr (UInt64.not_lt.mpr (UInt64.le_iff_toNat_le.mpr ?_))
    rw [toNat_saturatingAdd]
    omega
  simp only [acceptOutput, advanceOutputOffset, validateJob, bind_eq_ok, rejectIf_eq_ok,
    pure_eq_ok, not_not, hnext]
  exact ⟨(), by simp [isJob, hmode], (), hjob, next, ⟨(), trivial, (), hfits, rfl⟩, (), hwithin,
    rfl⟩

section Output

variable {output : OutputFrame} {max next : UInt64}

theorem accept_stdout (hphase : v.phase = .streaming) (hmode : v.mode = .job max)
    (hjob : v.jobId = output.jobId) (hoffset : v.stdoutOffset = output.offset)
    (hfits : output.offset.toNat + output.data.length < 2 ^ 64)
    (hnext : output.offset + UInt64.ofNat output.data.length = next)
    (hbudget : next.toNat + v.stderrOffset.toNat ≤ max.toNat) :
    v.accept (.stdout output) = .ok { v with stdoutOffset := next } := by
  unfold accept transition
  simp only [hphase, acceptStdout, hoffset, bind_eq_ok]
  exact ⟨_, acceptOutput_of_budget hmode hjob hfits hnext hmode hbudget, rfl⟩

theorem accept_stderr (hphase : v.phase = .streaming) (hmode : v.mode = .job max)
    (hjob : v.jobId = output.jobId) (hoffset : v.stderrOffset = output.offset)
    (hfits : output.offset.toNat + output.data.length < 2 ^ 64)
    (hnext : output.offset + UInt64.ofNat output.data.length = next)
    (hbudget : v.stdoutOffset.toNat + next.toNat ≤ max.toNat) :
    v.accept (.stderr output) = .ok { v with stderrOffset := next } := by
  unfold accept transition
  simp only [hphase, acceptStderr, hoffset, bind_eq_ok]
  exact ⟨_, acceptOutput_of_budget hmode hjob hfits hnext hmode hbudget, rfl⟩

end Output

/-- A heartbeat that is newer and agrees with the output. -/
theorem accept_heartbeat {heartbeat : HeartbeatFrame} (hphase : v.phase = .streaming)
    (hmode : v.isJob = true) (hjob : v.jobId = heartbeat.jobId)
    (hordinal : v.heartbeatOrdinal < heartbeat.ordinal)
    (helapsed : v.heartbeatElapsedMs ≤ heartbeat.elapsedMs)
    (hstdout : heartbeat.stdoutBytes = v.stdoutOffset)
    (hstderr : heartbeat.stderrBytes = v.stderrOffset) :
    v.accept (.heartbeat heartbeat) = .ok { v with
      heartbeatOrdinal := heartbeat.ordinal
      heartbeatElapsedMs := heartbeat.elapsedMs } := by
  unfold accept transition
  simp only [hphase, acceptHeartbeat, validateJob, bind_eq_ok, rejectIf_eq_ok, pure_eq_ok, not_or,
    not_not]
  exact ⟨_, ⟨(), by simp [hmode], (), hjob, (), ⟨UInt64.not_le.mpr hordinal,
    UInt64.not_lt.mpr helapsed, hstdout, hstderr⟩, rfl⟩, rfl⟩

/-- A receipt that can be read is authenticated. -/
theorem accept_receipt {frame : ReceiptFrame} {receipt : AuthenticatedReceipt}
    (hphase : v.phase = .streaming) (hjob : v.jobId = frame.jobId)
    (hdecode : AuthenticatedReceipt.decode frame.bytes = .ok receipt) :
    v.accept (.receipt frame) = .ok { v with
      pendingReceiptDigest := none
      authenticatedTerminal := some receipt.terminal
      phase := .receiptAuthenticated } := by
  unfold accept transition
  simp only [hphase, acceptReceipt, validateJob, authenticateArrived, hdecode,
    authenticateReceipt, bind_eq_ok, rejectIf_eq_ok, pure_eq_ok, not_not]
  exact ⟨_, ⟨(), hjob, rfl⟩, (), rfl, (), rfl, rfl⟩

/-- The exit that the receipt vouches for. -/
theorem accept_exit {exit : ExitFrame} (hphase : v.phase = .receiptAuthenticated)
    (hjob : v.jobId = exit.jobId)
    (hterminal : v.authenticatedTerminal = some ⟨exit.outcome, exit.completedUnixMs⟩) :
    v.accept (.exit exit) = .ok { v with phase := .terminal } := by
  unfold accept transition
  simp only [hphase, acceptExit, validateJob, bind_eq_ok, rejectIf_eq_ok, pure_eq_ok, not_not]
  exact ⟨_, ⟨(), hjob, (), hterminal, rfl⟩, rfl⟩

/-- An error about the job. -/
theorem accept_error {error : ErrorFrame} (hphase : v.phase = .streaming)
    (hjob : error.jobId = some v.jobId) :
    v.accept (.error error) = .ok { v with phase := .terminal } := by
  unfold accept transition
  simp only [hphase, acceptError, bind_eq_ok, rejectIf_eq_ok, pure_eq_ok]
  exact ⟨_, ⟨(), by simp [hjob], rfl⟩, rfl⟩

end HelperSessionValidator

end Serctl.Remote
