import Serctl.Lib.Act
import Serctl.Remote.Session

/-!
# What a rejected frame leaves

The validators assign their fields while they check a frame, so a frame that is rejected halfway
may leave something behind.  Here they are with their assignments in the order of the source.

The validator of the frames from the controller assigns nothing before its last check, so what it
accepts does not depend on what it rejects.  The one of the frames from the helper moves the offset
of a stream before it checks the budget.
-/

namespace Serctl.Remote

open Lib Lib.Guard
open HelperSessionValidator (numbered)

/-- Code that assigns fields and may fail; what was assigned before a failure stays. -/
abbrev InPlace (σ α : Type) := Act σ ProtocolError Empty (fun _ => Empty) α

namespace InPlace

variable {σ α : Type}

/-- The result of a call, and the state after it. -/
def call (x : InPlace σ α) (s : σ) : Except ProtocolError α × σ :=
  match x s with
  | .ret r => r

/-- A check, or a value that is only looked at. -/
def check (r : Except ProtocolError α) : InPlace σ α := Act.orElseFail id r

/-- The number that is expected after a frame. -/
def numberAfter (expected actual : UInt64) : Except ProtocolError UInt64 := do
  validateSequence expected actual
  nextSequence expected

/-- How both validators take a frame, but for its content. -/
def validateWith (expected : σ → UInt64) (expect : UInt64 → σ → σ)
    (transition : Frame → InPlace σ Unit) (envelope : Envelope) : InPlace σ Unit := do
  let v ← Act.vars
  let next ← check (numberAfter (expected v) envelope.sequence)
  transition envelope.frame
  Act.assign (expect next)

/-- The result of a call that goes the way of a function, and leaves something if that fails. -/
def settled (left : σ) : Except ProtocolError σ → Except ProtocolError Unit × σ
  | .ok s => (.ok (), s)
  | .error e => (.error e, left)

variable {s left : σ}

/-- A check that comes before all assignments. -/
theorem call_check {r : Except ProtocolError α} {f : α → InPlace σ Unit}
    {g : α → Except ProtocolError σ} (h : ∀ a, call (f a) s = settled s (g a)) :
    call (check r >>= f) s = settled s (r >>= g) := by
  cases r with
  | error e => rfl
  | ok a => exact h a

theorem call_validateWith {expected : σ → UInt64} {expect : UInt64 → σ → σ}
    {transition : Frame → InPlace σ Unit} {envelope : Envelope} {r : Except ProtocolError σ}
    (h : call (transition envelope.frame) s = settled left r) :
    call (validateWith expected expect transition envelope) s =
      settled (if (numberAfter (expected s) envelope.sequence).isOk then left else s) (do
        validateSequence (expected s) envelope.sequence
        let next ← nextSequence (expected s)
        let s ← r
        return expect next s) := by
  change call (check (numberAfter (expected s) envelope.sequence) >>= _) s = _
  unfold numberAfter
  cases validateSequence (expected s) envelope.sequence with
  | error e => rfl
  | ok _ =>
    cases nextSequence (expected s) with
    | error e => rfl
    | ok next =>
      change call (transition envelope.frame >>= fun _ => Act.assign (expect next)) s =
        settled left (r >>= fun s => pure (expect next s))
      change call (fun s => transition envelope.frame s >>= _) s = _
      unfold call at h ⊢
      beta_reduce
      rcases hran : transition envelope.frame s with ran | ⟨op, -⟩
      · rw [hran] at h
        dsimp only at h
        subst h
        cases r <;> rfl
      · exact op.elim

end InPlace

open InPlace

/-! ## From the controller -/

namespace ControllerSessionValidator

/-- The assignments of `transition`. -/
def transitionInPlace (frame : Frame) : InPlace ControllerSessionValidator Unit := do
  let v ← Act.vars
  match v.phase, frame with
  | .hello, .hello hello =>
    if hello.effectiveUid = 0 then Act.assign fun v => { v with phase := .ready }
    else Act.fail illegal
  | .ready, .start start => do
    Act.assign fun v => { v with jobId := some start.jobId }
    Act.assign fun v => { v with phase := .running }
  | .ready, .queryReceipt query => do
    Act.assign fun v => { v with jobId := some query.jobId }
    Act.assign fun v => { v with phase := .terminal }
  | .running, .cancel cancel =>
    if v.jobId = some cancel.jobId then Act.assign fun v => { v with phase := .terminal }
    else Act.fail illegal
  | _, _ => Act.fail illegal

/-- The assignments of `validate`. -/
def validateInPlace (envelope : Envelope) : InPlace ControllerSessionValidator Unit :=
  validateWith (·.nextSequence) (fun next v => { v with nextSequence := next }) transitionInPlace
    envelope

/-- **Nothing is assigned before the last check.** -/
theorem validateInPlace_eq (v : ControllerSessionValidator) (envelope : Envelope) :
    call (validateInPlace envelope) v = settled v (v.validate envelope) := by
  have htransition : call (transitionInPlace envelope.frame) v =
      settled v (v.transition envelope.frame) := by
    obtain ⟨n, phase, jobId⟩ := v
    cases phase <;> cases envelope.frame
    case hello.hello hello =>
      change call (if hello.effectiveUid = 0 then _ else _) _ = settled _ (if _ then _ else _)
      split_ifs <;> rfl
    case running.cancel cancel =>
      change call (if jobId = some cancel.jobId then _ else _) _ = settled _ (if _ then _ else _)
      split_ifs <;> rfl
    all_goals rfl
  rw [validateInPlace, call_validateWith htransition, ite_self]
  rfl

/-- The frames that are accepted of all that arrive. -/
def accepted : ControllerSessionValidator → List Envelope → List Envelope
  | _, [] => []
  | v, envelope :: rest => match call (validateInPlace envelope) v with
    | (.ok _, v') => envelope :: accepted v' rest
    | (.error _, v') => accepted v' rest

/-- What a controller may say: a greeting, then the start of a job and its cancellation, or a query
    for a receipt; and the state after it. -/
inductive Heard : List Frame → ControllerSessionValidator → Prop where
  | nothing : Heard [] {}
  | hello (hello : HelloFrame) : hello.effectiveUid = 0 → Heard [.hello hello] ⟨1, .ready, none⟩
  | start (hello : HelloFrame) (start : StartFrame) : hello.effectiveUid = 0 →
      Heard [.hello hello, .start start] ⟨2, .running, some start.jobId⟩
  | cancel (hello : HelloFrame) (start : StartFrame) (cancel : CancelFrame) :
      hello.effectiveUid = 0 → cancel.jobId = start.jobId →
      Heard [.hello hello, .start start, .cancel cancel] ⟨3, .terminal, some start.jobId⟩
  | query (hello : HelloFrame) (query : QueryReceiptFrame) : hello.effectiveUid = 0 →
      Heard [.hello hello, .queryReceipt query] ⟨2, .terminal, some query.jobId⟩

variable {v v' : ControllerSessionValidator} {heard : List Frame}

theorem Heard.sequence (h : Heard heard v) : v.nextSequence = UInt64.ofNat heard.length := by
  cases h <;> rfl

/-- **One more frame.** -/
theorem Heard.concat (h : Heard heard v) {envelope : Envelope}
    (hok : v.validate envelope = .ok v') :
    envelope.sequence = UInt64.ofNat heard.length ∧ Heard (heard ++ [envelope.frame]) v' := by
  obtain ⟨n, frame⟩ := envelope
  simp only [validate, validateSequence, Remote.nextSequence, bind_eq_ok, rejectIf_eq_ok,
    pure_eq_ok, not_not] at hok
  obtain ⟨_, hn, _, ⟨_, -, rfl⟩, next, hnext, rfl⟩ := hok
  refine ⟨hn.symm.trans h.sequence, ?_⟩
  cases h with
  | nothing =>
    cases frame <;> simp only [transition, reduceCtorEq] at hnext
    split_ifs at hnext with hroot
    cases hnext
    exact .hello _ hroot
  | hello hello hroot =>
    cases frame <;> cases hnext
    · exact .start hello _ hroot
    · exact .query hello _ hroot
  | start hello start hroot =>
    cases frame <;> simp only [transition, reduceCtorEq] at hnext
    split_ifs at hnext with hjob
    cases hnext
    exact .cancel hello start _ hroot (Option.some.inj hjob).symm
  | cancel | query => cases frame <;> cases hnext

/-- Among frames of any kind, the accepted ones are heard one after the other. -/
theorem Heard.accepted (h : Heard heard v) (envelopes : List Envelope) :
    ∃ said v', v.accepted envelopes = numbered heard.length said ∧ Heard (heard ++ said) v' := by
  induction envelopes generalizing heard v with
  | nil => exact ⟨[], v, rfl, by simpa using h⟩
  | cons envelope rest ih =>
    unfold ControllerSessionValidator.accepted
    rw [validateInPlace_eq]
    cases hok : v.validate envelope with
    | error e => exact ih h
    | ok v1 =>
      obtain ⟨hsequence, h1⟩ := h.concat hok
      obtain ⟨said, v', haccepted, hheard⟩ := ih h1
      refine ⟨envelope.frame :: said, v', ?_, by simpa using hheard⟩
      simp only [settled, haccepted, numbered, List.length_append, List.length_singleton,
        ← hsequence]

/-- **What a controller may say.**  Whatever arrives, the frames that are accepted are something
    that may be said, with their numbers; everything that may be said is accepted; and a frame
    that is rejected leaves nothing. -/
theorem accepted_iff_heard :
    (∀ envelopes, ∃ said v, accepted {} envelopes = numbered 0 said ∧ Heard said v) ∧
    (∀ said v, Heard said v → accepted {} (numbered 0 said) = numbered 0 said) ∧
    ∀ v envelope e v', call (validateInPlace envelope) v = (.error e, v') → v' = v := by
  refine ⟨Heard.nothing.accepted, fun said v h => ?_, fun v envelope e v' hcall => ?_⟩
  · cases h <;>
      simp [numbered, accepted, validateInPlace_eq, settled, validate, validateSequence,
        Remote.nextSequence, transition, rejectIf, bind, Except.bind, pure, Except.pure, *]
  · rw [validateInPlace_eq] at hcall
    cases hok : v.validate envelope with
    | ok v1 => rw [hok] at hcall; cases hcall
    | error e' => rw [hok] at hcall; cases hcall; rfl

end ControllerSessionValidator

/-! ## From the helper -/

namespace HelperSessionValidator

/-- The offset of a stream after its next bytes. -/
def nextOffset (v : HelperSessionValidator) (error : String) (offset : UInt64)
    (output : OutputFrame) : Except ProtocolError UInt64 := do
  rejectIf (v.isJob = false) illegal
  v.validateJob output.jobId
  advanceOutputOffset error offset output

/-- Output of one of the streams: its offset is assigned before the budget is checked. -/
def takeOutput (error : String) (offset : HelperSessionValidator → UInt64)
    (set : UInt64 → HelperSessionValidator → HelperSessionValidator) (output : OutputFrame) :
    InPlace HelperSessionValidator Unit := do
  let v ← Act.vars
  let next ← check (v.nextOffset error (offset v) output)
  Act.assign (set next)
  let v ← Act.vars
  check v.validateOutputBudget

/-- The assignments of `transition`. -/
def transitionInPlace (frame : Frame) : InPlace HelperSessionValidator Unit := do
  let v ← Act.vars
  match v.phase, frame with
  | .hello, .hello hello => do
    check (rejectIf (hello.effectiveUid = 0) illegal)
    check (rejectIf (v.isJob = false ∧ hello.featureBits &&& featureReceiptQuery = 0)
      (.invalidState "helper does not advertise receipt query support"))
    Act.assign fun v => { v with phase := .streaming }
  | .streaming, .stdout output =>
    takeOutput "stdout offset gap or replay" (·.stdoutOffset)
      (fun offset v => { v with stdoutOffset := offset }) output
  | .streaming, .stderr output =>
    takeOutput "stderr offset gap or replay" (·.stderrOffset)
      (fun offset v => { v with stderrOffset := offset }) output
  | .streaming, .heartbeat heartbeat => do
    check (rejectIf (v.isJob = false) illegal)
    check (v.validateJob heartbeat.jobId)
    check (rejectIf (heartbeat.ordinal ≤ v.heartbeatOrdinal ∨
        heartbeat.elapsedMs < v.heartbeatElapsedMs ∨
        heartbeat.stdoutBytes ≠ v.stdoutOffset ∨ heartbeat.stderrBytes ≠ v.stderrOffset)
      (.invalidState "non-monotonic heartbeat"))
    Act.assign fun v => { v with heartbeatOrdinal := heartbeat.ordinal }
    Act.assign fun v => { v with heartbeatElapsedMs := heartbeat.elapsedMs }
  | .streaming, .receipt receipt => do
    check (v.validateJob receipt.jobId)
    Act.assign fun v => { v with pendingReceiptDigest := some (Sha256.digest receipt.bytes) }
    Act.assign fun v => { v with phase := .receiptAuthenticationPending }
  | .streaming, .error error => do
    check (rejectIf (∃ jobId ∈ error.jobId, v.jobId ≠ jobId)
      (.invalidState "job identifier mismatch"))
    Act.assign fun v => { v with phase := .terminal }
  | .receiptAuthenticated, .exit exit => do
    check (v.validateJob exit.jobId)
    check (rejectIf (v.authenticatedTerminal ≠ some ⟨exit.outcome, exit.completedUnixMs⟩)
      (.invalidState "Exit does not match authenticated receipt"))
    Act.assign fun v => { v with phase := .terminal }
  | _, _ => Act.fail illegal

/-- The assignments of `validate`. -/
def validateInPlace (envelope : Envelope) : InPlace HelperSessionValidator Unit :=
  validateWith (·.nextSequence) (fun next v => { v with nextSequence := next }) transitionInPlace
    envelope

/-- What is assigned before the last check. -/
def leftBy (v : HelperSessionValidator) (frame : Frame) : HelperSessionValidator :=
  match v.phase, frame with
  | .streaming, .stdout output =>
    match v.nextOffset "stdout offset gap or replay" v.stdoutOffset output with
    | .ok offset => { v with stdoutOffset := offset }
    | .error _ => v
  | .streaming, .stderr output =>
    match v.nextOffset "stderr offset gap or replay" v.stderrOffset output with
    | .ok offset => { v with stderrOffset := offset }
    | .error _ => v
  | _, _ => v

theorem call_takeOutput (v : HelperSessionValidator) (error : String)
    (offset : HelperSessionValidator → UInt64)
    (set : UInt64 → HelperSessionValidator → HelperSessionValidator) (output : OutputFrame) :
    call (takeOutput error offset set output) v =
      settled (match v.nextOffset error (offset v) output with
        | .ok next => set next v
        | .error _ => v) (v.acceptOutput error (offset v) (fun next => set next v) output) := by
  have haccept : v.acceptOutput error (offset v) (fun next => set next v) output = (do
      let next ← v.nextOffset error (offset v) output
      (set next v).validateOutputBudget
      return set next v) := by
    unfold acceptOutput nextOffset
    cases rejectIf (v.isJob = false) illegal
    · rfl
    · cases v.validateJob output.jobId <;> rfl
  rw [haccept]
  change call (check (v.nextOffset error (offset v) output) >>= _) v = _
  cases v.nextOffset error (offset v) output with
  | error e => rfl
  | ok next =>
    change call (check (set next v).validateOutputBudget) (set next v) = _
    simp only [bind, Except.bind]
    cases (set next v).validateOutputBudget <;> rfl

theorem transitionInPlace_eq (v : HelperSessionValidator) (frame : Frame) :
    call (transitionInPlace frame) v = settled (v.leftBy frame) (v.transition frame) := by
  obtain ⟨n, phase, mode, jobId, stdout, stderr, ordinal, elapsed, pending, terminal⟩ := v
  cases phase <;> cases frame
  case hello.hello hello => exact call_check fun _ => call_check fun _ => rfl
  case streaming.stdout output => exact call_takeOutput _ _ (·.stdoutOffset) _ output
  case streaming.stderr output => exact call_takeOutput _ _ (·.stderrOffset) _ output
  case streaming.heartbeat heartbeat =>
    exact call_check fun _ => call_check fun _ => call_check fun _ => rfl
  case streaming.receipt receipt => exact call_check fun _ => rfl
  case streaming.error error => exact call_check fun _ => rfl
  case receiptAuthenticated.exit exit => exact call_check fun _ => call_check fun _ => rfl
  all_goals rfl

/-- The frame has the expected number, which has a successor, and carries the next bytes of one of
    the streams of the job, at least one byte. -/
structure CarriesNext (v : HelperSessionValidator) (envelope : Envelope) : Prop where
  phase : v.phase = .streaming
  job : v.isJob = true
  sequence : envelope.sequence = v.nextSequence
  successor : v.nextSequence.toNat < 2 ^ 64 - 1
  output : ∃ output : OutputFrame,
    (envelope.frame = .stdout output ∧ output.offset = v.stdoutOffset ∨
      envelope.frame = .stderr output ∧ output.offset = v.stderrOffset) ∧
    output.jobId = v.jobId ∧ output.data ≠ [] ∧ output.offset.toNat + output.data.length < 2 ^ 64

theorem numberAfter_isOk (expected actual : UInt64) :
    (numberAfter expected actual).isOk = true ↔
      actual = expected ∧ expected.toNat < 2 ^ 64 - 1 := by
  have hbound := expected.toNat_lt
  have hok : (numberAfter expected actual).isOk = true ↔
      ∃ next, numberAfter expected actual = .ok next := by
    cases numberAfter expected actual <;> simp [Except.isOk, Except.toBool]
  rw [hok, eq_comm (a := actual)]
  simp only [numberAfter, validateSequence, Remote.nextSequence, bind_eq_ok, rejectIf_eq_ok,
    pure_eq_ok, not_not, exists_const, exists_and_left, exists_eq', and_true]
  exact and_congr_right fun _ => ⟨fun h => by omega, fun h => by omega⟩

/-- When the offset of a stream moves, and where to. -/
theorem nextOffset_eq_ok {v : HelperSessionValidator} {error : String} {offset next : UInt64}
    {output : OutputFrame} :
    v.nextOffset error offset output = .ok next ↔ v.isJob = true ∧ output.jobId = v.jobId ∧
      output.offset = offset ∧ offset.toNat + output.data.length < 2 ^ 64 ∧
      offset + UInt64.ofNat output.data.length = next := by
  simp only [nextOffset, validateJob, advanceOutputOffset, bind_eq_ok, rejectIf_eq_ok, pure_eq_ok,
    not_not, exists_const, Bool.not_eq_false]
  rw [eq_comm (a := v.jobId)]

/-- Bytes move an offset unless there are none. -/
theorem add_length_ne {offset : UInt64} {data : List UInt8}
    (h : offset.toNat + data.length < 2 ^ 64) :
    offset + UInt64.ofNat data.length ≠ offset ↔ data ≠ [] := by
  rw [ne_eq, ne_eq, ← UInt64.toNat_inj, UInt64.toNat_add, UInt64.toNat_ofNat',
    Nat.mod_eq_of_lt (a := data.length) (by omega), Nat.mod_eq_of_lt h, ← List.length_eq_zero_iff]
  omega

/-- A stream whose offset is assigned before the budget is checked. -/
theorem moved_iff {v : HelperSessionValidator} (error : String) {offset : UInt64}
    {set : UInt64 → HelperSessionValidator} {output : OutputFrame}
    (hset : ∀ next, set next ≠ v ↔ next ≠ offset) :
    (match v.nextOffset error offset output with
      | .ok next => set next
      | .error _ => v) ≠ v ↔
    v.isJob = true ∧ output.offset = offset ∧ output.jobId = v.jobId ∧ output.data ≠ [] ∧
      output.offset.toNat + output.data.length < 2 ^ 64 := by
  cases hnext : v.nextOffset error offset output with
  | ok next =>
    obtain ⟨hjob, hid, hoffset, hroom, rfl⟩ := nextOffset_eq_ok.mp hnext
    subst hoffset
    simp only [hset, add_length_ne hroom, hjob, hid, hroom, true_and, and_true]
  | error e =>
    refine iff_of_false (not_not.mpr rfl) ?_
    rintro ⟨hjob, rfl, hid, -, hroom⟩
    rw [nextOffset_eq_ok.mpr ⟨hjob, hid, rfl, hroom, rfl⟩] at hnext
    cases hnext

/-- Something is assigned before the last check only for the next bytes of a stream. -/
theorem leftBy_ne (v : HelperSessionValidator) (envelope : Envelope) :
    (numberAfter v.nextSequence envelope.sequence).isOk = true ∧ v.leftBy envelope.frame ≠ v ↔
      v.CarriesNext envelope := by
  rw [numberAfter_isOk]
  obtain ⟨sequence, frame⟩ := envelope
  -- two validators differ if an offset does
  have hstdout : ∀ next, { v with stdoutOffset := next } ≠ v ↔ next ≠ v.stdoutOffset := by
    intro next
    refine not_congr ⟨fun h => congrArg HelperSessionValidator.stdoutOffset h, ?_⟩
    rintro rfl
    rfl
  have hstderr : ∀ next, { v with stderrOffset := next } ≠ v ↔ next ≠ v.stderrOffset := by
    intro next
    refine not_congr ⟨fun h => congrArg HelperSessionValidator.stderrOffset h, ?_⟩
    rintro rfl
    rfl
  constructor
  · rintro ⟨⟨hsequence, hsuccessor⟩, hleft⟩
    unfold leftBy at hleft
    split at hleft
    · rename_i output hphase hframe
      obtain ⟨hjob, hoffset, hrest⟩ := (moved_iff _ hstdout).mp hleft
      exact ⟨hphase, hjob, hsequence, hsuccessor, output, .inl ⟨hframe, hoffset⟩, hrest⟩
    · rename_i output hphase hframe
      obtain ⟨hjob, hoffset, hrest⟩ := (moved_iff _ hstderr).mp hleft
      exact ⟨hphase, hjob, hsequence, hsuccessor, output, .inr ⟨hframe, hoffset⟩, hrest⟩
    · exact absurd rfl hleft
  · rintro ⟨hphase, hjob, hsequence, hsuccessor, output, hstream, hrest⟩
    refine ⟨⟨hsequence, hsuccessor⟩, ?_⟩
    unfold leftBy
    rcases hstream with ⟨rfl, hoffset⟩ | ⟨rfl, hoffset⟩
    · have hmoved := (moved_iff "stdout offset gap or replay" hstdout).mpr
        ⟨hjob, hoffset, hrest⟩
      split
      · rename_i hframe
        cases hframe
        exact hmoved
      · rename_i hframe
        cases hframe
      · rename_i hother _
        exact (hother output hphase rfl).elim
    · have hmoved := (moved_iff "stderr offset gap or replay" hstderr).mpr
        ⟨hjob, hoffset, hrest⟩
      split
      · rename_i hframe
        cases hframe
      · rename_i hframe
        cases hframe
        exact hmoved
      · rename_i hother
        exact (hother output hphase rfl).elim

/-- **A frame that is rejected leaves nothing**, unless it has the right number and carries the
    next bytes of a stream: then it is beyond the budget, and its bytes were counted. -/
theorem rejected_frame_leaves_state_iff (v : HelperSessionValidator) (envelope : Envelope)
    {e : ProtocolError} {v' : HelperSessionValidator}
    (h : call (validateInPlace envelope) v = (.error e, v')) :
    v' = v ↔ ¬v.CarriesNext envelope := by
  rw [validateInPlace, call_validateWith (v.transitionInPlace_eq envelope.frame)] at h
  have hleft : v' = if (numberAfter v.nextSequence envelope.sequence).isOk then
      v.leftBy envelope.frame else v := by
    unfold settled at h
    split at h
    · cases h
    · exact (congrArg Prod.snd h).symm
  rw [hleft, ← leftBy_ne]
  split_ifs with hnumber <;> simp [hnumber]

/-- The state after the greeting of a helper whose job may print four bytes. -/
def greeted : HelperSessionValidator :=
  { new (Bytes.zero 16) (.job 4) with nextSequence := 1, phase := .streaming }

/-- Output behind a gap is rejected and leaves nothing. -/
theorem gap_leaves_state : ∃ e v',
    call (validateInPlace ⟨1, .stdout ⟨Bytes.zero 16, 1, [7]⟩⟩) greeted = (.error e, v') ∧
      v' = greeted := by
  refine ⟨_, greeted, rfl, (rejected_frame_leaves_state_iff greeted
    ⟨1, .stdout ⟨Bytes.zero 16, 1, [7]⟩⟩ rfl).mpr fun hnext => ?_⟩
  obtain ⟨output, ⟨hframe, hoffset⟩ | ⟨hframe, -⟩, -⟩ := hnext.output
  · cases hframe
    exact absurd hoffset (by decide)
  · cases hframe

/-- Five bytes are rejected where four are allowed; then one byte is rejected as well. -/
theorem overlong_frame_counted : ∃ v0 v v' e later, forJob (Bytes.zero 16) 4 = .ok v0 ∧
    call (validateInPlace ⟨0, .hello ⟨0, 0, 1000⟩⟩) v0 = (.ok (), v) ∧
    call (validateInPlace ⟨1, .stdout ⟨Bytes.zero 16, 0, [1, 2, 3, 4, 5]⟩⟩) v = (.error e, v') ∧
    v' ≠ v ∧ (call (validateInPlace later) v).1 = .ok () ∧
    (call (validateInPlace later) v').1 ≠ .ok () :=
  ⟨_, _, _, _, ⟨1, .stdout ⟨Bytes.zero 16, 0, [1]⟩⟩, rfl, rfl, rfl, by decide, by decide, by decide⟩

end HelperSessionValidator

end Serctl.Remote
