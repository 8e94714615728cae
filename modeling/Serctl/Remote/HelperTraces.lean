import Serctl.Remote.HelperReceipts

/-!
# What the helper says is accepted

Whatever the helper writes, for a job or for a query, is accepted frame by frame by the validator
with which the controller checks the session.  The validator is asked about the frames that were
put in the queue: the relay writes a front part of them, and numbers them in order.

Which validator that is depends on the request, so as long as none has arrived it may be any.
-/

namespace Serctl.Remote

open Lib Lib.Guard List Lib.Pool AuthenticatedReceipt

namespace Helper

open HelperSessionValidator

/-! ## What was told -/

namespace Sink

/-- These frames were put in the queue so far.  A thread that is running writes them all. -/
structure Told (sink : Sink) (told : List Frame) : Prop where
  frames : sink.frames <+: told
  relaying : sink.relaying = true → sink.frames = told

variable {sink sink' : Sink} {told : List Frame}

theorem Told.relayed (h : sink.Told told) (hrelayed : sink.Relayed sink') : sink'.Told told := by
  refine ⟨hrelayed.frames.trans h.frames, fun hon => ?_⟩
  obtain ⟨hon', hsame⟩ := hrelayed.relaying hon
  exact hsame.trans (h.relaying hon')

/-- A command is refused, or it is put behind the others. -/
theorem trySend_cases (sink : Sink) (command : OutputCommand) :
    sink.trySend command = (false, sink) ∨ sink.relaying = true ∧
      sink.trySend command = (true, { sink with queue := sink.queue ++ [command] }) := by
  unfold trySend
  split_ifs with h
  · exact .inl rfl
  · exact .inr ⟨by simpa using fun hoff => h (.inl hoff), rfl⟩

theorem frames_queued (command : OutputCommand) (hon : sink.relaying = true) :
    frames { sink with queue := sink.queue ++ [command] } = sink.frames ++ [command.frame] := by
  simp [frames, pending, hon]

end Sink

/-! ## Who listens -/

/-- The validators with which a session may be checked, in view of the frames that the controller
    has sent.  The more it has said, the fewer there are. -/
structure Audience where
  /-- The frames that were sent, and a validator. -/
  expects : List Frame → HelperSessionValidator → Prop
  shrinks : ∀ {before after v}, before <+: after → expects after v → expects before v

section Rules

variable {a : Audience} {σ α : Type} {w w' : World} {s : σ} {frame : Frame}
  {P R : HelperSessionValidator → HelperSessionValidator → Prop}

/-- Every validator accepts what was told, and is then in a state as described. -/
def Stands (a : Audience) (P : HelperSessionValidator → HelperSessionValidator → Prop)
    (w : World) : Prop :=
  ∃ told, w.sink.Told told ∧ ∀ v, a.expects w.received v → ∃ v', v.Accepts told v' ∧ P v v'

/-- The frames are numbered in order, and every validator accepts all that was or may still be
    written. -/
structure Heard (a : Audience) (w : World) : Prop where
  counted : w.sink.Counted
  decoded : ∀ frame ∈ w.received, Decoded frame
  accepted : ∃ told, w.sink.frames <+: told ∧
    ∀ v, a.expects w.received v → ∃ v', v.Accepts told v'

theorem Arrived.isPrefix {before after : List Frame} (h : Arrived before after) :
    before <+: after := by
  obtain ⟨new, rfl, -⟩ := h
  exact prefix_append _ _

theorem Stands.later (h : Stands a P w) (hsink : w.sink.Relayed w'.sink)
    (hreceived : w.received <+: w'.received) : Stands a P w' := by
  obtain ⟨told, htold, hall⟩ := h
  exact ⟨told, htold.relayed hsink, fun v hv => hall v (a.shrinks hreceived hv)⟩

theorem Stands.quiet (h : Stands a P w) (hquiet : Quiet w w') : Stands a P w' :=
  h.later hquiet.sink hquiet.received.isPrefix

theorem Heard.later (h : Heard a w) (hsink : w.sink.Relayed w'.sink)
    (hreceived : Arrived w.received w'.received) : Heard a w' := by
  obtain ⟨told, hframes, hall⟩ := h.accepted
  refine ⟨hsink.counted h.counted, ?_, told, hsink.frames.trans hframes, fun v hv =>
    hall v (a.shrinks hreceived.isPrefix hv)⟩
  obtain ⟨new, hnew, hdecoded⟩ := hreceived
  intro frame hframe
  rw [hnew] at hframe
  exact (mem_append.mp hframe).elim (h.decoded frame) (hdecoded frame)

/-- The store and the child do not matter. -/
theorem Heard.of_eq (h : Heard a w) (hsink : w'.sink = w.sink)
    (hreceived : w'.received = w.received) : Heard a w' :=
  h.later (hsink ▸ Sink.Relayed.refl _) (hreceived ▸ Arrived.refl _)

theorem heard_calm : KeptCalm (Heard a) := fun _ _ _ _ _ hop hexec h =>
  h.later (exec_quiet hop hexec).sink (exec_quiet hop hexec).received

/-- **A frame that is accepted may be told.** -/
theorem Stands.offered (acknowledged : Bool) (h : Stands a P w)
    (haccept : ∀ v v', a.expects w.received v → P v v' →
      ∃ v'', v'.accept frame = .ok v'' ∧ R v v'') :
    (Heard a w → Heard a (w.offered ⟨frame, acknowledged⟩)) ∧
      Stands a (if (w.sink.trySend ⟨frame, acknowledged⟩).1 then R else P)
        (w.offered ⟨frame, acknowledged⟩) := by
  obtain ⟨told, htold, hall⟩ := h
  rcases w.sink.trySend_cases ⟨frame, acknowledged⟩ with hoff | ⟨hon, hsent⟩
  · have hsame : w.offered ⟨frame, acknowledged⟩ = w := by
      simp only [World.offered, hoff]
    rw [hsame, hoff]
    exact ⟨id, told, htold, hall⟩
  · have hframes := Sink.frames_queued ⟨frame, acknowledged⟩ hon
    have hlonger : ∀ v, a.expects w.received v →
        ∃ v', v.Accepts (told ++ [frame]) v' ∧ R v v' := by
      intro v hv
      obtain ⟨v', haccepts, hP⟩ := hall v hv
      obtain ⟨v'', hframe, hP'⟩ := haccept v v' hv hP
      exact ⟨v'', haccepts.concat hframe, hP'⟩
    have htold' : Sink.Told { w.sink with queue := w.sink.queue ++ [⟨frame, acknowledged⟩] }
        (told ++ [frame]) := by
      rw [htold.relaying hon] at hframes
      exact ⟨hframes ▸ prefix_refl _, fun _ => hframes⟩
    simp only [World.offered, hsent]
    refine ⟨fun hheard => ⟨hheard.counted.of_eq rfl rfl id, hheard.decoded, told ++ [frame],
      htold'.frames, fun v hv => ?_⟩, told ++ [frame], htold', hlonger⟩
    obtain ⟨v', haccepts, -⟩ := hlonger v hv
    exact ⟨v', haccepts⟩

/-- A part of the main thread that says only what is accepted. -/
abbrev Speaks (a : Audience) (x : Main σ α) (Q : α → σ → World → Prop) (s : σ) (w : World) :
    Prop :=
  Runs (fun _ _ _ => true) (Heard a) x Q (fun _ _ _ => True) s w

/-- A frame is offered to the queue. -/
theorem speaks_trySend {Q : Bool → σ → World → Prop} {acknowledged : Bool} (h : Stands a P w)
    (haccept : ∀ v v', a.expects w.received v → P v v' →
      ∃ v'', v'.accept frame = .ok v'' ∧ R v v'')
    (hQ : ∀ sent w', Stands a (if sent then R else P) w' → w'.received = w.received →
      Q sent s w') : Speaks a (Act.call (Op.trySend ⟨frame, acknowledged⟩)) Q s w := by
  refine runs_call fun w1 hrely hinv c sent w2 _ hexec => ?_
  obtain ⟨sink, rfl, hsink⟩ := hrely
  cases c <;> simp only [exec, reduceCtorEq] at hexec
  cases hexec
  have hnow : Stands a P { w with sink := sink } := h.later hsink (prefix_refl _)
  obtain ⟨hheard, hstands⟩ := hnow.offered acknowledged haccept
  exact ⟨hheard hinv, hQ _ _ hstands rfl⟩

/-- The receipt is told, and then the exit that it vouches for. -/
theorem speaks_tryFinal {Q : Bool → σ → World → Prop} {jobId : JobId} {bytes : List UInt8}
    {receipt : AuthenticatedReceipt} (hdecode : decode bytes = .ok receipt)
    (h : Stands a P w)
    (hP : ∀ v v', a.expects w.received v → P v v' → v'.phase = .streaming ∧ v'.jobId = jobId)
    (hQ : ∀ sent w', Q sent s w') :
    Speaks a (Main.tryFinal (.receipt ⟨jobId, bytes⟩)
      (.exit ⟨jobId, receipt.body.outcome.toExit, receipt.body.completedUnixMs⟩)) Q s w := by
  have hreceipt : ∀ v v', a.expects w.received v → P v v' →
      ∃ v'', v'.accept (.receipt ⟨jobId, bytes⟩) = .ok v'' ∧
        (v''.phase = .receiptAuthenticated ∧ v''.jobId = jobId ∧
          v''.authenticatedTerminal = some receipt.terminal) := by
    intro v v' hv hPv
    obtain ⟨hphase, hjob⟩ := hP v v' hv hPv
    exact ⟨_, accept_receipt hphase hjob hdecode, rfl, hjob, rfl⟩
  have hexit : ∀ (v v' : HelperSessionValidator), (v'.phase = .receiptAuthenticated ∧
      v'.jobId = jobId ∧ v'.authenticatedTerminal = some receipt.terminal) →
      ∃ v'', v'.accept (.exit ⟨jobId, receipt.body.outcome.toExit,
        receipt.body.completedUnixMs⟩) = .ok v'' ∧ True := by
    rintro v v' ⟨hphase, hjob, hterminal⟩
    exact ⟨_, accept_exit hphase hjob hterminal, trivial⟩
  refine runs_bind (speaks_trySend h hreceipt fun sent w1 hw1 _ => ?_)
  cases sent with
  | false => exact runs_pure (hQ false w1)
  | true =>
    refine runs_bind (speaks_trySend hw1 (fun v v' _ => hexit v v') fun sent w2 _ _ => ?_)
    cases sent with
    | false => exact runs_pure (hQ false w2)
    | true => exact runs_calm heard_calm trivial fun _ _ sent w3 _ _ _ _ => hQ sent w3

/-- A frame is offered while the relay is available. -/
theorem speaks_relayFrame {v : JobVars} {Q : Unit → JobVars → World → Prop}
    (h : v.relayAvailable = true → Stands a P w)
    (haccept : ∀ u u', P u u' → ∃ u'', u'.accept frame = .ok u'' ∧ R u u'')
    (hQ : ∀ available w', (available = true → Stands a R w') →
      Q () { v with relayAvailable := available } w') : Speaks a (relayFrame frame) Q v w := by
  have hoffered : v.relayAvailable = true → ∀ w1, Quiet w w1 → _ := fun hon w1 hquiet =>
    ((h hon).quiet hquiet).offered false fun u u' _ => haccept u u'
  refine runs_relayFrame (fun hon w1 hquiet => (hoffered hon w1 hquiet).1) (fun hoff => ?_)
    fun hon w1 hquiet => ?_
  · have hpost := hQ false w (fun hon => by cases hon)
    rwa [← hoff] at hpost
  · refine hQ _ _ fun hsent => ?_
    have hstands := (hoffered hon w1 hquiet).2
    rwa [if_pos hsent] at hstands

/-! ## A job -/

/-- The validator has counted what the job has counted. -/
structure InStep (start : StartFrame) (v : JobVars) (u : HelperSessionValidator) : Prop where
  phase : u.phase = .streaming
  mode : u.mode = .job start.maxOutputBytes
  jobId : u.jobId = start.jobId
  stdoutOffset : u.stdoutOffset = v.stdoutOffset
  stderrOffset : u.stderrOffset = v.stderrOffset
  heartbeatOrdinal : u.heartbeatOrdinal = v.journal.heartbeatOrdinal
  heartbeatElapsedMs : u.heartbeatElapsedMs = v.journal.elapsedMs
  bounded : start.maxOutputBytes ≤ Remote.maxOutputBytes

/-- While the relay is available, every validator is in step with the job. -/
def Following (a : Audience) (start : StartFrame) (v : JobVars) (w : World) : Prop :=
  v.relayAvailable = true → Stands a (fun _ => InStep start v) w

variable {start : StartFrame} {prepared : PreparedJob} {v : JobVars}
  {u : HelperSessionValidator}

theorem Stands.mono (h : Stands a P w) (hP : ∀ u u', a.expects w.received u → P u u' → R u u') :
    Stands a R w := by
  obtain ⟨told, htold, hall⟩ := h
  refine ⟨told, htold, fun u hu => ?_⟩
  obtain ⟨u', haccepts, hu'⟩ := hall u hu
  exact ⟨u', haccepts, hP u u' hu hu'⟩

/-- The other variables of the job do not matter. -/
theorem InStep.of_eq {v' : JobVars} (h : InStep start v u) (hjournal : v'.journal = v.journal)
    (hstdout : v'.stdoutOffset = v.stdoutOffset) (hstderr : v'.stderrOffset = v.stderrOffset) :
    InStep start v' u :=
  ⟨h.phase, h.mode, h.jobId, hstdout ▸ h.stdoutOffset, hstderr ▸ h.stderrOffset,
    hjournal ▸ h.heartbeatOrdinal, hjournal ▸ h.heartbeatElapsedMs, h.bounded⟩

theorem following_terms :
    LoopTerms (fun _ _ _ => true) (Heard a) (Following a start) (fun _ _ _ => True) where
  inv := heard_calm
  calm _ _ _ _ hcalm hJ hon := ((hJ (hcalm.relayAvailable hon)).quiet hcalm.world).mono
    fun _ _ _ h => h.of_eq hcalm.journal hcalm.stdoutOffset hcalm.stderrOffset
  bound _ _ := trivial
  trouble _ _ _ _ := trivial

/-- A chunk within the budget is accepted. -/
theorem InStep.chunk (h : InStep start v u) {data : List UInt8} (kind : StreamKind)
    (hdata : data.length ≤ outputReadBytes)
    (hlimit : ¬start.maxOutputBytes < v.projected (UInt64.ofNat data.length)) :
    ∃ u', u.accept (outputFrame ⟨start.jobId, v.offset kind, data⟩ kind) = .ok u' ∧
      InStep start (v.advance (UInt64.ofNat data.length) kind) u' := by
  -- the sum is within the budget, so nothing overflows
  have hlength : (UInt64.ofNat data.length).toNat = data.length := by
    rw [UInt64.toNat_ofNat', Nat.mod_eq_of_lt]
    exact Nat.lt_of_le_of_lt hdata (by decide)
  have hmax := UInt64.le_iff_toNat_le.mp h.bounded
  have hsum : v.stdoutOffset.toNat + v.stderrOffset.toNat + data.length ≤
      start.maxOutputBytes.toNat := by
    have hprojected := UInt64.le_iff_toNat_le.mp (UInt64.not_lt.mp hlimit)
    simp only [JobVars.projected, toNat_saturatingAdd, hlength] at hprojected
    have hlarge : Remote.maxOutputBytes.toNat < 2 ^ 64 - 1 := by decide
    omega
  have hoffset : (v.offset kind).toNat + data.length ≤ start.maxOutputBytes.toNat := by
    cases kind <;> simp only [JobVars.offset] <;> omega
  have hbound := start.maxOutputBytes.toNat_lt
  have hnext : v.offset kind + UInt64.ofNat data.length =
      saturatingAdd (v.offset kind) (UInt64.ofNat data.length) := by
    rw [← UInt64.toNat_inj, toNat_saturatingAdd, UInt64.toNat_add, hlength]
    omega
  have hvalue : (saturatingAdd (v.offset kind) (UInt64.ofNat data.length)).toNat =
      (v.offset kind).toNat + data.length := by
    rw [toNat_saturatingAdd, hlength]
    omega
  have hfits : (v.offset kind).toNat + data.length < 2 ^ 64 := by omega
  cases kind with
  | stdout =>
    refine ⟨_, accept_stdout h.phase h.mode h.jobId h.stdoutOffset hfits hnext ?_,
      { h with stdoutOffset := rfl }⟩
    rw [hvalue, h.stderrOffset]
    simp only [JobVars.offset]
    omega
  | stderr =>
    refine ⟨_, accept_stderr h.phase h.mode h.jobId h.stderrOffset hfits hnext ?_,
      { h with stderrOffset := rfl }⟩
    rw [hvalue, h.stdoutOffset]
    simp only [JobVars.offset]
    omega

/-- A heartbeat that the journal takes is accepted. -/
theorem InStep.beat (h : InStep start v u) {ordinal elapsed now : UInt64} {journal : JobRecord}
    (hjournal : v.journal.observeHeartbeat
      ⟨start.jobId, ordinal, elapsed, v.stdoutOffset, v.stderrOffset⟩ now = .ok journal) :
    ∃ u', u.accept (.heartbeat
        ⟨start.jobId, ordinal, elapsed, v.stdoutOffset, v.stderrOffset⟩) = .ok u' ∧
      InStep start { v with journal := journal } u' := by
  simp only [JobRecord.observeHeartbeat, bind_eq_ok, rejectIf_eq_ok, pure_eq_ok, not_not]
    at hjournal
  obtain ⟨_, _, _, _, _, hordinal, _, helapsed, _, _, _, _, _, _, rfl⟩ := hjournal
  exact ⟨_, accept_heartbeat h.phase (by simp [isJob, h.mode]) h.jobId
    (h.heartbeatOrdinal ▸ hordinal) (h.heartbeatElapsedMs ▸ helapsed) h.stdoutOffset.symm
    h.stderrOffset.symm, { h with heartbeatOrdinal := rfl, heartbeatElapsedMs := rfl }⟩

/-- A step of a job that leaves the validators in step. -/
abbrev KeepsStep (a : Audience) (start : StartFrame) : Job → Prop :=
  KeepsJob (fun _ _ _ => true) (Heard a) (Following a start) fun _ _ _ => True

theorem step_takeChunk (kind : StreamKind) {data : List UInt8}
    (hdata : data.length ≤ outputReadBytes) : KeepsStep a start (takeChunk start kind data) := by
  intro v w hJ
  refine runs_bind (runs_vars ?_)
  split_ifs with hlimit
  · exact keeps_terminate following_terms .outputLimit v w hJ
  · have hhash : ∀ w, (v.hash data kind).relayAvailable = true →
        Following a start v w → Stands a (fun _ => InStep start v) w := by
      intro w hon hw
      cases kind <;> exact hw hon
    refine runs_bind (runs_assign (runs_bind (speaks_relayFrame (fun hon => hhash w hon hJ)
      (fun _ _ h => h.chunk kind hdata hlimit) fun available w' hw' => runs_assign ?_)))
    intro hon
    have havailable : available = true := by
      cases kind <;> exact hon
    refine (hw' havailable).mono fun _ _ _ h => ?_
    cases kind <;> exact h.of_eq rfl rfl rfl

theorem step_giveUp : KeepsStep a start giveUp := by
  intro v w _
  refine runs_bind (runs_vars (runs_bind (runs_unixMs heard_calm (fun w1 t _ _ => ?_)
    fun _ _ _ _ => trivial)))
  refine runs_bind (runs_orElseFail (fun journal _ => ?_) fun _ _ => trivial)
  exact runs_bind (runs_assign (runs_bind (runs_store (fun _ _ _ h => h.of_eq rfl rfl)
    (fun _ _ _ => runs_fail trivial) fun _ _ _ _ _ _ => trivial)))

theorem step_beat : KeepsStep a start (beat start) := by
  intro v w hJ
  refine runs_bind (runs_assign (runs_bind (runs_vars (runs_bind
    (runs_instantNow heard_calm fun w1 hw1 => ?_)))))
  refine runs_bind (runs_unixMs heard_calm (fun w2 t hw2 _ => ?_) fun _ _ _ _ => trivial)
  refine runs_bind (runs_orElseFail (fun journal hjournal => ?_) fun _ _ => trivial)
  refine runs_bind (runs_assign (runs_bind (runs_store (fun _ _ _ h => h.of_eq rfl rfl)
    (fun w3 hw3 _ => ?_) fun _ _ _ _ _ _ => trivial)))
  -- the validators are in step with the journal before this heartbeat
  have hbefore : v.relayAvailable = true →
      Stands a (fun _ => InStep start v) (w3.store (.updateJournal journal)) := fun hon =>
    ((hJ hon).quiet (hw1.trans (hw2.trans ((quiet_read w2 t).trans hw3)))).later
      (Sink.Relayed.refl _) (prefix_refl _)
  refine runs_bind (speaks_relayFrame hbefore (fun _ _ h => h.beat hjournal)
    fun available w4 hw4 => ?_)
  refine runs_bind (runs_instantNow heard_calm fun w5 hw5 => runs_assign fun hon => ?_)
  exact ((hw4 hon).quiet hw5).mono fun _ _ _ h => h.of_eq rfl rfl rfl

theorem speaks_finishJob (hJ : Following a start v w) :
    Speaks a (finishJob start prepared) (fun _ _ _ => True) v w := by
  refine runs_bind (runs_vars (runs_bind (runs_unixMs heard_calm (fun w1 t hw1 _ => ?_)
    fun _ _ _ _ => trivial)))
  refine runs_bind (runs_orElseFail (fun receipt hreceipt => ?_) fun _ _ => trivial)
  obtain ⟨hwellformed, -, rfl⟩ := issue_eq_ok.mp hreceipt
  refine runs_bind (runs_store (fun _ _ _ h => h.of_eq rfl rfl) (fun w2 hw2 _ => ?_)
    fun _ _ _ _ _ _ => trivial)
  refine runs_bind (runs_store (fun _ _ _ h => h.of_eq rfl rfl) (fun w3 hw3 _ => ?_)
    fun _ _ _ _ _ _ => trivial)
  refine runs_onlyIf (fun hon => runs_bind ?_) fun _ => trivial
  have hstands : Stands a (fun _ => InStep start v) (w3.store (.updateJournal
      { v.journal with stage := stageOf v.outcome, updatedUnixMs := t })) :=
    (hJ hon).later (hw1.sink.trans (hw2.sink.trans hw3.sink))
      (hw1.received.trans (hw2.received.trans hw3.received)).isPrefix
  exact speaks_tryFinal (decode_encode hwellformed) hstands
    (fun _ _ _ h => ⟨h.phase, h.jobId⟩) fun _ _ => runs_pure trivial

/-- **A job says only what is accepted**, if the validators have heard the greeting. -/
theorem speaks_runJob (rounds : Nat)
    (hw : Stands a (fun _ u => u = { HelperSessionValidator.new start.jobId
      (.job start.maxOutputBytes) with phase := .streaming } ∧
        start.maxOutputBytes ≤ Remote.maxOutputBytes) w) :
    Speaks a (runJob rounds start prepared) (fun _ _ _ => True) s w := by
  refine runs_runJob following_terms (fun _ _ _ h => h.of_eq rfl rfl) (fun _ h => h.of_eq rfl rfl)
    (fun _ kind h => ?_) (fun _ _ _ => trivial) ?_ step_giveUp
    (fun kind _ _ hdata => step_takeChunk kind hdata) step_beat
    (fun _ _ _ _ hJ => speaks_finishJob hJ) rounds s
  · cases kind <;> exact h.of_eq rfl rfl
  · intro w1 record _ hsink hreceived _ hsubmitted _
    refine (hw.later hsink hreceived.isPrefix).mono ?_
    rintro _ u _ ⟨rfl, hbounded⟩
    exact ⟨rfl, rfl, rfl, rfl, rfl, hsubmitted.heartbeatOrdinal.symm, hsubmitted.elapsedMs.symm,
      hbounded⟩

/-! ## How a session begins -/

theorem speaks_startThread {thread : Thread} {context : String → String}
    {Q : Unit → σ → World → Prop}
    (h : ∀ sink, w.sink.Relayed sink → Heard a { w with sink := sink } →
      Heard a (World.startThread { w with sink := sink } thread) ∧
        Q () s (World.startThread { w with sink := sink } thread)) :
    Speaks a (Main.startThread thread context) Q s w := by
  refine runs_succeed (runs_call fun w1 hrely hinv c r w2 _ hexec => ?_)
  obtain ⟨sink, rfl, hsink⟩ := hrely
  cases c <;> simp only [exec, reduceCtorEq] at hexec
  · cases hexec
    obtain ⟨hheard, hpost⟩ := h sink hsink hinv
    exact ⟨hheard, fun _ => hpost, fun _ _ hm => by cases hm⟩
  · cases hexec
    exact ⟨hinv, fun hm => (by cases hm), fun _ _ _ => trivial⟩

/-- Before the relay is started nothing is told, and then the validators are as they were made. -/
theorem speaks_startThreads {context context' : String → String} {rest : Main σ α}
    {Q : α → σ → World → Prop} (hsink : w.sink = {}) (hreceived : w.received = [])
    (h : ∀ w', Stands a (fun u u' => u' = u) w' → w'.received = [] → Speaks a rest Q s w') :
    Speaks a (do
      Main.startThread .input context
      Main.startThread .output context'
      rest) Q s w := by
  refine runs_bind (speaks_startThread fun sink hrelayed hheard => ⟨hheard.of_eq rfl rfl, ?_⟩)
  have hoff : sink = {} := by
    rw [hsink] at hrelayed
    exact hrelayed.off rfl
  subst hoff
  refine runs_bind (speaks_startThread fun sink hrelayed hheard => ?_)
  obtain rfl : sink = {} := hrelayed.off rfl
  have hopen : Sink.Told { relaying := true } [] := ⟨prefix_refl _, fun _ => rfl⟩
  refine ⟨⟨⟨rfl, Nat.le_refl 0, fun _ => rfl⟩, hheard.decoded, [], hopen.frames,
    fun u _ => ⟨u, rfl⟩⟩, h _ ⟨[], hopen, fun u _ => ⟨u, rfl, rfl⟩⟩ hreceived⟩

theorem received_nextInput {c : Choice} {validator : ControllerSessionValidator}
    {event : InputEvent} (h : w.nextInput validator c = some (event, w')) :
    w'.received = w.received ++ event.frames ∧ w'.sink = w.sink := by
  unfold World.nextInput at h
  split at h <;> cases h <;> exact ⟨rfl, rfl⟩

theorem speaks_receiveInput {Q : Envelope → σ → World → Prop} (h : Stands a P w)
    (hQ : ∀ envelope w', Stands a P w' → w'.received = w.received ++ [envelope.frame] →
      Q envelope s w') : Speaks a Main.receiveInput Q s w := by
  refine runs_bind (runs_call fun w1 hrely hinv c event w2 _ hexec => ?_)
  refine ⟨heard_calm _ Op.receiveInput _ _ _ trivial hexec hinv,
    runs_orElseFail (fun envelope henvelope => ?_) fun _ _ => trivial⟩
  obtain ⟨sink, rfl, hsink⟩ := hrely
  simp only [exec] at hexec
  split at hexec
  · cases hexec
    cases henvelope
  · obtain ⟨⟨event', w3⟩, hnext, heq⟩ := Option.map_eq_some_iff.mp hexec
    cases heq
    obtain ⟨hreceived, hsame⟩ := received_nextInput hnext
    cases event' <;> cases henvelope
    refine hQ _ _ (h.later ?_ ?_) hreceived
    · rw [hsame]
      exact hsink
    · rw [hreceived]
      exact prefix_append _ _

/-- The host is asked something that changes nothing. -/
theorem speaks_look {op : Op} {Q : Ans op → σ → World → Prop}
    (hlook : ∀ {w w' c r}, exec w op c = some (r, w') → w' = w) (h : Stands a P w)
    (hQ : ∀ r w', Stands a P w' → w'.received = w.received → Q r s w') :
    Speaks a (Act.call op) Q s w := by
  refine runs_call fun w1 hrely hinv c r w2 _ hexec => ?_
  obtain rfl := hlook hexec
  obtain ⟨sink, rfl, hsink⟩ := hrely
  exact ⟨hinv, hQ r _ (h.later hsink (prefix_refl _)) rfl⟩

theorem speaks_require {c : Prop} [Decidable c] {e : HelperError} {Q : Unit → σ → World → Prop}
    (h : c → Q () s w) : Speaks a (Act.require c e) Q s w :=
  (Act.wp_require c e).mpr ⟨h, fun _ => trivial⟩

/-- The validator has heard the greeting. -/
def Greeted (u u' : HelperSessionValidator) : Prop := u' = { u with phase := .streaming }

/-- Both kinds of sessions begin with a greeting. -/
theorem speaks_greet {features : UInt64} {Q : UInt32 → σ → World → Prop}
    (hnew : ∀ received u, a.expects received u → u.phase = .hello ∧
      (u.isJob = false → features &&& featureReceiptQuery ≠ 0))
    (h : Stands a (fun u u' => u' = u) w)
    (hQ : ∀ uid hello w', Stands a Greeted w' → w'.received = w.received ++ [.hello hello] →
      Q uid s w') :
    Speaks a (Main.greet features) Q s w := by
  refine runs_bind (speaks_receiveInput h fun envelope w1 hw1 hreceived1 => ?_)
  refine runs_bind (runs_orElseFail (fun hello hhello => ?_) fun _ _ => trivial)
  have hframe : envelope.frame = .hello hello := by
    cases hkind : envelope.frame <;> rw [hkind] at hhello <;> cases hhello
    rfl
  refine runs_bind (speaks_require fun _ => runs_bind (runs_bind (speaks_look ?_ hw1
    fun status w2 hw2 hreceived2 => runs_orElseFail (fun uid _ => ?_) fun _ _ => trivial)))
  · intro w w' c r hexec
    cases c <;> cases hexec
    rfl
  refine runs_bind (speaks_require fun huid => ?_)
  have haccept : ∀ u u', a.expects w2.received u → u' = u → ∃ u'', u'.accept
      (.hello ⟨UInt32.ofNat maxFramePayload, features, uid⟩) = .ok u'' ∧ Greeted u u'' := by
    rintro u _ hu rfl
    obtain ⟨hphase, hfeatures⟩ := hnew _ _ hu
    exact ⟨_, accept_hello hphase huid hfeatures, rfl⟩
  refine runs_bind (speaks_trySend hw2 haccept fun sent w3 hw3 hreceived3 =>
    runs_bind (speaks_require fun hsent => runs_pure ?_))
  rw [hsent, if_pos rfl] at hw3
  refine hQ uid hello w3 hw3 ?_
  rw [hreceived3, hreceived2, hreceived1, hframe]

end Rules

/-! ## The controller -/

/-- The validator that the controller makes for a job. -/
def jobValidator : Frame → Option (Except ProtocolError HelperSessionValidator)
  | .start start => some (forJob start.jobId start.maxOutputBytes)
  | _ => none

/-- The validator that the controller makes for a query. -/
def queryValidator : Frame → Option (Except ProtocolError HelperSessionValidator)
  | .queryReceipt query => some (.ok (forReceiptQuery query.jobId))
  | _ => none

/-- A validator that was made for the first request among these frames, or for any as long as there
    is none. -/
def Expects (validatorOf : Frame → Option (Except ProtocolError HelperSessionValidator))
    (received : List Frame) (u : HelperSessionValidator) : Prop :=
  (∃ frame, validatorOf frame = some (.ok u)) ∧
    ∀ made, received.findSome? validatorOf = some made → made = .ok u

/-- Who listens to the sessions of this controller. -/
def controller (validatorOf : Frame → Option (Except ProtocolError HelperSessionValidator)) :
    Audience where
  expects := Expects validatorOf
  shrinks := fun hfront h => ⟨h.1, fun made hmade => h.2 made (hfront.findSome?_eq_some hmade)⟩

theorem eq_new_of_jobValidator {u : HelperSessionValidator}
    (h : ∃ frame, jobValidator frame = some (.ok u)) :
    ∃ start : StartFrame, start.maxOutputBytes ≤ Remote.maxOutputBytes ∧
      u = .new start.jobId (.job start.maxOutputBytes) := by
  obtain ⟨frame, hframe⟩ := h
  cases frame <;> simp only [jobValidator, Option.some.injEq, reduceCtorEq] at hframe
  obtain ⟨-, hbounded, rfl⟩ := forJob_eq_ok.mp hframe
  exact ⟨_, hbounded, rfl⟩

theorem eq_new_of_queryValidator {u : HelperSessionValidator}
    (h : ∃ frame, queryValidator frame = some (.ok u)) : ∃ jobId, u = .new jobId .receiptQuery := by
  obtain ⟨frame, hframe⟩ := h
  cases frame <;> cases hframe
  exact ⟨_, rfl⟩

/-! ## A session for a job -/

theorem speaks_serveStdio (parse : List UInt8 → Except String Policy.PolicyDocument)
    (rounds : Nat) {w : World} (hsink : w.sink = {}) (hreceived : w.received = []) :
    Speaks (controller jobValidator) (serveStdio parse rounds) (fun _ _ _ => True) () w := by
  unfold serveStdio
  refine speaks_startThreads hsink hreceived fun w1 hw1 hreceived1 => ?_
  refine runs_bind (speaks_greet ?_ hw1 fun uid hello w2 hw2 hreceived2 => ?_)
  · rintro received u ⟨hmade, -⟩
    obtain ⟨start, -, rfl⟩ := eq_new_of_jobValidator hmade
    exact ⟨rfl, fun h => by cases h⟩
  refine runs_bind (speaks_receiveInput hw2 fun envelope w3 hw3 hreceived3 => ?_)
  refine runs_bind (runs_orElseFail (fun start hstart => ?_) fun _ _ => trivial)
  have hframe : envelope.frame = .start start := by
    cases hkind : envelope.frame <;> rw [hkind] at hstart <;> cases hstart
    rfl
  refine runs_bind (speaks_look ?_ hw3 fun host w4 hw4 hreceived4 => ?_)
  · intro w w' c r hexec
    cases c <;> cases hexec
    rfl
  -- now the validator is known
  have hknown : ∀ u, Expects jobValidator w4.received u →
      forJob start.jobId start.maxOutputBytes = .ok u := by
    intro u hu
    refine hu.2 _ ?_
    rw [hreceived4, hreceived3, hreceived2, hreceived1, hframe]
    rfl
  cases prepare parse host start with
  | ok prepared =>
    refine speaks_runJob rounds (hw4.mono ?_)
    rintro u _ hu rfl
    obtain ⟨-, hbounded, rfl⟩ := forJob_eq_ok.mp (hknown u hu)
    exact ⟨rfl, hbounded⟩
  | error error =>
    refine runs_bind (runs_orElseFail (fun message _ => ?_) fun _ _ => trivial)
    refine runs_bind (speaks_trySend (R := fun _ _ => True) hw4 ?_
      fun _ _ _ _ => runs_fail trivial)
    rintro u _ hu rfl
    obtain ⟨-, -, rfl⟩ := forJob_eq_ok.mp (hknown u hu)
    exact ⟨_, accept_error rfl rfl, trivial⟩

/-! ## A session for a query -/

/-- A receipt that answers a query is one that can be read. -/
theorem decode_of_verifyQueryReceipt {record : JobRecord} {bytes : List UInt8}
    {query : QueryReceiptFrame} {now : UInt64} {body : ReceiptBody}
    (h : verifyQueryReceipt record bytes query now = .ok body) :
    ∃ receipt, decode bytes = .ok receipt ∧ receipt.body = body := by
  simp only [verifyQueryReceipt, verify, bind_eq_ok, pure_eq_ok] at h
  obtain ⟨_, _, receipt, hdecode, hverify⟩ := h
  obtain ⟨_, _, _, _, _, _, _, _, _, _, _, _, _, _, _, _, _, _, rfl⟩ := hverify
  exact ⟨receipt, hdecode, rfl⟩

section Query

variable {σ : Type} {s : σ} {w : World} {query : QueryReceiptFrame} {record : JobRecord}

/-- The validators of a session in which this query has arrived and nothing was answered. -/
def Asked (query : QueryReceiptFrame) (w : World) : Prop :=
  Stands (controller queryValidator) (fun _ u => u.phase = .streaming ∧ u.jobId = query.jobId) w

theorem speaks_refuse (h : Asked query w) (code : String) (retryable : Bool) :
    Speaks (controller queryValidator) (refuse query.jobId code retryable)
      (fun _ _ _ => True) s w := by
  refine runs_bind (speaks_trySend (R := fun _ _ => True) h ?_ fun _ _ _ _ => runs_pure trivial)
  rintro _ u - ⟨hphase, hjob⟩
  exact ⟨_, accept_error hphase (congrArg some hjob.symm), trivial⟩

theorem speaks_answerQuery (h : Asked query w) (now : UInt64) (bytes : List UInt8) :
    Speaks (controller queryValidator) (answerQuery record query now bytes)
      (fun _ _ _ => True) s w := by
  unfold answerQuery
  split
  · rename_i body hverify
    obtain ⟨receipt, hdecode, rfl⟩ := decode_of_verifyQueryReceipt hverify
    exact runs_bind (speaks_tryFinal hdecode h (fun _ _ _ hu => hu)
      fun _ _ => speaks_require fun _ => trivial)
  · exact speaks_refuse h _ _

theorem speaks_queryJournaled (h : Asked query w) :
    Speaks (controller queryValidator) (queryJournaled record query) (fun _ _ _ => True) s w := by
  refine runs_bind (runs_unixMs heard_calm (fun w1 now hw1 _ => ?_) fun _ _ _ _ => trivial)
  have h1 : Asked query (w1.read now) := h.quiet (hw1.trans (quiet_read w1 now))
  split_ifs
  · exact speaks_refuse h1 _ _
  · refine runs_bind (runs_calm heard_calm trivial fun _ _ found w2 _ _ _ hw2 => ?_)
    have h2 : Asked query w2 := h1.quiet hw2
    cases found with
    | ok bytes => exact speaks_answerQuery h2 now bytes
    | error error =>
      cases error with
      | notFound => exact speaks_refuse h2 _ _
      | other message => exact runs_fail trivial

end Query

theorem speaks_receiptStdio {w : World} (hsink : w.sink = {}) (hreceived : w.received = []) :
    Speaks (controller queryValidator) receiptStdio (fun _ _ _ => True) () w := by
  unfold receiptStdio
  refine speaks_startThreads hsink hreceived fun w1 hw1 hreceived1 => ?_
  refine runs_bind (speaks_greet ?_ hw1 fun uid hello w2 hw2 hreceived2 => ?_)
  · rintro received u ⟨hmade, -⟩
    obtain ⟨jobId, rfl⟩ := eq_new_of_queryValidator hmade
    exact ⟨rfl, fun _ => by decide⟩
  refine runs_bind (speaks_receiveInput hw2 fun envelope w3 hw3 hreceived3 => ?_)
  refine runs_bind (runs_orElseFail (fun query hquery => ?_) fun _ _ => trivial)
  have hframe : envelope.frame = .queryReceipt query := by
    cases hkind : envelope.frame <;> rw [hkind] at hquery <;> cases hquery
    rfl
  have hasked : Asked query w3 := hw3.mono (by
    rintro u _ hu rfl
    have hknown : (.ok (forReceiptQuery query.jobId) : Except ProtocolError _) = .ok u := by
      refine hu.2 _ ?_
      rw [hreceived3, hreceived2, hreceived1, hframe]
      rfl
    cases hknown
    exact ⟨rfl, rfl⟩)
  refine runs_bind (runs_calm heard_calm trivial fun _ _ host w4 _ _ _ hw4 => ?_)
  refine runs_bind (runs_orElseFail (fun _ _ => ?_) fun _ _ => trivial)
  refine runs_bind (runs_calm heard_calm trivial fun _ _ found w5 _ _ _ hw5 => ?_)
  have h5 : Asked query w5 := hasked.quiet (hw4.trans hw5)
  cases found with
  | ok record => exact speaks_queryJournaled h5
  | error error =>
    cases error with
    | notFound => exact speaks_refuse h5 _ _
    | other message => exact runs_fail trivial

/-! ## Every session -/

section Sessions

variable {a : Audience} {w : World} {ms : List (Pool.Move Unit Empty Choice)}
  {cfg : Pool.Config Unit World Op Ans (Except HelperError Unit × Unit)}

/-- What is heard at the beginning of a session. -/
theorem heard_silent (hsink : w.sink = {}) (hreceived : w.received = []) : Heard a w := by
  refine ⟨?_, ?_, [], ?_, fun u _ => ⟨u, rfl⟩⟩
  · rw [hsink]
    exact ⟨rfl, Nat.le_refl 0, fun h => by cases h⟩
  · rw [hreceived]
    simp
  · rw [hsink]
    exact prefix_refl _

theorem heard_of_run {x : Main Unit Unit} (hw : Heard a w)
    (hx : Speaks a x (fun _ _ _ => True) () w)
    (hrun : (solo system).run (running (x ()) w) ms = some cfg) :
    Heard a cfg.world := by
  rw [← System.restrict_true system] at hrun
  refine (good_of_runs (fun w c w' hrelay h => ?_) (fun _ _ _ _ => trivial)
    (fun _ _ _ _ _ => trivial) hw hx hrun).1
  obtain ⟨sink, rfl, hsink⟩ := relayed_of_relay hrelay
  exact h.later hsink (Arrived.refl _)

/-- What was written is accepted, with its numbers. -/
theorem Heard.observed (h : Heard a w) (hcount : w.sink.written.length < 2 ^ 64)
    {u : HelperSessionValidator} (hu : a.expects w.received u) (hnew : u.expecting 0 = u) :
    ∃ u', w.sink.written.foldlM observe u = .ok u' := by
  obtain ⟨told, hframes, hall⟩ := h.accepted
  obtain ⟨u', haccepts⟩ := hall u hu
  -- what was written comes first among the frames that were told
  obtain ⟨rest, rfl⟩ := (prefix_append _ _).trans hframes
  unfold HelperSessionValidator.Accepts at haccepts
  rw [foldlM_append, bind_eq_ok] at haccepts
  obtain ⟨u1, hwritten, -⟩ := haccepts
  have hnumbers : 0 + (w.sink.written.map Envelope.frame).length ≤ 2 ^ 64 - 1 := by
    rw [length_map]
    omega
  have hobserved := observeAll_of_accepts hnumbers hwritten
  rw [← h.counted.written] at hobserved
  have hsame : u.expecting (UInt64.ofNat 0) = u := hnew
  rw [hsame] at hobserved
  exact ⟨_, hobserved⟩

/-- A request that was read asks for an output that a validator can be made for. -/
theorem forJob_of_decoded {start : StartFrame} (h : Decoded (.start start)) :
    forJob start.jobId start.maxOutputBytes =
      .ok (.new start.jobId (.job start.maxOutputBytes)) := by
  obtain ⟨bytes, n, hdecode⟩ := h
  have hencode := encode_of_decodeExact hdecode
  simp only [encode, encodePayload, encodeStart, bind_eq_ok] at hencode
  obtain ⟨_, ⟨_, hvalid, -⟩, -⟩ := hencode
  simp only [StartFrame.validate, bind_eq_ok, rejectIf_eq_ok, not_or] at hvalid
  obtain ⟨_, -, _, -, _, -, _, -, _, -, _, -, _, -, _, -, _, ⟨hpositive, hbounded⟩, -⟩ := hvalid
  exact forJob_eq_ok.mpr ⟨hpositive, UInt64.not_lt.mp hbounded, rfl⟩

/-- There is a validator for the request that has arrived, and it accepts the frames that were
    written, one after the other, with the receipt authenticated as it arrives. -/
def Accepted (validatorOf : Frame → Option (Except ProtocolError HelperSessionValidator))
    (w : World) : Prop :=
  (∃ u, Expects validatorOf w.received u) ∧ (w.sink.written.length < 2 ^ 64 →
    ∀ u, Expects validatorOf w.received u → ∃ u', w.sink.written.foldlM observe u = .ok u')

/-- If every request that was read has a validator, and all validators begin at frame 0. -/
theorem Heard.toAccepted
    {validatorOf : Frame → Option (Except ProtocolError HelperSessionValidator)}
    (h : Heard (controller validatorOf) w)
    (hany : ∃ frame u, validatorOf frame = some (.ok u))
    (hmade : ∀ frame made, Decoded frame → validatorOf frame = some made → ∃ u, made = .ok u)
    (hnew : ∀ u, (∃ frame, validatorOf frame = some (.ok u)) → u.expecting 0 = u) :
    Accepted validatorOf w := by
  refine ⟨?_, fun hcount u hu => h.observed hcount hu (hnew u hu.1)⟩
  cases hfirst : w.received.findSome? validatorOf with
  | none =>
    obtain ⟨frame, u, hframe⟩ := hany
    exact ⟨u, ⟨frame, hframe⟩, fun made hsome => by simp [hfirst] at hsome⟩
  | some made =>
    obtain ⟨frame, hmem, hframe⟩ := exists_of_findSome?_eq_some hfirst
    obtain ⟨u, rfl⟩ := hmade frame made (h.decoded frame hmem) hframe
    exact ⟨u, ⟨frame, hframe⟩, fun made' hsome => Option.some.inj (hsome.symm.trans hfirst)⟩

/-- **The helper says only what is accepted**, in every state of every session for a job and of
    every session for a query, with any controller, child, host and relay. -/
theorem helper_frames_accepted (parse : List UInt8 → Except String Policy.PolicyDocument)
    (rounds : Nat) (w : World) (hsink : w.sink = {}) (hreceived : w.received = []) :
    (∀ ms cfg, (solo system).run (running (serveStdio parse rounds ()) w) ms = some cfg →
      Accepted jobValidator cfg.world) ∧
    ∀ ms cfg, (solo system).run (running (receiptStdio ()) w) ms = some cfg →
      Accepted queryValidator cfg.world := by
  constructor
  · intro ms cfg hrun
    have hheard := heard_of_run (heard_silent hsink hreceived)
      (speaks_serveStdio parse rounds hsink hreceived) hrun
    refine hheard.toAccepted ⟨.start sampleStart, _, rfl⟩ (fun frame made hdecoded hframe => ?_)
      fun u hmade => ?_
    · cases frame <;> cases hframe
      exact ⟨_, forJob_of_decoded hdecoded⟩
    · obtain ⟨start, -, rfl⟩ := eq_new_of_jobValidator hmade
      rfl
  · intro ms cfg hrun
    have hheard := heard_of_run (heard_silent hsink hreceived)
      (speaks_receiptStdio hsink hreceived) hrun
    refine hheard.toAccepted ⟨.queryReceipt (queryFor sampleStart), _, rfl⟩
      (fun frame made _ hframe => ?_) fun u hmade => ?_
    · cases frame <;> cases hframe
      exact ⟨_, rfl⟩
    · obtain ⟨jobId, rfl⟩ := eq_new_of_queryValidator hmade
      rfl

end Sessions

/-- A host where a job has ended in an earlier session. -/
def sampleAfter : World :=
  match (solo system).run (running (runJob 3 sampleStart samplePrepared ()) sampleWorld)
    ((briefRun 1000 1000).map (.step ())) with
  | some cfg => { cfg.world with sink := {}, reader := none, received := [] }
  | none => sampleWorld

/-- A request whose input digest is wrong. -/
def deniedStart : StartFrame := { sampleStart with policyJson := [123, 125] }

/-- The bytes of a frame. -/
def bytesOf (envelope : Envelope) : List UInt8 := (encode envelope).toOption.getD []

/-- A session up to the request, then some choices, and then the relay writes its frames. -/
def sessionMoves (request : Frame) (choices : List Choice) (frames : Nat) :
    List (Pool.Move Unit Empty Choice) :=
  (Choice.quiet :: .quiet :: .input (bytesOf ⟨0, .hello ⟨1024, 0, 0⟩⟩) ::
    .status unameHost.procStatus :: .quiet :: .input (bytesOf ⟨1, request⟩) :: .host unameHost ::
    choices).map (.step ()) ++ (replicate frames [.env .take, .env (.write .sent)]).flatten

theorem sample_frames_accepted :
    (∃ ms cfg, (solo system).run
        (running (serveStdio unameParse 3 ()) sampleAfter) ms = some cfg ∧
      cfg.world.sink.written.map (·.frame.kind) = [.hello, .error] ∧
      Accepted jobValidator cfg.world) ∧
    ∃ ms cfg, (solo system).run (running (receiptStdio ()) sampleAfter) ms = some cfg ∧
      cfg.world.sink.written.map (·.frame.kind) = [.hello, .receipt, .exit] ∧
      Accepted queryValidator cfg.world := by
  have hsink : sampleAfter.sink = {} := by
    unfold sampleAfter
    split <;> rfl
  have hreceived : sampleAfter.received = [] := by
    unfold sampleAfter
    split <;> rfl
  have hdenied : ((solo system).run (running (serveStdio unameParse 3 ()) sampleAfter)
      (sessionMoves (.start deniedStart) [.quiet] 2)).map
        (fun cfg => cfg.world.sink.written.map (·.frame.kind)) = some [.hello, .error] := by
    decide +kernel
  have hanswered : ((solo system).run (running (receiptStdio ()) sampleAfter)
      (sessionMoves (.queryReceipt (queryFor sampleStart))
        [.quiet, .clock (some 1500), .quiet, .quiet, .quiet] 3)).map
        (fun cfg => cfg.world.sink.written.map (·.frame.kind)) =
      some [.hello, .receipt, .exit] := by
    decide +kernel
  obtain ⟨hjobs, hqueries⟩ := helper_frames_accepted unameParse 3 sampleAfter hsink hreceived
  constructor
  · obtain ⟨cfg, hcfg, hkinds⟩ := Option.map_eq_some_iff.mp hdenied
    exact ⟨_, cfg, hcfg, hkinds, hjobs _ cfg hcfg⟩
  · obtain ⟨cfg, hcfg, hkinds⟩ := Option.map_eq_some_iff.mp hanswered
    exact ⟨_, cfg, hcfg, hkinds, hqueries _ cfg hcfg⟩

end Helper

end Serctl.Remote
