import Serctl.Remote.HelperRules

/-!
# How a job ends

A job whose child was started leaves a receipt, or its journal tells that its end is unknown.  That
is so as long as no call fails and the wall clock does not fall behind the journal; a clock that is
set back ends the helper at the next heartbeat, with neither.

A receipt that was stored is accepted from the completion of the job until its retention ends,
unless the job was completed only after the relay deadline.
-/

namespace Serctl.Remote.Helper

open Lib Lib.Guard Function Option List AuthenticatedReceipt
open Pool (Config running solo)
open Policy (PolicyDocument)

variable {start : StartFrame} {prepared : PreparedJob} {v : JobVars} {w : World}

/-! ## Elapsed time and output -/

theorem toNat_elapsedMs (started now : Nat) :
    (elapsedMs started now).toNat = min ((now - started) / 10 ^ 6) (2 ^ 64 - 1) := by
  rw [elapsedMs, UInt64.toNat_ofNat']
  exact Nat.mod_eq_of_lt (by omega)

theorem elapsedMs_mono (started : Nat) {now now' : Nat} (h : now ≤ now') :
    elapsedMs started now ≤ elapsedMs started now' := by
  rw [UInt64.le_iff_toNat_le, toNat_elapsedMs, toNat_elapsedMs]
  have hdiv : (now - started) / 10 ^ 6 ≤ (now' - started) / 10 ^ 6 :=
    Nat.div_le_div_right (by omega)
  omega

/-! ## What a job leaves behind -/

/-- A receipt of the job is stored, or its journal says that its end is unknown. -/
def Accounted (start : StartFrame) (w : World) : Prop :=
  (∃ body receipt, issue body start.receiptToken = .ok receipt ∧
    body.identity = identityOf start ∧ w.receipts start.jobId = some receipt.encode) ∨
  ∃ record, w.journals start.jobId = some record ∧ record.stage = .unknown

/-- The call succeeds. -/
def succeeding (w : World) (op : Op) (c : Choice) : Bool :=
  match exec w op c with
  | some (a, _) => !failed op a
  | none => false

/-- A reading of the wall clock is past the epoch and not behind the journal of the job, and there
    is a number for the next heartbeat. -/
def inStep (jobId : JobId) (w : World) : Op → Choice → Bool
  | .unixMs, .clock (some t) => decide (0 < t) && (w.journals jobId).all fun record =>
      decide (record.updatedUnixMs ≤ t) && decide (record.heartbeatOrdinal.toNat < 2 ^ 64 - 1)
  | _, _ => true

/-- The call succeeds, and the clock is in step with the journal. -/
def orderly (jobId : JobId) (w : World) (op : Op) (c : Choice) : Bool :=
  succeeding w op c && inStep jobId w op c

theorem no_trouble {jobId : JobId} {P : Prop} (h : Trouble (orderly jobId)) : P := by
  obtain ⟨w, op, c, a, w', hpermitted, hexec, hfailed⟩ := h
  simp [orderly, succeeding, hexec, hfailed] at hpermitted

variable {t : UInt64} {record : JobRecord}

theorem reading_of_orderly {jobId : JobId} (h : orderly jobId w .unixMs (.clock (some t)) = true)
    (hrecord : w.journals jobId = some record) :
    0 < t ∧ record.updatedUnixMs ≤ t ∧ record.heartbeatOrdinal.toNat < 2 ^ 64 - 1 := by
  simp only [orderly, inStep, hrecord, Bool.and_eq_true, all_some, decide_eq_true_eq] at h
  exact ⟨h.2.1, h.2.2.1, h.2.2.2⟩

/-- The journal is up to date with the variables of the job. -/
structure Journaled (start : StartFrame) (v : JobVars) (w : World) : Prop where
  journal : w.journals start.jobId = some v.journal
  identity : v.journal.identity = identityOf start
  maxOutputBytes : v.journal.maxOutputBytes = start.maxOutputBytes
  stage : v.journal.stage = .running
  heartbeatOrdinal : v.journal.heartbeatOrdinal = v.heartbeatOrdinal
  elapsedMs : v.journal.elapsedMs ≤ elapsedMs v.started w.instant
  stdoutBytes : v.journal.stdoutBytes ≤ v.stdoutOffset
  stderrBytes : v.journal.stderrBytes ≤ v.stderrOffset
  budget : saturatingAdd v.stdoutOffset v.stderrOffset ≤ start.maxOutputBytes

theorem Journaled.jobId (hj : Journaled start v w) : v.journal.identity.jobId = start.jobId := by
  rw [hj.identity]
  rfl

/-- How a job may fail: its rounds are used up, or it is accounted for. -/
def FailsAccounted (start : StartFrame) (e : HelperError) (w : World) : Prop :=
  w.spawned = true → e = .bound ∨ Accounted start w

variable {w' : World}

theorem Journaled.calm {v' : JobVars} (h : Calm v w v' w') (hj : Journaled start v w) :
    Journaled start v' w' := by
  constructor
  · rw [h.world.journals, h.journal]
    exact hj.journal
  · rw [h.journal]
    exact hj.identity
  · rw [h.journal]
    exact hj.maxOutputBytes
  · rw [h.journal]
    exact hj.stage
  · rw [h.journal, h.heartbeatOrdinal]
    exact hj.heartbeatOrdinal
  · rw [h.journal, h.started]
    exact UInt64.le_trans hj.elapsedMs (elapsedMs_mono _ h.world.instant)
  · rw [h.journal, h.stdoutOffset]
    exact hj.stdoutBytes
  · rw [h.journal, h.stderrOffset]
    exact hj.stderrBytes
  · rw [h.stdoutOffset, h.stderrOffset]
    exact hj.budget

theorem Journaled.quiet (h : Quiet w w') (hj : Journaled start v w) :
    Journaled start v w' :=
  hj.calm (Calm.of_quiet h)

theorem journaled_terms : LoopTerms (orderly start.jobId) (fun _ => True) (Journaled start)
    (fun e _ => FailsAccounted start e) where
  inv := keptCalm_true
  calm _ _ _ _ := Journaled.calm
  bound _ _ _ := .inl rfl
  trouble := no_trouble

theorem markUnknown_of_journaled (hj : Journaled start v w) (ht : v.journal.updatedUnixMs ≤ t) :
    v.journal.markUnknown t = .ok { v.journal with stage := .unknown, updatedUnixMs := t } := by
  simp [JobRecord.markUnknown, rejectIf, hj.stage, JobStage.isTerminal, ht, bind, Except.bind, pure,
    Except.pure]

/-- A step of an orderly job that keeps its journal up to date. -/
def KeepsJournaled (start : StartFrame) : Job → Prop :=
  KeepsJob (orderly start.jobId) (fun _ => True) (Journaled start)
    (fun e _ => FailsAccounted start e)

theorem keeps_giveUp : KeepsJournaled start giveUp := by
  intro v w hj
  refine runs_bind (runs_vars (runs_bind (runs_unixMs keptCalm_true
    (fun w1 t hquiet hpermitted => ?_) fun _ _ _ => no_trouble)))
  have hj1 : Journaled start v w1 := hj.quiet hquiet
  obtain ⟨-, hclock, -⟩ := reading_of_orderly hpermitted hj1.journal
  rw [markUnknown_of_journaled hj1 hclock]
  refine runs_bind (runs_orElseFail (fun journal hjournal => ?_) fun e he => by cases he)
  cases hjournal
  refine runs_bind (runs_assign (runs_bind (runs_store (fun _ _ _ _ => trivial) (fun w2 _ _ => ?_)
    fun _ _ _ _ _ => no_trouble)))
  -- the journal says unknown when the helper gives up
  refine runs_fail fun _ => .inr (.inr
    ⟨{ v.journal with stage := .unknown, updatedUnixMs := t }, ?_, rfl⟩)
  rw [← hj.jobId]
  exact update_self _ _ _

/-- The queue has no part in what is journaled. -/
theorem Journaled.of_sink {sink : Sink} {available : Bool} (hj : Journaled start v w) :
    Journaled start { v with relayAvailable := available } { w with sink := sink } :=
  { hj with }

theorem keeps_relayFrame (frame : Frame) : KeepsJournaled start (relayFrame frame) := by
  intro v w hj
  refine runs_relayFrame (fun _ _ _ _ => trivial) (fun _ => hj) fun _ w1 hquiet => ?_
  exact (hj.quiet hquiet).of_sink

theorem le_saturatingAdd (a b : UInt64) : a ≤ saturatingAdd a b := by
  rw [UInt64.le_iff_toNat_le, toNat_saturatingAdd]
  have := a.toNat_lt
  omega

/-- Output within the limit is counted on its stream. -/
theorem Journaled.advance {length : UInt64} (kind : StreamKind) (hj : Journaled start v w)
    (h : ¬start.maxOutputBytes < v.projected length) :
    Journaled start (v.advance length kind) w := by
  have hbudget : ∀ a b, saturatingAdd (saturatingAdd a b) length ≤ start.maxOutputBytes →
      saturatingAdd (saturatingAdd a length) b ≤ start.maxOutputBytes ∧
        saturatingAdd a (saturatingAdd b length) ≤ start.maxOutputBytes := by
    intro a b hab
    simp only [UInt64.le_iff_toNat_le, toNat_saturatingAdd] at hab ⊢
    omega
  obtain ⟨hstdout, hstderr⟩ := hbudget _ _ (UInt64.not_lt.mp h)
  cases kind with
  | stdout =>
    exact { hj with
      stdoutBytes := UInt64.le_trans hj.stdoutBytes (le_saturatingAdd _ _)
      budget := hstdout }
  | stderr =>
    exact { hj with
      stderrBytes := UInt64.le_trans hj.stderrBytes (le_saturatingAdd _ _)
      budget := hstderr }

theorem keeps_takeChunk (kind : StreamKind) (data : List UInt8) :
    KeepsJournaled start (takeChunk start kind data) := by
  intro v w hj
  refine runs_bind (runs_vars ?_)
  split_ifs with hlimit
  · exact keeps_terminate journaled_terms .outputLimit v w hj
  · have hhash : Journaled start (v.hash data kind) w := by
      cases kind <;> exact { hj with }
    have hprojected : ∀ available, ({ v.hash data kind with relayAvailable := available } :
        JobVars).projected = v.projected := by
      intro available
      cases kind <;> rfl
    refine runs_bind (runs_assign (runs_bind (runs_relayFrame (fun _ _ _ _ => trivial) ?_ ?_)))
    · intro havailable
      refine runs_assign (hhash.advance kind ?_)
      rw [← hprojected false, ← havailable] at hlimit
      exact hlimit
    · intro _ w1 hquiet
      refine runs_assign ((hhash.quiet hquiet).of_sink.advance kind ?_)
      rw [hprojected]
      exact hlimit

/-- The heartbeat of an orderly job passes all checks of its journal. -/
theorem observeHeartbeat_of_journaled {ordinal : UInt64} {instant : Nat}
    (hj : Journaled start v w) (ht : v.journal.updatedUnixMs ≤ t)
    (hordinal : v.journal.heartbeatOrdinal < ordinal) (hinstant : w.instant ≤ instant) :
    v.journal.observeHeartbeat ⟨start.jobId, ordinal, elapsedMs v.started instant, v.stdoutOffset,
      v.stderrOffset⟩ t = .ok { v.journal with
        heartbeatOrdinal := ordinal
        elapsedMs := elapsedMs v.started instant
        stdoutBytes := v.stdoutOffset
        stderrBytes := v.stderrOffset
        updatedUnixMs := t } := by
  have helapsed := UInt64.le_trans hj.elapsedMs (elapsedMs_mono v.started hinstant)
  have hbudget := hj.budget
  rw [← hj.maxOutputBytes] at hbudget
  simp only [JobRecord.observeHeartbeat, bind_eq_ok, rejectIf_eq_ok, pure_eq_ok, not_not]
  exact ⟨(), .inl hj.stage, (), hj.jobId.symm, (), hordinal, (), helapsed, (),
    ⟨hj.stdoutBytes, hj.stderrBytes⟩, (), hbudget, (), ht, trivial⟩

theorem lt_saturatingAdd_one {a : UInt64} (h : a.toNat < 2 ^ 64 - 1) : a < saturatingAdd a 1 := by
  rw [UInt64.lt_iff_toNat_lt, toNat_saturatingAdd, UInt64.toNat_one]
  omega

/-- The journal is up to date again when it holds the heartbeat. -/
theorem Journaled.beat {ordinal : UInt64} (hj : Journaled start v w)
    (hinstant : w.instant ≤ w'.instant) :
    let journal := { v.journal with
      heartbeatOrdinal := ordinal
      elapsedMs := Helper.elapsedMs v.started w.instant
      stdoutBytes := v.stdoutOffset
      stderrBytes := v.stderrOffset
      updatedUnixMs := t }
    Journaled start { v with heartbeatOrdinal := ordinal, journal := journal }
      (w'.setJournal journal) where
  journal := by
    rw [← hj.jobId]
    exact update_self _ _ _
  identity := hj.identity
  maxOutputBytes := hj.maxOutputBytes
  stage := hj.stage
  heartbeatOrdinal := rfl
  elapsedMs := elapsedMs_mono v.started hinstant
  stdoutBytes := UInt64.le_refl _
  stderrBytes := UInt64.le_refl _
  budget := hj.budget

theorem keeps_beat : KeepsJournaled start (beat start) := by
  intro v w hj
  refine runs_bind (runs_assign (runs_bind (runs_vars (runs_bind
    (runs_instantNow keptCalm_true fun w1 hw1 => ?_)))))
  refine runs_bind (runs_unixMs keptCalm_true (fun w2 t hw2 hpermitted => ?_)
    fun _ _ _ => no_trouble)
  have hj2 : Journaled start v w2 := hj.quiet (hw1.trans hw2)
  obtain ⟨-, hclock, hordinal⟩ := reading_of_orderly hpermitted hj2.journal
  have hnext : v.journal.heartbeatOrdinal < saturatingAdd v.heartbeatOrdinal 1 := by
    rw [← hj.heartbeatOrdinal]
    exact lt_saturatingAdd_one hordinal
  rw [observeHeartbeat_of_journaled (hj.quiet hw1) hclock hnext le_rfl]
  refine runs_bind (runs_orElseFail (fun journal hjournal => ?_) fun e he => by cases he)
  cases hjournal
  refine runs_bind (runs_assign (runs_bind (runs_store (fun _ _ _ _ => trivial) (fun w3 hw3 _ => ?_)
    fun _ _ _ _ _ => no_trouble)))
  -- the journal holds the heartbeat; the frame and the next one leave it so
  refine runs_bind ((keeps_relayFrame _ _ _ ?_).mono (fun _ v' w' hj' => ?_) fun _ _ _ he => he)
  · exact (hj.quiet hw1).beat (hw2.trans ((quiet_read w2 t).trans hw3)).instant
  · refine runs_bind (runs_instantNow keptCalm_true fun w4 hw4 => runs_assign ?_)
    exact { (hj'.quiet hw4) with }

/-- The journal is up to date where the loop begins. -/
theorem Submitted.journaled (h : Submitted start prepared record)
    (hidentity : prepared.identity = identityOf start)
    (hat : w.journals start.jobId = some record) :
    Journaled start (JobVars.initial record w.instant) w where
  journal := hat
  identity := h.identity.trans hidentity
  maxOutputBytes := h.maxOutputBytes
  stage := h.stage
  heartbeatOrdinal := h.heartbeatOrdinal
  elapsedMs := by
    change record.elapsedMs ≤ _
    rw [h.elapsedMs]
    exact UInt64.zero_le
  stdoutBytes := by
    change record.stdoutBytes ≤ _
    rw [h.stdoutBytes]
    exact UInt64.zero_le
  stderrBytes := by
    change record.stderrBytes ≤ _
    rw [h.stderrBytes]
    exact UInt64.zero_le
  budget := UInt64.zero_le

/-- What is stored stays stored. -/
theorem Accounted.quiet (h : Quiet w w') (ha : Accounted start w) :
    Accounted start w' := by
  unfold Accounted
  rw [h.receipts, h.journals]
  exact ha

/-- What the job was checked for when it was submitted. -/
theorem Submitted.wellformed (h : Submitted start prepared record)
    (v : JobVars) (completed : UInt64) :
    AuthenticatedReceipt.Wellformed (v.receiptBody start prepared completed) :=
  ⟨h.validIdentity, h.validUid, h.ordered, h.validOutput⟩

theorem runs_finishJob_accounted (hsubmitted : Submitted start prepared record)
    (hidentity : prepared.identity = identityOf start) (hj : Journaled start v w) :
    Runs (orderly start.jobId) (fun _ => True) (finishJob start prepared)
      (fun _ _ => Accounted start) (fun e _ => FailsAccounted start e) v w := by
  refine runs_bind (runs_vars (runs_bind (runs_unixMs keptCalm_true
    (fun w1 t hw1 hpermitted => ?_) fun _ _ _ => no_trouble)))
  obtain ⟨hpositive, -, -⟩ := reading_of_orderly hpermitted (hj.quiet hw1).journal
  have hissue : issue (v.receiptBody start prepared t) start.receiptToken =
      .ok _ := issue_eq_ok.mpr ⟨hsubmitted.wellformed v t, hpositive, rfl⟩
  refine runs_bind (runs_orElseFail (fun receipt hreceipt => ?_) fun e he => by
    cases hissue.symm.trans he)
  obtain ⟨-, -, hbody⟩ := issue_eq_ok.mp hreceipt
  refine runs_bind (runs_store (fun _ _ _ _ => trivial) (fun w2 _ _ => ?_)
    fun _ _ _ _ _ => no_trouble)
  -- the receipt is stored; nothing after this takes it away
  have hstored : ∀ w' : World, w'.receipts = (w2.setReceipt receipt).receipts →
      Accounted start w' := by
    intro w' hw'
    refine .inl ⟨_, receipt, hreceipt, hidentity, ?_⟩
    have hjob : start.jobId = receipt.body.identity.jobId := by
      rw [hbody]
      change _ = prepared.identity.jobId
      rw [hidentity]
      rfl
    rw [hw', hjob]
    exact update_self _ _ _
  refine runs_bind (runs_store (fun _ _ _ _ => trivial) (fun w3 hw3 _ => ?_)
    fun _ _ _ _ _ => no_trouble)
  refine runs_onlyIf (fun _ => runs_bind (runs_tryFinal keptCalm_true (fun _ _ _ => trivial)
    (fun _ _ _ _ _ _ => trivial) fun _ w' _ hw' => ?_)) fun _ => hstored _ hw3.receipts
  exact runs_pure (hstored w' (hw'.trans hw3.receipts))

/-- **No job is lost in an orderly run**: once its child was started, the helper ends only with the
    receipt of the job stored, or with its journal saying that its end is unknown. -/
theorem job_accounted (hprepared : PreparedFor start prepared) (rounds : Nat) (w : World)
    (hw : w.spawned = false) {ms : List (Pool.Move Unit Empty Choice)}
    {cfg : Pool.Config Unit World Op Ans (Except HelperError Unit × Unit)}
    (hrun : (Pool.solo (system.restrict (orderly start.jobId))).run
      (Pool.running (runJob rounds start prepared ()) w) ms = some cfg)
    {result : Except HelperError Unit} (hreturn : cfg.threads () = some (.ret (result, ())))
    (hbound : result ≠ .error .bound) (hspawned : cfg.world.spawned = true) :
    Accounted start cfg.world := by
  have hidentity := hprepared.identity
  have hx : Runs (orderly start.jobId) (fun _ => True) (runJob rounds start prepared)
      (fun _ _ => Accounted start) (fun e _ => FailsAccounted start e) () w := by
    refine runs_runJob journaled_terms (fun _ _ _ _ => trivial) (fun _ _ => trivial)
      (fun _ _ _ => trivial) ?_ ?_ keeps_giveUp (fun kind data _ _ => keeps_takeChunk kind data)
      keeps_beat (fun v w1 record hrecord hj => runs_finishJob_accounted hrecord hidentity hj)
      rounds ()
    · -- before the child is started there is nothing to account for
      intro w1 e hw1 hspawned1
      rw [hw1.spawned, hw] at hspawned1
      cases hspawned1
    · intro w1 record _ _ _ hat hrecord
      rw [hprepared.jobId] at hat
      exact hrecord.journaled hidentity hat
  have hE : ∀ e w w', Quiet w w' → FailsAccounted start e w → FailsAccounted start e w' := by
    intro e w w' hquiet he hspawned'
    rw [hquiet.spawned] at hspawned'
    exact (he hspawned').imp id (Accounted.quiet hquiet)
  obtain ⟨-, hpost⟩ := good_of_runs (fun _ _ _ _ _ => trivial) (fun _ _ => Accounted.quiet) hE
    trivial hx hrun
  cases result with
  | ok _ => exact (hpost _ hreturn).1 rfl
  | error e =>
    rcases (hpost _ hreturn).2 e rfl hspawned with rfl | haccounted
    · exact absurd rfl hbound
    · exact haccounted

/-- A request for a job, with the digests of some policy and some inputs. -/
def sampleStart : StartFrame where
  jobId := .fill 16 1
  profileId := .fill 16 2
  profileGeneration := 1
  policyDigest := .fill 32 3
  inputDigest := .fill 32 5
  remoteDeadlineUnixMs := 2000
  relayDeadlineUnixMs := 2000
  resultRetentionUnixMs := 3000
  runAsUid := 1000
  maxOutputBytes := 1024
  program := "uname"
  argv := ["-a"]
  env := []
  cwd := none
  policyJson := []
  receiptToken := .fill 32 4

/-- The request, prepared. -/
def samplePrepared : PreparedJob where
  executable := "/usr/bin/uname"
  cwd := none
  store := ⟨"/home/op/.serctl/jobs"⟩
  identity := identityOf sampleStart
  deadlines := deadlinesOf sampleStart

theorem samplePrepared_for : PreparedFor sampleStart samplePrepared := ⟨rfl, rfl⟩

/-- Nothing was stored so far; the controller is connected and silent. -/
def sampleWorld : World where
  journals _ := none
  receipts _ := none
  reader := some {}

/-- The choices of a job whose child ends at once, with what the wall clock shows at the heartbeat
    and in the end. -/
def briefRun (beat completed : UInt64) : List Choice :=
  [.clock (some 1000), .quiet, .clock (some 1000), .quiet, .quiet, .quiet, .quiet, .instant 0,
    .clock (some 1000), .nothing, .child (.closed .stdout), .child (.closed .stderr), .nothing,
    .exited (some 0), .instant 0, .instant 0, .clock (some beat), .quiet, .quiet, .instant 0,
    .clock (some completed), .quiet, .quiet]

theorem sample_job_accounted : ∃ ms cfg,
    (Pool.solo (system.restrict (orderly sampleStart.jobId))).run
      (Pool.running (runJob 3 sampleStart samplePrepared ()) sampleWorld) ms = some cfg ∧
    cfg.threads () = some (.ret (.ok (), ())) ∧ cfg.world.spawned = true ∧
    Accounted sampleStart cfg.world := by
  have hrun : ((solo (system.restrict (orderly sampleStart.jobId))).run
      (running (runJob 3 sampleStart samplePrepared ()) sampleWorld)
      ((briefRun 1000 1000).map (.step ()))).map
        (fun cfg => (cfg.returned (), cfg.world.spawned)) = some (some (.ok (), ()), true) := rfl
  obtain ⟨cfg, hcfg, hend⟩ := map_eq_some_iff.mp hrun
  obtain ⟨hreturned, hspawned⟩ := Prod.mk.inj hend
  have hok := Config.threads_of_returned hreturned
  exact ⟨_, cfg, hcfg, hok, hspawned,
    job_accounted samplePrepared_for 3 sampleWorld rfl hcfg hok (by simp) hspawned⟩

/-- The wall clock is set back between the start of the job and its first heartbeat: every call
    succeeds, and the helper ends with neither a receipt nor a journal that says unknown. -/
theorem clock_set_back_loses_job : PreparedFor sampleStart samplePrepared ∧ ∃ ms cfg,
    (Pool.solo (system.restrict succeeding)).run
      (Pool.running (runJob 3 sampleStart samplePrepared ()) sampleWorld) ms = some cfg ∧
    cfg.threads () = some (.ret (.error (.failed "job clock moved backwards"), ())) ∧
    cfg.world.spawned = true ∧ ¬Accounted sampleStart cfg.world := by
  -- the run ends with the reading at the heartbeat
  have hrun : ((solo (system.restrict succeeding)).run
      (running (runJob 3 sampleStart samplePrepared ()) sampleWorld)
      (((briefRun 999 999).take 17).map (.step ()))).map (fun cfg => (cfg.returned (),
        cfg.world.spawned, cfg.world.receipts sampleStart.jobId,
        (cfg.world.journals sampleStart.jobId).map JobRecord.stage)) =
      some (some (.error (.failed "job clock moved backwards"), ()), true, none, some .running) :=
    rfl
  obtain ⟨cfg, hcfg, hend⟩ := map_eq_some_iff.mp hrun
  simp only [Prod.mk.injEq] at hend
  obtain ⟨hreturned, hspawned, hnone, hstage⟩ := hend
  refine ⟨samplePrepared_for, _, cfg, hcfg, Config.threads_of_returned hreturned, hspawned, ?_⟩
  rintro (⟨_, receipt, _, _, hreceipt⟩ | ⟨record, hrecord, hunknown⟩)
  · rw [hnone] at hreceipt
    cases hreceipt
  · rw [hrecord, map_some, hunknown] at hstage
    cases hstage

/-! ## When a stored receipt is accepted -/

/-- The query for the receipt of a job. -/
def queryFor (start : StartFrame) : QueryReceiptFrame where
  jobId := start.jobId
  profileId := start.profileId
  profileGeneration := start.profileGeneration
  policyDigest := start.policyDigest
  inputDigest := start.inputDigest
  receiptToken := start.receiptToken

/-- The receipt that is stored was issued for the job that is journaled, and completed at a reading
    of the wall clock. -/
structure Vouched (start : StartFrame) (prepared : PreparedJob) (w : World) (record : JobRecord)
    (receipt : AuthenticatedReceipt) : Prop where
  journal : w.journals start.jobId = some record
  describes : Describes start prepared record
  stored : w.receipts start.jobId = some receipt.encode
  issued : issue receipt.body start.receiptToken = .ok receipt
  identity : receipt.body.identity = prepared.identity
  runAsUid : receipt.body.runAsUid = start.runAsUid
  deadlines : receipt.body.deadlines = prepared.deadlines
  maxOutputBytes : receipt.body.maxOutputBytes = start.maxOutputBytes
  completed : receipt.body.completedUnixMs ∈ w.readings

/-- A receipt of the job that is stored is vouched for. -/
def ReceiptInv (start : StartFrame) (prepared : PreparedJob) (w : World) : Prop :=
  w.receipts start.jobId = none ∨ ∃ record receipt, Vouched start prepared w record receipt

/-- The loop of the job has its record journaled. -/
def Recorded (start : StartFrame) (prepared : PreparedJob) (v : JobVars) (w : World) : Prop :=
  w.journals start.jobId = some v.journal ∧ Describes start prepared v.journal

/-- The store and the readings are all that counts. -/
theorem ReceiptInv.of_store (hinv : ReceiptInv start prepared w)
    (hjournals : w'.journals = w.journals) (hreceipts : w'.receipts = w.receipts)
    (hreadings : w.readings <+: w'.readings) : ReceiptInv start prepared w' := by
  rcases hinv with hnone | ⟨record, receipt, hvouched⟩
  · left
    rw [hreceipts]
    exact hnone
  · refine .inr ⟨record, receipt, { hvouched with journal := ?_, stored := ?_, completed := ?_ }⟩
    · rw [hjournals]
      exact hvouched.journal
    · rw [hreceipts]
      exact hvouched.stored
    · exact hreadings.subset hvouched.completed

theorem ReceiptInv.quiet (h : Quiet w w') (hinv : ReceiptInv start prepared w) :
    ReceiptInv start prepared w' :=
  hinv.of_store h.journals h.receipts h.readings

theorem ReceiptInv.offered (command : OutputCommand) (hinv : ReceiptInv start prepared w) :
    ReceiptInv start prepared (w.offered command) :=
  hinv.of_store rfl rfl (prefix_refl _)

/-- The journal of the job goes on with records of the job. -/
theorem ReceiptInv.setJournal (hprepared : PreparedFor start prepared)
    (hrecord : Describes start prepared record) (hinv : ReceiptInv start prepared w) :
    ReceiptInv start prepared (w.setJournal record) := by
  rcases hinv with hnone | ⟨_, receipt, hvouched⟩
  · exact .inl hnone
  · refine .inr ⟨record, receipt, { hvouched with journal := ?_, describes := hrecord }⟩
    rw [← hprepared.jobId, ← hrecord.identity]
    exact update_self _ _ _

theorem recorded_terms : LoopTerms (fun _ _ _ => true) (ReceiptInv start prepared)
    (Recorded start prepared) (fun _ _ _ => True) where
  inv _ _ _ _ _ hop hexec hinv := hinv.quiet (exec_quiet hop hexec)
  calm v w v' w' hcalm hJ := by
    unfold Recorded
    rw [hcalm.world.journals, hcalm.journal]
    exact hJ
  bound _ _ := trivial
  trouble _ _ _ _ := trivial

theorem Recorded.quiet (h : Quiet w w') (hJ : Recorded start prepared v w) :
    Recorded start prepared v w' :=
  recorded_terms.quiet h hJ

/-- The record of the job is replaced by another one of the job. -/
theorem recorded_setJournal (hprepared : PreparedFor start prepared)
    (hrecord : Describes start prepared record) {v : JobVars} (hv : v.journal = record)
    (w : World) :
    Recorded start prepared v (w.setJournal record) := by
  refine ⟨?_, hv ▸ hrecord⟩
  rw [hv, ← hprepared.jobId, ← hrecord.identity]
  exact update_self _ _ _

/-- A step of a job that keeps its record journaled. -/
def KeepsRecorded (start : StartFrame) (prepared : PreparedJob) : Job → Prop :=
  KeepsJob (fun _ _ _ => true) (ReceiptInv start prepared) (Recorded start prepared)
    (fun _ _ _ => True)

section Recorded

variable (hprepared : PreparedFor start prepared)

include hprepared

theorem recorded_giveUp : KeepsRecorded start prepared giveUp := by
  intro v w hJ
  refine runs_bind (runs_vars (runs_bind (runs_unixMs recorded_terms.inv (fun w1 t _ _ => ?_)
    fun _ _ _ _ => trivial)))
  refine runs_bind (runs_orElseFail (fun journal hjournal => ?_) fun _ _ => trivial)
  have hdescribes : Describes start prepared journal := by
    simp only [JobRecord.markUnknown, bind_eq_ok, pure_eq_ok] at hjournal
    obtain ⟨_, _, _, _, rfl⟩ := hjournal
    exact { hJ.2 with }
  exact runs_bind (runs_assign (runs_bind (runs_store
    (fun _ _ _ hinv => hinv.setJournal hprepared hdescribes) (fun _ _ _ => runs_fail trivial)
    fun _ _ _ _ _ _ => trivial)))

omit hprepared in
theorem recorded_relayFrame (frame : Frame) :
    KeepsRecorded start prepared (relayFrame frame) := by
  intro v w hJ
  refine runs_relayFrame (fun _ _ _ hinv => hinv.offered _) (fun _ => hJ) fun _ w1 hquiet => ?_
  exact (hJ.quiet hquiet : Recorded start prepared v w1)

omit hprepared in
theorem recorded_takeChunk (kind : StreamKind) (data : List UInt8) :
    KeepsRecorded start prepared (takeChunk start kind data) := by
  intro v w hJ
  have hhash : Recorded start prepared (v.hash data kind) w := by
    cases kind <;> exact hJ
  refine runs_bind (runs_vars ?_)
  split_ifs with hlimit
  · exact keeps_terminate recorded_terms .outputLimit v w hJ
  · refine runs_bind (runs_assign (runs_bind ((recorded_relayFrame _ _ _ hhash).mono
      (fun _ v' w' hJ' => runs_assign ?_) fun _ _ _ he => he)))
    cases kind <;> exact hJ'

theorem recorded_beat : KeepsRecorded start prepared (beat start) := by
  intro v w hJ
  refine runs_bind (runs_assign (runs_bind (runs_vars (runs_bind
    (runs_instantNow recorded_terms.inv fun w1 hw1 => ?_)))))
  refine runs_bind (runs_unixMs recorded_terms.inv (fun w2 t _ _ => ?_) fun _ _ _ _ => trivial)
  refine runs_bind (runs_orElseFail (fun journal hjournal => ?_) fun _ _ => trivial)
  have hdescribes : Describes start prepared journal := by
    simp only [JobRecord.observeHeartbeat, bind_eq_ok, pure_eq_ok] at hjournal
    obtain ⟨_, _, _, _, _, _, _, _, _, _, _, _, _, _, rfl⟩ := hjournal
    exact { hJ.2 with }
  refine runs_bind (runs_assign (runs_bind (runs_store
    (fun _ _ _ hinv => hinv.setJournal hprepared hdescribes) (fun w3 _ _ => ?_)
    fun _ _ _ _ _ _ => trivial)))
  refine runs_bind ((recorded_relayFrame _ _ _
    (recorded_setJournal hprepared hdescribes rfl w3)).mono (fun _ v' w' hJ' => ?_)
    fun _ _ _ he => he)
  exact runs_bind (runs_instantNow recorded_terms.inv fun w4 hw4 => runs_assign
    (hJ'.quiet hw4 : Recorded start prepared v' w4))

theorem recorded_finishJob (hJ : Recorded start prepared v w) :
    Runs (fun _ _ _ => true) (ReceiptInv start prepared) (finishJob start prepared)
      (fun _ _ _ => True) (fun _ _ _ => True) v w := by
  refine runs_bind (runs_vars (runs_bind (runs_unixMs recorded_terms.inv (fun w1 t hw1 _ => ?_)
    fun _ _ _ _ => trivial)))
  refine runs_bind (runs_orElseFail (fun receipt hreceipt => ?_) fun _ _ => trivial)
  obtain ⟨-, -, hbody⟩ := issue_eq_ok.mp hreceipt
  have hpersist : ∀ w2, Quiet (w1.read t) w2 →
      ReceiptInv start prepared (w2.setReceipt receipt) := by
    intro w2 hw2
    have hJ2 := hJ.quiet (hw1.trans ((quiet_read w1 t).trans hw2))
    refine .inr ⟨v.journal, receipt, ⟨hJ2.1, hJ2.2, ?_, ?_, ?_, ?_, ?_, ?_, ?_⟩⟩ <;> subst hbody
    · rw [← hprepared.jobId]
      exact update_self _ _ _
    · exact hreceipt
    · rfl
    · rfl
    · rfl
    · rfl
    · exact hw2.readings.subset (mem_append_right _ (mem_singleton_self t))
  refine runs_bind (runs_store (fun w2 hw2 _ _ => hpersist w2 hw2) (fun w2 _ _ => ?_)
    fun _ _ _ _ _ _ => trivial)
  have hdescribes : Describes start prepared
      { v.journal with stage := stageOf v.outcome, updatedUnixMs := t } := { hJ.2 with }
  refine runs_bind (runs_store (fun _ _ _ hinv => hinv.setJournal hprepared hdescribes)
    (fun w3 _ _ => ?_) fun _ _ _ _ _ _ => trivial)
  refine runs_onlyIf (fun _ => runs_bind (runs_tryFinal recorded_terms.inv
    (fun _ _ hinv => hinv.offered _) (fun _ _ _ _ _ hinv => hinv.offered _)
    fun _ _ _ _ => runs_pure trivial)) fun _ => trivial

end Recorded

/-- In every state of every run the receipt of the job is vouched for, if it was not there
    before. -/
theorem receiptInv_of_run (hprepared : PreparedFor start prepared) (rounds : Nat)
    (hnone : w.receipts start.jobId = none) {ms : List (Pool.Move Unit Empty Choice)}
    {cfg : Config Unit World Op Ans (Except HelperError Unit × Unit)}
    (hrun : (solo system).run (running (runJob rounds start prepared ()) w) ms =
      some cfg) : ReceiptInv start prepared cfg.world := by
  have hx : Runs (fun _ _ _ => true) (ReceiptInv start prepared) (runJob rounds start prepared)
      (fun _ _ _ => True) (fun _ _ _ => True) () w := by
    refine runs_runJob recorded_terms (fun _ _ hrecord hinv => hinv.setJournal hprepared hrecord)
      (fun _ hinv => hinv.of_store rfl rfl (prefix_refl _)) ?_ (fun _ _ _ => trivial) ?_
      (recorded_giveUp hprepared)
      (fun kind data _ _ => recorded_takeChunk kind data) (recorded_beat hprepared)
      (fun v w1 record _ hJ => recorded_finishJob hprepared hJ) rounds ()
    · intro w1 kind hinv
      cases kind <;> exact hinv.of_store rfl rfl (prefix_refl _)
    · intro w1 record _ _ _ hat hrecord
      rw [hprepared.jobId] at hat
      exact ⟨hat, hrecord.toDescribes⟩
  have hrelay : ∀ w c w', relay w c = some w' → ReceiptInv start prepared w →
      ReceiptInv start prepared w' := fun w c w' h hinv =>
    hinv.quiet (quiet_of_rely (I := ReceiptInv start prepared) (relayed_of_relay h))
  rw [← System.restrict_true system] at hrun
  exact (good_of_runs hrelay (fun _ _ _ _ => trivial) (fun _ _ _ _ _ => trivial) (.inl hnone) hx
    hrun).1

/-- For the job and its token, the times alone decide about a receipt that is vouched for. -/
theorem Vouched.verify_iff {receipt : AuthenticatedReceipt}
    (hprepared : PreparedFor start prepared) (h : Vouched start prepared w record receipt)
    (now : UInt64) :
    verifyQueryReceipt record receipt.encode (queryFor start) now = .ok receipt.body ↔
      receipt.body.completedUnixMs ≤ start.relayDeadlineUnixMs ∧
        receipt.body.completedUnixMs ≤ now ∧ now ≤ start.resultRetentionUnixMs := by
  have hwellformed := (issue_eq_ok.mp h.issued).1
  have hverify := verify_issue h.issued now
  rw [h.identity, hprepared.identity, h.deadlines, hprepared.deadlines, h.runAsUid,
    h.maxOutputBytes] at hverify
  have hquery : verifyQueryReceipt record receipt.encode (queryFor start) now =
      receipt.verify (identityOf start) (deadlinesOf start) start.runAsUid start.maxOutputBytes
        start.receiptToken now := by
    simp only [verifyQueryReceipt, decode_encode hwellformed]
    have hidentity : record.identity = identityOf start :=
      h.describes.identity.trans hprepared.identity
    have hdeadlines : record.deadlines = deadlinesOf start :=
      h.describes.deadlines.trans hprepared.deadlines
    rw [h.describes.runAsUid, h.describes.maxOutputBytes, hidentity, hdeadlines]
    simp [rejectIf, identityOf, queryFor, bind, Except.bind]
  rw [hquery]
  exact hverify

/-- **A stored receipt is accepted** at every time from the completion of its job to the end of its
    retention, exactly if the job was completed before the relay deadline or after the end of the
    retention. -/
theorem stored_receipt_accepted_iff (hprepared : PreparedFor start prepared) (rounds : Nat)
    (w : World) (hnone : w.receipts start.jobId = none)
    {ms : List (Pool.Move Unit Empty Choice)}
    {cfg : Pool.Config Unit World Op Ans (Except HelperError Unit × Unit)}
    (hrun : (Pool.solo system).run (Pool.running (runJob rounds start prepared ()) w) ms = some cfg)
    {bytes : List UInt8} (hstored : cfg.world.receipts start.jobId = some bytes) :
    ∃ (record : JobRecord) (receipt : AuthenticatedReceipt),
      cfg.world.journals start.jobId = some record ∧ bytes = receipt.encode ∧
      receipt.body.completedUnixMs ∈ cfg.world.readings ∧
      ((∀ now, receipt.body.completedUnixMs ≤ now → now ≤ start.resultRetentionUnixMs →
          verifyQueryReceipt record bytes (queryFor start) now = .ok receipt.body) ↔
        receipt.body.completedUnixMs ≤ start.relayDeadlineUnixMs ∨
          start.resultRetentionUnixMs < receipt.body.completedUnixMs) := by
  rcases receiptInv_of_run hprepared rounds hnone hrun with hnone' | ⟨record, receipt, hvouched⟩
  · rw [hnone'] at hstored
    cases hstored
  rw [hvouched.stored] at hstored
  cases hstored
  refine ⟨record, receipt, hvouched.journal, rfl, hvouched.completed, ?_⟩
  simp only [hvouched.verify_iff hprepared]
  constructor
  · intro haccepted
    by_cases hretention : start.resultRetentionUnixMs < receipt.body.completedUnixMs
    · exact .inr hretention
    · exact .inl (haccepted _ (UInt64.le_refl _) (UInt64.not_lt.mp hretention)).1
  · rintro (hrelay | hretention) now hcompleted hnow
    · exact ⟨hrelay, hcompleted, hnow⟩
    · exact absurd (UInt64.le_trans hcompleted hnow) (UInt64.not_le.mpr hretention)

theorem sample_receipt_accepted : ∃ (ms : List (Pool.Move Unit Empty Choice))
    (cfg : Pool.Config Unit World Op Ans (Except HelperError Unit × Unit)) (bytes : List UInt8)
    (record : JobRecord) (receipt : AuthenticatedReceipt),
    (Pool.solo system).run (Pool.running (runJob 3 sampleStart samplePrepared ()) sampleWorld) ms =
      some cfg ∧
    cfg.world.receipts sampleStart.jobId = some bytes ∧
    cfg.world.journals sampleStart.jobId = some record ∧ bytes = receipt.encode ∧
    receipt.body.completedUnixMs ∈ cfg.world.readings ∧
    ((∀ now, receipt.body.completedUnixMs ≤ now → now ≤ sampleStart.resultRetentionUnixMs →
        verifyQueryReceipt record bytes (queryFor sampleStart) now = .ok receipt.body) ↔
      receipt.body.completedUnixMs ≤ sampleStart.relayDeadlineUnixMs ∨
        sampleStart.resultRetentionUnixMs < receipt.body.completedUnixMs) := by
  have hrun : ((solo system).run (running (runJob 3 sampleStart samplePrepared ()) sampleWorld)
      ((briefRun 1000 1000).map (.step ()))).map
        (fun cfg => (cfg.world.receipts sampleStart.jobId).isSome) = some true := rfl
  obtain ⟨cfg, hcfg, hreceipt⟩ := map_eq_some_iff.mp hrun
  obtain ⟨bytes, hstored⟩ := isSome_iff_exists.mp hreceipt
  obtain ⟨record, receipt, hjournal, hbytes, hreading, haccepted⟩ :=
    stored_receipt_accepted_iff samplePrepared_for 3 sampleWorld rfl hcfg hstored
  exact ⟨_, cfg, bytes, record, receipt, hcfg, hstored, hjournal, hbytes, hreading, haccepted⟩

/-- A job that is completed one millisecond after its relay deadline leaves a receipt that is never
    accepted, on a wall clock that only goes forward. -/
theorem late_receipt_refused : PreparedFor sampleStart samplePrepared ∧
    ∃ (ms : List (Pool.Move Unit Empty Choice))
      (cfg : Pool.Config Unit World Op Ans (Except HelperError Unit × Unit)) (record : JobRecord)
      (receipt : AuthenticatedReceipt),
      (Pool.solo system).run (Pool.running (runJob 3 sampleStart samplePrepared ())
        sampleWorld) ms =
        some cfg ∧
      cfg.threads () = some (.ret (.ok (), ())) ∧
      cfg.world.readings = [1000, 1000, 1000, 1000, 2001] ∧
      cfg.world.journals sampleStart.jobId = some record ∧
      cfg.world.receipts sampleStart.jobId = some receipt.encode ∧
      receipt.body.completedUnixMs = 2001 ∧ (2001 : UInt64) ≤ sampleStart.resultRetentionUnixMs ∧
      ∀ now, verifyQueryReceipt record receipt.encode (queryFor sampleStart) now ≠
        .ok receipt.body := by
  have hrun : ((solo system).run (running (runJob 3 sampleStart samplePrepared ()) sampleWorld)
      ((briefRun 1000 2001).map (.step ()))).map (fun cfg => (cfg.returned (),
        cfg.world.readings, (cfg.world.receipts sampleStart.jobId).bind fun bytes =>
          (decode bytes).toOption.map (·.body.completedUnixMs))) =
      some (some (.ok (), ()), [1000, 1000, 1000, 1000, 2001], some 2001) := by
    decide +kernel
  obtain ⟨cfg, hcfg, hend⟩ := map_eq_some_iff.mp hrun
  simp only [Prod.mk.injEq] at hend
  obtain ⟨hreturned, hreadings, hcompleted⟩ := hend
  rcases receiptInv_of_run samplePrepared_for 3 rfl hcfg with hnone | ⟨record, receipt, hvouched⟩
  · rw [hnone] at hcompleted
    cases hcompleted
  have hlate : receipt.body.completedUnixMs = 2001 := by
    rw [hvouched.stored, bind_some, decode_encode
      (issue_eq_ok.mp hvouched.issued).1] at hcompleted
    exact Option.some.inj hcompleted
  refine ⟨samplePrepared_for, _, cfg, record, receipt, hcfg,
    Config.threads_of_returned hreturned, hreadings, hvouched.journal, hvouched.stored, hlate,
    by decide, fun now haccepted => ?_⟩
  have htimes := (hvouched.verify_iff samplePrepared_for now).mp haccepted
  rw [hlate] at htimes
  exact absurd htimes.1 (by decide)

end Serctl.Remote.Helper
