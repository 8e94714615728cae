import Serctl.Daemon.GrantSafety
import Serctl.Daemon.Timely

/-!
# Requests with time to spare

A request whose intent is in the ledger has an outcome when its connection returns, if there is
time: the responses of its handler may record it, and whatever they leave open is recorded after
the handler.  In time such a record does not fail, unless another user of the ledger has closed the
intent in the meantime.

A request that runs into its deadline is left without an outcome.
-/

namespace Serctl.Daemon

open Lib Lib.Task Lib.Guard Ipc List
open AsyncSystem (limit_exec)
open Audit (AuditEvent AuditRecord Chained Fault Files Serde journal outcomesFor Admitted jsonSerde
  jsonSerde_lawful)

variable {HW HOp : Type} {HAns : HOp → Type} {HC : Type} {x : Platform} {s : Serde}
  {keys : ProfileIdentity → Bytes 32} {H : AsyncSystem HW HOp HAns HC} {t : Timing}
  {conn n : Nat} {w w' : World HW} {α β : Type}

/-! ## Outcomes that a ledger may hold -/

/-- A decision has been made, and its reason is a token. -/
structure AuditTerminal.Valid (terminal : AuditTerminal) : Prop where
  decision : terminal.decision ≠ .pending
  reason : Audit.validateToken terminal.reasonCode Audit.maxReasonCodeBytes "reason code" = .ok ()

/-- The reasons that the daemon gives. -/
theorem validateToken_reason : ∀ code ∈ ["dispatch.outcome_unknown", "dispatch.failed",
    "dispatch.succeeded", "dispatch.remote_failure", "dispatch.no_terminal_result",
    "grant.budget_exhausted", "quarantine.mutation_denied"],
    Audit.validateToken code Audit.maxReasonCodeBytes "reason code" = .ok () := by
  decide

namespace GrantAuditOperation

theorem valid_terminalForError (msg : String) : (terminalForError msg).Valid := by
  unfold terminalForError
  split
  · exact ⟨by simp, validateToken_reason _ (by simp)⟩
  · exact ⟨by simp, validateToken_reason _ (by simp)⟩

theorem valid_terminalForExit (code : Option Int32) : (terminalForExit code).Valid := by
  unfold terminalForExit
  split
  · split
    · exact ⟨by simp [succeeded], validateToken_reason _ (by simp [succeeded])⟩
    · exact ⟨by simp, validateToken_reason _ (by simp)⟩
  · exact ⟨by simp, validateToken_reason _ (by simp)⟩

/-- Whatever a response stands for may be recorded. -/
theorem valid_terminalForFrame {kind : String} {frame : Frame} {terminal : AuditTerminal}
    (h : terminalForFrame kind frame = some terminal) : terminal.Valid := by
  have hsucceeded : ∀ {frame : Frame}, (succeedsWith kind frame).map succeeded = some terminal →
      terminal.Valid := by
    intro frame hmap
    obtain ⟨material, -, rfl⟩ := Option.map_eq_some_iff.mp hmap
    exact ⟨by simp [succeeded], validateToken_reason _ (by simp [succeeded])⟩
  unfold terminalForFrame at h
  split at h
  · cases h
    exact valid_terminalForError _
  · split at h
    · cases h
      exact valid_terminalForExit _
    · cases h
  · split at h
    · cases h
      exact ⟨by simp, validateToken_reason _ (by simp)⟩
    · exact hsucceeded h
  · exact hsucceeded h

/-- The ledger may hold the outcome of a request whose intent it may hold. -/
theorem admitted_outcome {l : Audit.AuditLedger} {op : GrantAuditOperation} {start now : UInt64}
    {terminal : AuditTerminal} (h : Admitted l (op.intent start)) (hvalid : terminal.Valid)
    (hnow : 0 < now) : Admitted l (op.outcome x terminal now) := by
  refine ⟨?_, h.identity⟩
  have hintent := h.valid
  simp only [AuditEvent.validate, check_eq_ok, Audit.ensure_eq_ok] at hintent ⊢
  obtain ⟨hprofile, hgeneration, -, hkind, -, hpolicy, hdigest, -, -⟩ := hintent
  refine ⟨hprofile, hgeneration, hnow, hkind, hvalid.reason, hpolicy, hdigest, ?_, ?_⟩
  · exact Audit.ensure_eq_ok.mpr (Audit.isLowerHex_bytes _)
  · exact Audit.ensure_eq_ok.mpr ⟨hvalid.decision, rfl⟩

end GrantAuditOperation

/-! ## Requests that wait for their outcome -/

section Awaits

variable (x : Platform) (s : Serde) (keys : ProfileIdentity → Bytes 32)

/-- The ledger has confirmed the intent of the request, and carries it. -/
structure Declared (op : GrantAuditOperation) (start : UInt64) (w : World HW) : Prop where
  entry : op.entry.index < w.entries
  told : .appended op.entry (op.intent start) ∈ trace w.history op.conn
  carries : Carries x s keys op.entry.identity (op.intent start) w

/-- Nobody is recording the outcome, and if somebody has, the ledger carries one. -/
structure Awaits (op : GrantAuditOperation) (start : UInt64) (w : World HW) : Prop where
  declared : Declared x s keys op start w
  waits : w.audit op.conn ≠ .finalizing
  answered : w.audit op.conn ≠ .pending → Answered x s keys op.entry.identity op.requestId w

/-- The ledger has confirmed no event of the connection, or it has confirmed the intent of its
    request and carries an outcome of it. -/
def Concluded (conn : Nat) (w : World HW) : Prop :=
  (∀ entry e, .appended entry e ∉ trace w.history conn) ∨
    ∃ entry e, .appended entry e ∈ trace w.history conn ∧ e.phase = .intent ∧
      Answered x s keys entry.identity e.requestId w

end Awaits

variable (hs : s.Lawful)
  (hsize : ∀ r : AuditRecord, r.Plain → (s.record r).length ≤ Audit.maxAuditRecordBytes)

section Outcome

variable {op : GrantAuditOperation} {start : UInt64} {terminal : AuditTerminal}
  {Q : Unit → World HW → Prop} {E : Error → World HW → Prop} {K : Nat → World HW → Prop}

theorem stable_declared :
    Stable x s keys op.conn fun w : World HW => Declared x s keys op start w := by
  intro w w' hevolves htrace haudit hw
  constructor
  · exact Nat.lt_of_lt_of_le hw.entry hevolves.entries
  · rw [htrace]
    exact hw.told
  · exact carries_evolves w w' hevolves hw.carries

theorem stable_awaits :
    Stable x s keys op.conn fun w : World HW => Awaits x s keys op start w := by
  intro w w' hevolves htrace haudit hw
  constructor
  · exact stable_declared w w' hevolves htrace haudit hw.declared
  · rw [haudit]
    exact hw.waits
  · rw [haudit]
    exact fun h => lasting_answered w w' hevolves haudit (hw.answered h)

theorem stable_concluded :
    Stable x s keys conn fun w : World HW => Concluded x s keys conn w := by
  intro w w' hevolves htrace haudit hw
  unfold Concluded
  rw [htrace]
  rcases hw with hnone | ⟨entry, e, hmem, hphase, hanswered⟩
  · exact .inl hnone
  · exact .inr ⟨entry, e, hmem, hphase, lasting_answered w w' hevolves haudit hanswered⟩

theorem Declared.concluded (h : Declared x s keys op start w)
    (hanswered : Answered x s keys op.entry.identity op.requestId w) :
    Concluded x s keys op.conn w :=
  .inr ⟨op.entry, op.intent start, h.told, rfl, hanswered⟩

/-- The state of the outcome is not part of what was declared. -/
theorem Declared.setAudit (h : Declared x s keys op start w) {audit : Nat → AuditState} :
    Declared x s keys op start { w with audit := audit } :=
  ⟨h.entry, h.told, h.carries.intact, h.carries.mem⟩

/-- The request has an outcome, and the state says so. -/
theorem Declared.awaits (h : Declared x s keys op start w)
    (hanswered : Answered x s keys op.entry.identity op.requestId w)
    (hstate : w.audit op.conn ≠ .finalizing) : Awaits x s keys op start w :=
  ⟨h, hstate, fun _ => hanswered⟩

variable {id : Bytes 16} {identity : ProfileIdentity}

theorem Answered.evolves (h : Answered x s keys identity id w) (hevolves : Evolves x s keys w w') :
    Answered x s keys identity id w' := by
  obtain ⟨e, hphase, hid, hcarries⟩ := h
  exact ⟨e, hphase, hid, carries_evolves w w' hevolves hcarries⟩

theorem Answered.setAudit (h : Answered x s keys identity id w) {audit : Nat → AuditState} :
    Answered x s keys identity id { w with audit := audit } :=
  h.evolves evolves_setAudit

theorem answered_of_outcomesFor
    (hintact : Audit.Intact x.toCrypto s (ledgerOf keys identity) (w.files identity))
    (h : outcomesFor id (journal s (w.files identity)) ≠ []) :
    Answered x s keys identity id w := by
  obtain ⟨e, he⟩ := exists_mem_of_ne_nil _ h
  simp only [outcomesFor, mem_filter, decide_eq_true_eq] at he
  exact ⟨e, he.2.1, he.2.2, hintact, he.1⟩

/-! ## The append of the outcome -/

include hs hsize

/-- An append of the outcome in time is confirmed, or the request has one already. -/
theorem append_in_time (hconn : op.conn = t.conn) (hvalid : terminal.Valid) {now : UInt64}
    (hnow : 0 < now)
    (hw : Declared x s keys op start w) (hlogged : Logged x s keys t.conn w)
    {choice : ConnChoice HC} {r : Except Error Unit}
    (hpermits : t.permits w (.append op.conn op.entry (op.outcome x terminal now) : ConnOp HOp)
      choice = true)
    (h : connExec x s keys H w (.append op.conn op.entry (op.outcome x terminal now)) choice =
      some (r, w')) :
    r = .ok () ∨ Answered x s keys op.entry.identity op.requestId w := by
  have hcloses : t.closes (.append op.conn op.entry (op.outcome x terminal now) : ConnOp HOp) =
      true := by
    simp only [Timing.closes, decide_eq_true_eq]
    exact ⟨hconn, rfl⟩
  have hchained := hlogged op.entry (op.intent start) (hconn ▸ hw.told)
  cases choice <;> simp only [connExec, reduceCtorEq] at h
  · -- the worker does not return: not in time
    simp [Timing.permits, hcloses] at hpermits
  · rename_i faults
    simp only [Timing.permits, hcloses, Bool.not_true, Bool.false_or, Bool.and_eq_true,
      all_eq_true, decide_eq_true_eq] at hpermits
    have haccepts : ∀ {files} {r : Except Audit.Error Audit.AuditCheckpoint},
        Prog.follow Audit.auditSystem faults
          (Audit.append x.toCrypto s (ledgerOf keys op.entry.identity)
          (op.outcome x terminal now) ()) (w.files op.entry.identity) = some (.ret (r, ()), files) →
        (∃ checkpoint, r = .ok checkpoint) ∨
          outcomesFor op.requestId (journal s (w.files op.entry.identity)) ≠ [] := by
      intro files r hfollow
      have hbinds : Audit.Binds (op.intent start) (op.outcome x terminal now) := ⟨rfl, rfl, rfl⟩
      have hadmitted : Admitted (ledgerOf keys op.entry.identity) (op.outcome x terminal now) :=
        GrantAuditOperation.admitted_outcome
          (Audit.admitted_of_chained hchained hw.carries.mem) hvalid hnow
      have hid : (op.outcome x terminal now).requestId = (op.intent start).requestId := rfl
      have houtcome : (op.outcome x terminal now).phase = .outcome := rfl
      exact Audit.append_outcome hs hsize hchained hw.carries.mem rfl houtcome hid hbinds hadmitted
        hpermits.2 hpermits.1 hfollow
    unfold appendExec at h
    split at h
    · cases h
      exact .inl rfl
    · rename_i err _ files hfollow
      rcases haccepts hfollow with ⟨checkpoint, hok⟩ | houtcomes
      · cases hok
      · exact .inr (answered_of_outcomesFor hw.carries.intact houtcomes)
    · cases h

variable (hconn : op.conn = t.conn) (hdeadline : t.limit ≤ op.deadline)

include hconn hdeadline

/-- **The append of the outcome** in time: the request has an outcome afterwards, whether or not
    the append was the one to record it. -/
theorem meets_append (hvalid : terminal.Valid)
    {now : UInt64} (hnow : 0 < now) (hw : Declared x s keys op start w)
    (hQ : ∀ w', Declared x s keys op start w' →
      Answered x s keys op.entry.identity op.requestId w' → Q () w')
    (hE : ∀ err w', Declared x s keys op start w' →
      Answered x s keys op.entry.identity op.requestId w' → E err w') :
    Meets x s keys H t op.conn (op.append (op.outcome x terminal now)) Q E K n w := by
  unfold GrantAuditOperation.append
  apply meets_instantNow hs stable_declared hw
  intro reading w1 hreading hw1
  apply wp_requiring
  · intro _
    apply wp_timing
    apply (wp_call (ConnOp.append op.conn op.entry (op.outcome x terminal now) : ConnOp HOp)).mpr
    intro w2 hrely hinv
    have hw2 := stable_declared w1 w2 hrely.1 hrely.2.1 hrely.2.2 hw1
    refine ⟨trivial, fun choice r w3 h => ?_, fun timer _ choice w3 h => ?_⟩
    · obtain ⟨hpermits, hexec⟩ := limit_exec.mp h
      have hanswers := append_in_time hs hsize hconn hvalid hnow hw2 hinv.2 hpermits hexec
      have hF : Lasting x s keys op.conn fun w : World HW =>
          (op.entry.index < w.entries ∧
            Carries x s keys op.entry.identity (op.intent start) w) ∧
          Evolves x s keys w2 w :=
        (lasting_entry.and lasting_carries).and fun _ _ hevolves _ h => h.trans hevolves
      obtain ⟨hinv3, hguar, ⟨⟨hentry, hcarries⟩, hevolves⟩, hcase⟩ := append_step hs hF
        (by intro hphase; cases hphase) hinv.1 ⟨⟨hw2.entry, hw2.carries⟩, Evolves.refl w2⟩ rfl
        hexec
      -- the history has grown
      have htold : .appended op.entry (op.intent start) ∈ trace w3.history op.conn := by
        rcases hcase with ⟨-, -, htrace⟩ | ⟨-, htrace⟩ <;> rw [htrace] <;>
          exact mem_append_left _ hw2.told
      have hw3 : Declared x s keys op start w3 := ⟨hentry, htold, hcarries⟩
      have hanswered : Answered x s keys op.entry.identity op.requestId w3 := by
        rcases hcase with ⟨-, houtcome, -⟩ | ⟨⟨err, herr⟩, -⟩
        · exact ⟨_, rfl, rfl, houtcome⟩
        · rcases hanswers with hok | hanswered
          · rw [hok] at herr
            cases herr
          · exact hanswered.evolves hevolves
      refine ⟨⟨hinv3, logged_exec hinv.2 hs hexec⟩, hguar, ?_⟩
      apply (wp_orElseFail id _).mpr
      exact ⟨fun _ _ => hQ w3 hw3 hanswered, fun err _ => hE err w3 hw3 hanswered⟩
    · -- the append cannot be cut short
      have hdroppable := (AsyncSystem.limit_drop.mp h).1
      simp only [Timing.closes, hconn, Bool.not_eq_true', decide_eq_false_iff_not,
        true_and] at hdroppable
      exact absurd rfl hdroppable
  · exact fun hlate => absurd (Nat.lt_of_lt_of_le hreading hdeadline) hlate

/-! ## Recording the outcome -/

section

variable (hQ : ∀ w', Awaits x s keys op start w' →
    Answered x s keys op.entry.identity op.requestId w' → Q () w')
  (hE : ∀ err w', Awaits x s keys op start w' →
    Answered x s keys op.entry.identity op.requestId w' → E err w')

include hQ hE

theorem meets_persistOutcome (hvalid : terminal.Valid) (hw : Declared x s keys op start w) :
    Meets x s keys H t op.conn (op.persistOutcome x terminal) Q E K n w := by
  have hJ : Stable x s keys op.conn fun w : World HW =>
      Declared x s keys op start w ∧ Answered x s keys op.entry.identity op.requestId w :=
    stable_declared.and lasting_answered.stable
  unfold GrantAuditOperation.persistOutcome
  apply meets_unixNow hs stable_declared hw
  intro now w1 hnow hw1
  apply wp_attempting
  apply meets_append hs hsize hconn hdeadline hvalid hnow hw1
  · intro w2 hw2 hanswered
    apply Runs.meets hs
    apply runs_auditStore hJ ⟨hw2, hanswered⟩
    rintro w3 ⟨hw3, hanswered3⟩
    refine hQ _ (hw3.setAudit.awaits hanswered3.setAudit ?_) hanswered3.setAudit
    simp
  · -- somebody else was faster, so the state says that the record has failed
    intro err w2 hw2 hanswered
    have hJ3 : Stable x s keys op.conn fun w : World HW =>
        (Declared x s keys op start w ∧ Answered x s keys op.entry.identity op.requestId w) ∧
          w.audit op.conn = .failed :=
      hJ.and (lasting_audit (P := (· = .failed))).stable
    apply Runs.meets hs
    apply wp_seq
    apply runs_auditStore hJ ⟨hw2, hanswered⟩
    rintro w3 ⟨hw3, hanswered3⟩
    apply wp_seq
    apply runs_quarantinedStore hJ3 ⟨⟨hw3.setAudit, hanswered3.setAudit⟩,
      Function.update_self _ _ _⟩ fun w' hw' => hw'.1.1.entry
    rintro w4 ⟨⟨hw4, hanswered4⟩, hfailed⟩
    have hevolves : Evolves x s keys w4 { w4 with
        quarantined := Function.update w4.quarantined op.entry.index true } := evolves_quarantine
    have hanswered5 := hanswered4.evolves hevolves
    refine hE _ _ (Declared.awaits (stable_declared _ _ hevolves rfl rfl hw4) hanswered5 ?_)
      hanswered5
    show w4.audit op.conn ≠ .finalizing
    simp [hfailed]

/-- **In time the outcome is recorded**, by whoever comes first. -/
theorem meets_recordOutcome (hvalid : terminal.Valid) (hw : Awaits x s keys op start w) :
    Meets x s keys H t op.conn (op.recordOutcome x terminal) Q E K n w := by
  unfold GrantAuditOperation.recordOutcome
  apply wp_seq
  -- the exchange itself can be made at any time
  apply Runs.meets hs
  apply runs_auditCompareExchange stable_awaits hw
  · intro w1 hw1 _
    exact meets_persistOutcome hs hsize hconn hdeadline hQ hE hvalid hw1.declared.setAudit
  · intro w1 hw1 hne
    have hanswered := hw1.answered hne
    cases hstate : w1.audit op.conn with
    | pending => exact absurd hstate hne
    | finalizing => exact absurd hstate hw1.waits
    | complete => exact hQ w1 hw1 hanswered
    | failed => exact hE _ w1 hw1 hanswered

theorem meets_finalizeUnknownIfPending (hw : Awaits x s keys op start w) :
    Meets x s keys H t op.conn (op.finalizeUnknownIfPending x) Q E K n w := by
  unfold GrantAuditOperation.finalizeUnknownIfPending
  apply meets_calm hs (by trivial) stable_awaits hw
  · intro timer _ w1 choice w2 h
    cases choice <;> cases h
  intro w1 choice state w2 _ _ hexec _ hw2
  obtain ⟨rfl, rfl⟩ := plainly_eq_some hexec
  have hvalid : AuditTerminal.Valid ⟨.unknown, "dispatch.no_terminal_result", []⟩ :=
    ⟨by simp, validateToken_reason _ (by simp)⟩
  cases hstate : w2.audit op.conn with
  | pending => exact meets_recordOutcome hs hsize hconn hdeadline hQ hE hvalid hw2
  | complete => exact hQ w2 hw2 (hw2.answered (by simp [hstate]))
  | failed => exact hE _ w2 hw2 (hw2.answered (by simp [hstate]))
  | finalizing => exact absurd hstate hw2.waits

end

/-! ## Handlers in time -/

/-- **A handler** leaves its request waiting or with an outcome, also when its authorization
    ends. -/
theorem meets_dispatchRootRequest {deadline : Nat}
    {entry : ProfilePoolEntry} {frame : Frame} {handlers : HandlerContext → Frame → Handler HAns}
    (hw : Awaits x s keys op start w) :
    Meets x s keys H t op.conn (dispatchRootRequest x handlers ⟨entry, some op, deadline⟩ frame)
      (fun _ => Awaits x s keys op start) (fun _ => Awaits x s keys op start) K 0 w := by
  refine wp_dispatchRootRequest (fun htask hw => (runs_of_calm htask stable_awaits hw).meets hs)
    ?_ ?_ hw
  · intro terminal frame n w hframe hw
    have hvalid := GrantAuditOperation.valid_terminalForFrame hframe
    refine meets_recordOutcome hs hsize hconn hdeadline ?_ ?_ hvalid hw
    · exact fun w' hw' _ => hw'
    · exact fun err w' hw' _ => hw'
  · exact fun hf hw => meets_skip hs (by trivial) stable_awaits hw no_timer fun _ => hf

end Outcome

/-! ## From the intent to the outcome -/

section GrantRequests

variable {op : GrantAuditOperation} {start : UInt64} {record : GrantRecord}
  {prelude : V6RequestPrelude} {frame : Frame} {handlers : HandlerContext → Frame → Handler HAns}
  {fuel : Nat} {grantId : Bytes 16}

/-- A request without an outcome so far waits for one. -/
theorem awaits_of_recorded (h : Recorded x s keys op record (op.intent start) w)
    (htold : .appended op.entry (op.intent start) ∈ trace w.history op.conn) :
    Awaits x s keys op start w :=
  ⟨⟨h.entry, htold, h.carries⟩, by simp [h.pending], fun hne => absurd h.pending hne⟩

include hs hsize

/-- In time, whatever closes a request concludes it. -/
theorem closes_concluded (hconn : op.conn = t.conn) (hdeadline : t.limit ≤ op.deadline) :
    Closes (timelySystem x s keys H t) (timelyTerms x s keys t op.conn) x s keys H handlers op
      record prelude frame (Awaits x s keys op) (Concluded x s keys op.conn) where
  lift h := h.meets hs
  stable := stable_concluded
  unconfirmed start w _ hunconfirmed := by
    refine .inl fun entry e hmem => ?_
    rcases hunconfirmed with htrace | htrace <;> simp [htrace] at hmem
  denied start code w K hcode hw htrace := by
    have hreason := validateToken_reason code (by
      rcases mem_pair.mp hcode with rfl | rfl <;> simp)
    refine meets_recordOutcome hs hsize hconn hdeadline ?_ ?_ ⟨by simp, hreason⟩
      (awaits_of_recorded hw (by simp [htrace]))
    · exact fun w' hw' hanswered => hw'.declared.concluded hanswered
    · exact fun err w' hw' hanswered => hw'.declared.concluded hanswered
  waits start w hw htrace := awaits_of_recorded hw (by simp [htrace])
  handled start w K hw := meets_dispatchRootRequest hs hsize hconn hdeadline hw
  finalized start w K hw := by
    refine meets_finalizeUnknownIfPending hs hsize hconn hdeadline ?_ ?_ hw
    · exact fun w' hw' hanswered => hw'.declared.concluded hanswered
    · exact fun err w' hw' hanswered => hw'.declared.concluded hanswered

end GrantRequests

/-! ## A connection in time -/

section Connection

variable {record : GrantRecord} {prelude : V6RequestPrelude} {frame : Frame}
  {handlers : HandlerContext → Frame → Handler HAns} {fuel : Nat}

theorem concluded_of_untold (h : trace w.history conn = []) : Concluded x s keys conn w :=
  .inl fun entry e hmem => by simp [h] at hmem

theorem ends_of_untold (hs : s.Lawful) {task : ConnTask HAns Unit}
    (h : Serves x s keys H conn task (fun w' => trace w'.history conn = []) w) :
    Ends x s keys H t conn task (Concluded x s keys conn) w :=
  (h.meets hs).mono (fun _ _ => concluded_of_untold) (fun _ _ => concluded_of_untold)
    fun _ _ => concluded_of_untold

theorem ends_of_calm_untold (hs : s.Lawful) {task : ConnTask HAns Unit} (htask : Only IsCalm task)
    (hw : trace w.history conn = []) :
    Ends x s keys H t conn task (Concluded x s keys conn) w :=
  ends_of_untold hs (serves_of_calm htask stable_untold hw fun _ h => h)

include hs hsize

/-- **A request that its grant accepts** is concluded. -/
theorem ends_serveGrantRequest {grantId : Bytes 16}
    (hauthorized : Authorized x ⟨record, prelude, frame⟩) (hissued : record ∈ w.issued)
    (hentry : record.entry.index < w.entries) (hw : trace w.history t.conn = []) :
    Ends x s keys H t t.conn
      (serveGrantRequest x handlers fuel t.conn grantId record prelude frame)
      (Concluded x s keys t.conn) w := by
  unfold serveGrantRequest
  refine wp_requiring ?_ fun _ => concluded_of_untold hw
  intro _
  refine wp_checking ?_ fun _ _ => concluded_of_untold hw
  intro _ _
  apply meets_instantNow hs stable_issued ⟨⟨hissued, hentry⟩, hw⟩
  intro now w1 _ hw1
  apply meets_unixNow hs stable_issued hw1
  intro wallNow w2 _ hw2
  refine wp_checking ?_ fun _ _ => concluded_of_untold hw2.2
  intro deadline _
  have haudits : Audits (.new x t.conn record prelude deadline) record prelude := ⟨rfl, rfl⟩
  apply meets_auditNew hs rfl stable_issued hw2
  rintro w3 hlimit ⟨⟨hissued3, hentry3⟩, htrace3⟩
  exact (closes_concluded hs hsize rfl hlimit).auditing hs haudits hauthorized hissued3 hentry3
    (Function.update_self _ _ _) htrace3

/-- **A request under a grant.** -/
theorem ends_handleGrantRequest {grantId : Bytes 16}
    (hroot : rootOkForRecv x prelude frame = true) (hw : trace w.history t.conn = []) :
    Ends x s keys H t t.conn (handleGrantRequest x handlers fuel t.conn grantId prelude frame)
      (Concluded x s keys t.conn) w := by
  unfold handleGrantRequest
  apply meets_instantNow hs stable_untold hw
  intro now w1 _ hw1
  apply meets_calm hs (by trivial) stable_untold hw1
  · exact no_timer
  intro w2 choice found w3 hinv _ h hcalm hw3
  obtain ⟨hfound, -⟩ := plainly_eq_some h
  have hinv3 := hinv.calm hcalm
  cases found with
  | live record =>
    have hlive := GrantRegistryState.mem_live_lookup hfound.symm
    have hissued : record ∈ w3.issued := by
      rw [hcalm.issued]
      exact hinv.live _ hlive
    have hentry : record.entry.index < w3.entries := hinv3.bound record hissued
    apply meets_instantNow hs stable_issued ⟨⟨hissued, hentry⟩, hw3⟩
    intro checkNow w4 _ hw4
    apply meets_unixNow hs stable_issued hw4
    intro nowMs w5 _ hw5
    split
    · apply ends_of_calm_untold hs _ hw5.2
      apply Only.bind (Only.onlyIf only_ask)
      intro _
      exact Only.bind only_ask fun _ => (only_respondError IsStill.calm)
    · apply ends_of_calm_untold hs _ hw5.2
      exact Only.bind only_ask fun _ => (only_respondError IsStill.calm)
    · rename_i hvalid _
      have hauthorized := authorized_of_valid hroot hvalid
      exact ends_serveGrantRequest hs hsize hauthorized hw5.1.1 hw5.1.2 hw5.2
  | exhausted => exact ends_of_calm_untold hs (only_respond IsStill.calm) hw3
  | expired => exact ends_of_calm_untold hs (only_respond IsStill.calm) hw3
  | unknown => exact ends_of_calm_untold hs (only_respond IsStill.calm) hw3

theorem ends_handleFrame (hroot : rootOkForRecv x prelude frame = true)
    (hw : trace w.history t.conn = []) :
    Ends x s keys H t t.conn (handleFrame x handlers fuel t.conn prelude frame)
      (Concluded x s keys t.conn) w := by
  unfold handleFrame
  split
  · exact ends_of_untold hs (serves_unlock hs hw)
  · exact ends_of_calm_untold hs (only_listProfiles IsStill.calm) hw
  · exact ends_of_untold hs (serves_issueGrant hw)
  · exact ends_of_calm_untold hs (only_handleShutdown IsStill.calm) hw
  · split
    · exact ends_handleGrantRequest hs hsize hroot hw
    · exact ends_of_calm_untold hs calm_handleProfileRequest hw

/-- **A connection** in time concludes its request. -/
theorem ends_handleGlobalConn (hw : trace w.history t.conn = []) :
    Ends x s keys H t t.conn (handleGlobalConn x handlers fuel t.conn prelude)
      (Concluded x s keys t.conn) w := by
  unfold handleGlobalConn
  apply wp_seq
  apply Runs.meets hs
  apply (runs_readAuthenticatedRequest hw fun err w' hw' => concluded_of_untold hw').mono
  · rintro frame w1 ⟨hw1, hroot⟩
    cases frame with
    | none => exact concluded_of_untold hw1
    | some frame => exact ends_handleFrame hs hsize (hroot frame rfl) hw1
  · exact fun err w' h => h
  · exact fun timer w' h => h

end Connection

/-! ## The daemon -/

section Daemon

variable (x : Platform) (handlers : HandlerContext → Frame → Handler HAns) (s : Serde)
  (keys : ProfileIdentity → Bytes 32) (H : AsyncSystem HW HOp HAns HC)

/-- The daemon in the runs whose steps are in time. -/
def timelyPool (t : Timing) (fuel : Nat) :
    DaemonPool HW HAns HC :=
  { daemonPool x handlers s keys H fuel with sys := (timelySystem x s keys H t).inTimers }

variable {x handlers s keys H} {fuel : Nat}

/-- **A request in time** is concluded, among any other connections. -/
theorem timelyPool_sound (hs : s.Lawful)
    (hsize : ∀ r : AuditRecord, r.Plain → (s.record r).length ≤ Audit.maxAuditRecordBytes) :
    (timelyPool x handlers s keys H t fuel).Sound
      (fun w => Inv x s w ∧ Logged x s keys t.conn w)
      (fun conn => (timelyTerms x s keys t conn).inTimers)
      (fun conn _ w => conn = t.conn → Concluded x s keys conn w) where
  inv_iff _ _ := Iff.rfl
  stable _ _ w w' hrely hw hconn :=
    stable_concluded w w' hrely.1 hrely.2.1 hrely.2.2 (hw hconn)
  apart _ j _ _ hne hguar := ⟨hguar.1, (hguar.2 j (Ne.symm hne)).1, (hguar.2 j (Ne.symm hne)).2⟩
  env w choice w' h hw := by
    cases choice with
    | go c =>
      obtain ⟨hinv, hrely⟩ := connEnv_keeps hs h hw.1
      exact ⟨⟨hinv, logged_env hw.2 hs h⟩, hrely⟩
    | fire timer c => cases h
  crash w choice w' h hw := by
    cases choice with
    | go c => exact ⟨connCrash_keeps h hw.1, logged_crash hw.2 h⟩
    | fire timer c => cases h
  launch conn prelude w p h _ := by
    simp only [timelyPool, daemonPool] at h
    split at h
    · rename_i hlaunch
      cases h
      apply Safe.bind_iff.mpr
      by_cases hown : conn = t.conn
      · subst hown
        have hends : Ends x s keys H t t.conn
            (handleGlobalConn x handlers fuel t.conn prelude) (Concluded x s keys t.conn) w :=
          ends_handleGlobalConn hs hsize hlaunch.2
        apply Safe.mono _ hends
        intro r w' hr _
        cases r <;> exact hr
      · -- nothing is asked of the others
        have hserves : Serves x s keys H conn (handleGlobalConn x handlers fuel conn prelude)
            (Accounted x s keys conn prelude) w := serves_handleGlobalConn hs hlaunch.2
        apply Safe.mono _ (safe_timely hs hserves)
        exact fun r w' _ hconn => absurd hconn hown
    · cases h

/-- Up to the start of the connection, the daemon may have run at any time. -/
theorem good_of_start (hs : s.Lawful) {w0 : World HW} (hfresh : Fresh w0)
    {ms : DaemonMoves HC}
    {cfg : DaemonConfig HW HAns}
    (hrun : (daemonPool x handlers s keys H fuel).run (Pool.idle w0) ms = some cfg)
    (hnone : cfg.threads t.conn = none) (htrace : trace cfg.world.history t.conn = []) :
    Pool.Good (timelyPool x handlers s keys H t fuel)
      (fun w => Inv x s w ∧ Logged x s keys t.conn w)
      (fun conn => (timelyTerms x s keys t conn).inTimers)
      (fun conn _ w => conn = t.conn → Concluded x s keys conn w) cfg := by
  have hgood := good_of_run hs hfresh hrun
  refine ⟨⟨hgood.1, fun entry e hmem => by simp [htrace] at hmem⟩, fun conn p hp => ?_⟩
  have hother : conn ≠ t.conn := by
    rintro rfl
    rw [hnone] at hp
    cases hp
  apply Safe.mono _ (safe_timely hs (hgood.2 conn p hp))
  exact fun r w' _ hconn => absurd hconn hother

/-- A connection has at most one intent. -/
theorem intent_unique {w : World HW} (hw : Inv x s w) {conn : Nat}
    {entry entry' : ProfilePoolEntry} {e e' : AuditEvent}
    (h : .appended entry e ∈ trace w.history conn) (hphase : e.phase = .intent)
    (h' : .appended entry' e' ∈ trace w.history conn) (hphase' : e'.phase = .intent) :
    entry.identity = entry'.identity ∧ e.requestId = e'.requestId := by
  have hmem : (conn, entry.identity, e.requestId) ∈ intents w.history :=
    mem_intents.mpr ⟨entry, e, h, hphase, rfl, rfl⟩
  have hmem' : (conn, entry'.identity, e'.requestId) ∈ intents w.history :=
    mem_intents.mpr ⟨entry', e', h', hphase', rfl, rfl⟩
  have heq := inj_on_of_nodup_map hw.counts.intentConns hmem hmem' rfl
  simpa using heq

/-- **Outcomes in time.**  Let a request run while the clock stays before the deadline that the
    daemon has computed for it, and let the append of its outcome find room, meet no fault and not
    be cut short.  If its intent was confirmed, then the ledger holds an outcome of it when the
    connection returns, and the intent is not pending. -/
theorem outcome_recorded_in_time (hs : s.Lawful)
    (hsize : ∀ r : AuditRecord, r.Plain → (s.record r).length ≤ Audit.maxAuditRecordBytes)
    {w₀ : World HW} (hfresh : Fresh w₀)
    {ms₁ ms₂ : DaemonMoves HC}
    {cfg₁ cfg₂ : DaemonConfig HW HAns}
    (hbefore : (daemonPool x handlers s keys H fuel).run (Pool.idle w₀) ms₁ = some cfg₁)
    (hnone : cfg₁.threads t.conn = none) (huntold : trace cfg₁.world.history t.conn = [])
    (hrun : (timelyPool x handlers s keys H t fuel).run cfg₁ ms₂ = some cfg₂)
    {reply : ConnReply} (hreturned : cfg₂.threads t.conn = some (.ret reply))
    {entry : ProfilePoolEntry} {e : AuditEvent}
    (hintent : .appended entry e ∈ trace cfg₂.world.history t.conn) (hphase : e.phase = .intent) :
    outcomesFor e.requestId (journal s (cfg₂.world.files entry.identity)) ≠ [] ∧
      ∀ binding, (e.requestId, binding) ∉
        Audit.pendingOf (journal s (cfg₂.world.files entry.identity)) := by
  have hgood := (timelyPool_sound hs hsize).run_good hrun
    (good_of_start hs hfresh hbefore hnone huntold)
  have houtcomes : outcomesFor e.requestId (journal s (cfg₂.world.files entry.identity)) ≠ [] := by
    rcases hgood.post_of_ret hreturned rfl with hnever | hconcluded
    · exact absurd hintent (hnever entry e)
    · obtain ⟨entry', e', hintent', hphase', outcome, houtcome, hid, hcarries⟩ := hconcluded
      obtain ⟨hidentity, hrequest⟩ := intent_unique hgood.1.1 hintent hphase hintent' hphase'
      rw [hidentity, hrequest]
      apply ne_nil_of_mem (a := outcome)
      simp only [outcomesFor, mem_filter, decide_eq_true_eq]
      exact ⟨hcarries.mem, houtcome, hid⟩
  refine ⟨houtcomes, fun binding hpending => ?_⟩
  obtain ⟨intent, -, hnone, -⟩ := Audit.mem_pendingOf.mp hpending
  exact houtcomes hnone

end Daemon

/-- The request has all the time until its deadline. -/
def edgeTiming : Timing := ⟨2, 10000⟩

theorem quiet_timely : Quiet x s edgeKeys noHandlers
    (timelySystem x s edgeKeys noHandlers edgeTiming) [3000, 4000]
    [1700000003000, 1700000004000] where
  read hroot := limit_exec.mpr
    ⟨rfl, (quiet_connSystem : Quiet x s edgeKeys noHandlers _ [] []).read hroot⟩
  instantNow h := by
    refine limit_exec.mpr ⟨?_, rfl⟩
    simp only [mem_cons, not_mem_nil, or_false] at h
    rcases h with rfl | rfl <;> rfl
  unixNow h := by
    refine limit_exec.mpr ⟨?_, rfl⟩
    simp only [mem_cons, not_mem_nil, or_false] at h
    simp only [Timing.permits]
    rcases h with rfl | rfl <;> rfl
  plain {w op a w'} hop h := by
    refine limit_exec.mpr ⟨?_, h⟩
    cases op with
    | auditNew operation => exact hop.elim
    | _ => rfl
  spend h := limit_exec.mpr ⟨rfl, h⟩

/-- The request that cannot reach the server has its outcome in time. -/
theorem edge_outcome_recorded_in_time : ∃ ms₁ ms₂ cfg₁ cfg₂,
    (edgePool refusing).run (Pool.idle edgeStart) ms₁ = some cfg₁ ∧
    (timelyPool edgePlatform refusing jsonSerde edgeKeys noHandlers edgeTiming 1).run cfg₁ ms₂ =
      some cfg₂ ∧
    cfg₂.threads 2 = some (.ret (edgeExecPrelude, .failed edgeRefused)) ∧
    outcomesFor edgeExecPrelude.requestId
      (journal jsonSerde (cfg₂.world.files edgeIdentity)) ≠ [] := by
  obtain ⟨ms, threads, files0, hrun, hidle, hledger⟩ := edge_ready_run refusing
  obtain ⟨m1, m2, files1, files2, hintent, houtcome, -, hshort⟩ := edge_records hledger
  have hnew : (timelySystem edgePlatform jsonSerde edgeKeys noHandlers edgeTiming).exec
      (edgeReady files0) (.auditNew (edgeOperation 2)) .plain = some ((), edgeAudited files0) :=
    limit_exec.mpr ⟨rfl, rfl⟩
  have hintended : (timelySystem edgePlatform jsonSerde edgeKeys noHandlers edgeTiming).exec
      (edgeAudited files0) (.append 2 edgeEntry (edgeIntent 2)) (.faults (replicate m1 .none)) =
        some (.ok (), edgeIntended files0 files1) := limit_exec.mpr ⟨rfl, hintent⟩
  have hclosed : (timelySystem edgePlatform jsonSerde edgeKeys noHandlers edgeTiming).exec
      (edgeFinalizing files0 files1) (.append 2 edgeEntry (edgeOutcome 2))
      (.faults (replicate m2 .none)) = some (.ok (), edgeAnswered files0 files1 files2) := by
    refine limit_exec.mpr ⟨?_, houtcome⟩
    have hroom : Audit.hasRoom files1 = true := by
      apply decide_eq_true
      simp only [Audit.maxAuditRecordBytes, Audit.maxAuditLogBytes] at hshort ⊢
      omega
    have hfiles : (edgeFinalizing files0 files1).files edgeEntry.identity = files1 :=
      files_edgeFinalizing files0 files1
    simp only [Timing.permits, hfiles, hroom, Bool.and_true]
    simp
  have hrefuses := edge_refuses quiet_timely hnew hintended hclosed
  have hlaunch : (timelyPool edgePlatform refusing jsonSerde edgeKeys noHandlers edgeTiming
      1).launch 2 edgeExecPrelude (edgeReady files0) =
        some (connProgram edgePlatform refusing 1 2 edgeExecPrelude) := by
    show (edgePool refusing).launch 2 edgeExecPrelude (edgeReady files0) = _
    exact launch_eq edge_preludes_valid.2.2 rfl
  obtain ⟨ms₂, hrun2⟩ := run_ending (P := timelyPool edgePlatform refusing jsonSerde edgeKeys
    noHandlers edgeTiming 1) rfl hlaunch (hidle 2 (by decide)) hrefuses
  have hreturned : Function.update threads 2 (some (.ret (edgeExecPrelude, .failed edgeRefused)))
      2 =
      some (.ret (edgeExecPrelude, .failed edgeRefused)) := by simp
  refine ⟨ms, ms₂, _, _, hrun, hrun2, hreturned, ?_⟩
  have hmem : Event.appended edgeEntry (edgeIntent 2) ∈
      trace (edgeAnswered files0 files1 files2).history 2 :=
    mem_cons_of_mem _ mem_cons_self
  exact (outcome_recorded_in_time (t := edgeTiming) jsonSerde_lawful
    (fun _ hplain => Audit.length_record_le hplain) edgeStart_fresh hrun (hidle 2 (by decide)) rfl
    hrun2 hreturned hmem rfl).1

/-! ## A request that runs into its deadline -/

/-- Output for a client that does not read it. -/
def stalling : HandlerContext → Frame → Handler (fun _ : Empty => Unit) :=
  fun _ _ => do
    let written ← Task.call (.writeFrameUntil (.execOut [104, 105]) 12000)
    orElseFail id written

/-- What the connection reports of a request whose outcome came too late. -/
def edgeExpired : Error :=
  Failure.context (.msg "authoritative audit persistence deadline expired")
    "persist authoritative grant outcome"

/-- The world when the outcome came too late. -/
def edgeUnanswered (files₀ files₁ : Files) : World Unit :=
  { edgeDispatched files₀ files₁ with
    audit := Function.update (edgeDispatched files₀ files₁).audit 2 .failed
    quarantined := Function.update (edgeDispatched files₀ files₁).quarantined 0 true }

/-- The authorization ends while the output is written. -/
theorem edge_stalls {w : World Unit} : CanEnd (connSystem x s edgeKeys noHandlers)
      (dispatchRootRequest x stalling ⟨edgeEntry, some (edgeOperation 2), 10000⟩ edgeExec) 0 w
      (.failed (.msg "profile authorization lease expired")) w := by
  have hwrite : CanEnd (connSystem x s edgeKeys noHandlers)
      (attempt (writeFrameUntil x (some (edgeOperation 2)) (.execOut [104, 105]) 12000) :
        Task Empty _ _ _) 1 w (.cut 0) w := by
    have hframe : CanEnd (connSystem x s edgeKeys noHandlers)
        (terminalFrame x (some (edgeOperation 2)) (.execOut [104, 105]) :
          ConnTask (fun _ : Empty => Unit) _) 1 w (.done (.execOut [104, 105])) w := ⟨[], rfl⟩
    have hdropped : CanEnd (connSystem x s edgeKeys noHandlers)
        (ask (.writeFrame (.execOut [104, 105])) : ConnTask (fun _ : Empty => Unit) _) 2 w (.cut 0)
        w := CanEnd.drop (c := .plain) (by decide) rfl
    apply CanEnd.attempt_cut
    apply hframe.bind
    apply (canEnd_instantNow 9000).bind
    apply CanEnd.bind (CanEnd.require (by decide))
    exact (hdropped.timed_outer (by decide)).bind_cut
  have hrun : CanEnd (connSystem x s edgeKeys noHandlers) (runHandler x (some (edgeOperation 2))
      (stalling ⟨edgeEntry, some (edgeOperation 2), 10000⟩ edgeExec)) 1 w (.cut 0) w := by
    obtain ⟨cs, hcs⟩ := hwrite
    have hanswer : (handlerCall x (some (edgeOperation 2))
        (.writeFrameUntil (.execOut [104, 105]) 12000, 1)).follow
          (connSystem x s edgeKeys noHandlers).inTimers (cs ++ []) w = some (.ret (.error 0), w) :=
      Prog.follow_bind _ hcs
    exact ⟨cs ++ [] ++ [], Prog.follow_bind _ hanswer⟩
  have hinvalidated : CanEnd (connSystem x s edgeKeys noHandlers)
      (ask (.invalidateSessions edgeEntry) : ConnTask (fun _ : Empty => Unit) _) 0 w (.done ()) w :=
    canEnd_ask (c := .plain) rfl
  apply (hrun.timed_own (by decide)).bind
  exact hinvalidated.bind (CanEnd.fail _)

/-- A request runs into its deadline.  No operation on the files of the ledger fails, its intent is
    confirmed, and when the connection returns the intent has no outcome. -/
theorem expired_request_left_pending : ∃ ms cfg,
    (edgePool stalling).run (Pool.idle edgeStart) ms = some cfg ∧
    cfg.threads 2 = some (.ret (edgeExecPrelude, .failed edgeExpired)) ∧
    trace cfg.world.history 2 = [.attempted edgeEntry (edgeIntent 2),
      .appended edgeEntry (edgeIntent 2), .spent 0,
      .dispatched ⟨edgeRecord, edgeExecPrelude, edgeExec⟩] ∧
    edgeIntent 2 ∈ journal jsonSerde (cfg.world.files edgeIdentity) ∧
    outcomesFor edgeExecPrelude.requestId
      (journal jsonSerde (cfg.world.files edgeIdentity)) = [] := by
  obtain ⟨ms, threads, files0, hrun, hidle, hledger⟩ := edge_ready_run stalling
  obtain ⟨m1, -, files1, -, hintent, -, hjournal, -⟩ := edge_records hledger
  have hfinal : CanEnd (connSystem edgePlatform jsonSerde edgeKeys noHandlers)
      ((edgeOperation 2).finalizeUnknownIfPending edgePlatform :
        ConnTask (fun _ : Empty => Unit) _) 0 (edgeDispatched files0 files1) (.failed edgeExpired)
      (edgeUnanswered files0 files1) := by
    apply CanEnd.bind (canEnd_ask (c := .plain) rfl)
    -- the deadline of the operation is the deadline of its outcome
    exact canEnd_recordOutcome_late 1700000010000 rfl le_rfl
  have hend := edge_dispatches (S := connSystem edgePlatform jsonSerde edgeKeys noHandlers)
    (c := .faults (replicate m1 .none)) quiet_connSystem rfl hintent edge_stalls
    hfinal.attempt_failed (.inr rfl)
  obtain ⟨ms2, hrun2⟩ := run_connection hrun edge_preludes_valid.2.2 rfl (hidle 2 (by decide)) hend
  have hfiles : (edgeUnanswered files0 files1).files edgeIdentity = files1 :=
    files_edgeFinalizing files0 files1
  refine ⟨ms2, _, hrun2, by simp, rfl, ?_, ?_⟩
  · rw [hfiles, hjournal]
    simp
  · rw [hfiles, hjournal]
    rfl

end Serctl.Daemon
