import Serctl.Audit.Json
import Serctl.Audit.Pairing

/-!
# The outcome of an intent

A ledger that has confirmed an append has a log that verifies and a checkpoint on its chain, and
stays so whatever its users do.  The outcome of an intent that such a ledger carries is then
accepted, if no file operation fails and there is room: unless somebody else was faster, and the
intent has an outcome already.
-/

namespace Serctl.Audit

open Lib Lib.Act Lib.Guard List

/-- The log is there and verifies, and the stored checkpoint is on its chain. -/
def Chained (c : Crypto) (s : Serde) (l : AuditLedger) (w : Files) : Prop :=
  ∃ old v, w.log = some old ∧ verifyLog c s l old = .ok v ∧ OnChain c s l w v

/-- There is room for one more record, however long it is. -/
def hasRoom (w : Files) : Bool :=
  (w.log.getD []).length + (maxAuditRecordBytes + 1) ≤ maxAuditLogBytes

variable {c : Crypto} {s : Serde} {l : AuditLedger} {w w' : Files}

/-! ## A chained ledger stays chained -/

theorem Chained.step (hs : s.Lawful) (hstep : LedgerStep c s l w w') (h : Chained c s l w) :
    Chained c s l w' := by
  obtain ⟨old, v, hlog, hold, checkpoint, hstored, hon⟩ := h
  cases hstep with
  | record old' line v' e hlog' hold' _ hnew =>
    -- the checkpoint is on the chain of the longer log as well
    cases hlog.symm.trans hlog'
    cases hold.symm.trans hold'
    exact ⟨old ++ line, v.advance c s e, rfl, hnew, checkpoint, hstored,
      ensureOnChain_advance hold hon⟩
  | head old' v' hlog' hold' _ =>
    refine ⟨old', v', hlog', hold', makeCheckpoint c s l v'.sequence v'.recordHash, ?_, ?_⟩
    · exact parseCheckpoint_makeCheckpoint hs _ (verifyLog_bounded hold')
    · rw [← headAt_sequence hold']
      exact ensureOnChain_makeCheckpoint le_rfl
  | create hnone =>
    rw [hnone] at hlog
    cases hlog
  | reserve hnone =>
    rw [hnone] at hstored
    cases hstored

theorem Chained.steps (hs : s.Lawful)
    (hsteps : Relation.ReflTransGen (ledgerContract c s l).guar w w') (h : Chained c s l w) :
    Chained c s l w' := by
  induction hsteps with
  | refl => exact h
  | tail _ hstep ih =>
    rcases hstep with rfl | hstep
    · exact ih
    · exact ih.step hs hstep

variable {faults : List Fault}

/-- **Any call**, stopped anywhere, keeps a chained ledger chained. -/
theorem chained_of_serve (hs : s.Lawful) {call : LedgerCall}
    {p : Prog FileOp FileAns (Except Error AuditCheckpoint × Unit)} (h : Chained c s l w)
    (hfollow : Prog.follow auditSystem faults (serve c s l call ()) w = some (p, w')) :
    Chained c s l w' := by
  have hkeeps := keeps_serve (c := c) (l := l) (w := w) hs call
  obtain ⟨-, hsteps, -⟩ := Safe.follow (C := ledgerContract c s l) trivial hkeeps hfollow
  exact h.steps hs hsteps

/-- **A confirmed append** leaves the ledger chained. -/
theorem chained_of_append (hs : s.Lawful) {e : AuditEvent} {checkpoint : AuditCheckpoint}
    (hfollow : Prog.follow auditSystem faults (append c s l e ()) w =
      some (.ret (.ok checkpoint, ()), w')) : Chained c s l w' := by
  have hkeeps := keeps_append (c := c) (l := l) (w := w) (e := e) hs
  obtain ⟨-, -, hret⟩ := Safe.follow (C := ledgerContract c s l) trivial hkeeps hfollow
  have hfollows : Follows c s l w e checkpoint w' := hret
  obtain ⟨old, line, events, -, -, -, -, hhead⟩ := hfollows
  exact ⟨old ++ line, _, hhead.log, hhead.verified, checkpoint, hhead.stored, hhead.onChain⟩

/-! ## The outcome of an intent -/

theorem admitted_of_chained (h : Chained c s l w) {e : AuditEvent} (he : e ∈ journal s w) :
    Admitted l e := by
  obtain ⟨old, v, hlog, hold, -⟩ := h
  obtain ⟨events, hevents, -, hadmitted⟩ := verifyLog_spec hold
  rw [journal_of_log hlog hevents] at he
  exact hadmitted e he

/-- The outcome of an intent may follow, unless there is one. -/
theorem mayFollow_outcome {events : List AuditEvent} (horderly : Orderly c s events)
    {intent outcome : AuditEvent} (hmem : intent ∈ events) (hintent : intent.phase = .intent)
    (houtcome : outcome.phase = .outcome) (hid : outcome.requestId = intent.requestId)
    (hbinds : Binds intent outcome) (hopen : outcomesFor outcome.requestId events = []) :
    MayFollow events outcome := by
  have hfound : intent ∈ intentsFor outcome.requestId events :=
    mem_intentsFor.mpr ⟨hmem, hintent, hid.symm⟩
  have hone := (horderly.tally outcome.requestId).intents
  obtain ⟨only, honly⟩ := length_eq_one_iff.mp
    (Nat.le_antisymm hone (length_pos_of_mem hfound))
  rw [honly, mem_singleton] at hfound
  subst hfound
  rw [MayFollow, houtcome]
  exact ⟨⟨intent, honly, hbinds⟩, hopen⟩

/-- **The outcome of an intent** that a chained ledger carries is accepted, if no file operation
    fails and there is room; or else there is one already. -/
theorem append_outcome (hs : s.Lawful)
    (hsize : ∀ r : AuditRecord, r.Plain → (s.record r).length ≤ maxAuditRecordBytes)
    (h : Chained c s l w) {intent outcome : AuditEvent} (hmem : intent ∈ journal s w)
    (hintent : intent.phase = .intent) (houtcome : outcome.phase = .outcome)
    (hid : outcome.requestId = intent.requestId) (hbinds : Binds intent outcome)
    (hadmitted : Admitted l outcome) (hroom : hasRoom w = true)
    (hfaults : ∀ fault ∈ faults, fault = .none) {r : Except Error AuditCheckpoint}
    (hfollow : Prog.follow auditSystem faults (append c s l outcome ()) w =
      some (.ret (r, ()), w')) :
    (∃ checkpoint, r = .ok checkpoint) ∨ outcomesFor outcome.requestId (journal s w) ≠ [] := by
  by_cases hopen : outcomesFor outcome.requestId (journal s w) = []
  · left
    obtain ⟨old, v, hlog, hold, hchain⟩ := h
    obtain ⟨events, hevents, rfl, -⟩ := verifyLog_spec hold
    have horderly : Orderly c s events := by
      obtain ⟨events', hevents', horderly⟩ := orderly_of_verifyLog hold
      cases hevents.symm.trans hevents'
      exact horderly
    rw [journal_of_log hlog hevents] at hmem hopen
    have hfollows := mayFollow_outcome horderly hmem hintent houtcome hid hbinds hopen
    have hbounded := sequence_lt_of_verifyLog hold
    have hrecord := hsize _ (plain_nextRecord (c := c) (s := s) (v := verifiedOf c s events)
      hadmitted hbounded)
    simp only [hasRoom, hlog, Option.getD_some, decide_eq_true_eq] at hroom
    obtain ⟨checkpoint, w'', -, hrun, -⟩ := steady_append hs hlog hold hchain
      ⟨hadmitted, (ensurePhase_eq_ok horderly).mpr hfollows, hbounded, hrecord, by omega⟩
    -- without faults there is only one way for the append to go
    obtain ⟨heq, -⟩ := Prog.ret_of_follow_steadily auditSystem hrun hfollow hfaults
    exact ⟨checkpoint, congrArg Prod.fst heq⟩
  · exact .inr hopen

end Serctl.Audit
