import Serctl.Audit.LedgerSteps

/-!
# The ledger as a journal

What a caller of the ledger can know about a request without looking at files, hashes or
checkpoints: the log carries a list of events that only grows, in which every request has at most
one intent and at most one outcome, and an append puts its event at the end.
-/

namespace Serctl.Audit

open Lib Lib.Guard List
open VerifiedLog (advance track)

/-! ## Events that may follow one another -/

section Events

variable (c : Crypto) (s : Serde)

/-- Each event may follow the ones before it. -/
inductive Orderly : List AuditEvent → Prop where
  | nil : Orderly []
  | concat {events : List AuditEvent} {e : AuditEvent} {m : String} (h : Orderly events)
      (hphase : (verifiedOf c s events).ensurePhase e m = .ok ()) : Orderly (events ++ [e])

end Events

/-- The intents of a request. -/
def intentsFor (id : Bytes 16) (events : List AuditEvent) : List AuditEvent :=
  events.filter fun e => e.phase = .intent ∧ e.requestId = id

/-- The outcomes of a request. -/
def outcomesFor (id : Bytes 16) (events : List AuditEvent) : List AuditEvent :=
  events.filter fun e => e.phase = .outcome ∧ e.requestId = id

variable {c : Crypto} {s : Serde} {l : AuditLedger} {id : Bytes 16} {events : List AuditEvent}
  {e : AuditEvent}

@[simp] theorem intentsFor_concat : intentsFor id (events ++ [e]) =
    intentsFor id events ++ if e.phase = .intent ∧ e.requestId = id then [e] else [] := by
  simp only [intentsFor, filter_append, filter_singleton, Bool.cond_decide]

@[simp] theorem outcomesFor_concat : outcomesFor id (events ++ [e]) =
    outcomesFor id events ++ if e.phase = .outcome ∧ e.requestId = id then [e] else [] := by
  simp only [outcomesFor, filter_append, filter_singleton, Bool.cond_decide]

/-- Intents stay. -/
theorem intentsFor_mono {events' : List AuditEvent} (h : events <+: events') :
    intentsFor id events <+: intentsFor id events' :=
  h.filter _

/-- The requests that are waiting for their outcome. -/
def Pending (c : Crypto) (s : Serde) (id : Bytes 16) (events : List AuditEvent) : Prop :=
  ∃ binding, (id, binding) ∈ (verifiedOf c s events).pendingIntents

/-- What the check of an outcome has found. -/
theorem pending_of_ensurePending (h : (verifiedOf c s events).ensurePending e = .ok ()) :
    Pending c s e.requestId events := by
  unfold VerifiedLog.ensurePending at h
  split at h
  · cases h
  · rename_i binding hlookup
    obtain ⟨before, after, heq, -⟩ := lookup_eq_some_iff.mp hlookup
    exact ⟨binding, by simp [heq]⟩

/-- How often a request occurs in a log. -/
structure Tally (c : Crypto) (s : Serde) (id : Bytes 16) (events : List AuditEvent) : Prop where
  seen : id ∈ (verifiedOf c s events).seenIntents ↔ intentsFor id events ≠ []
  pending : Pending c s id events → intentsFor id events ≠ [] ∧ outcomesFor id events = []
  answered : outcomesFor id events ≠ [] → intentsFor id events ≠ []
  intents : (intentsFor id events).length ≤ 1
  outcomes : (outcomesFor id events).length ≤ 1

/-- The first intent of a request. -/
theorem Tally.concat_intent (h : Tally c s id events) (hphase : e.phase = .intent)
    (hnew : e.requestId ∉ (verifiedOf c s events).seenIntents) :
    Tally c s id (events ++ [e]) := by
  by_cases hid : e.requestId = id
  · -- the request is new, so it has neither an intent nor an outcome yet
    subst hid
    have hnone : intentsFor e.requestId events = [] := by
      by_contra hne
      exact hnew (h.seen.mpr hne)
    have hanswer : outcomesFor e.requestId events = [] := by
      by_contra hne
      exact h.answered hne hnone
    constructor <;> simp [verifiedOf_concat, advance, track, hphase, hnone, hanswer]
  · have hpending : Pending c s id (events ++ [e]) → Pending c s id events := by
      rintro ⟨binding, hmem⟩
      simp only [verifiedOf_concat, advance, track, hphase,
        mem_append, mem_singleton, Prod.mk.injEq] at hmem
      rcases hmem with hold | hnew'
      · exact ⟨binding, hold⟩
      · exact absurd hnew'.1.symm hid
    constructor
    · simp [verifiedOf_concat, advance, track, hphase, hid, h.seen, Ne.symm hid]
    · simpa [hphase, hid] using fun hp => h.pending (hpending hp)
    · simpa [hphase, hid] using h.answered
    · simpa [hphase, hid] using h.intents
    · simpa [hphase, hid] using h.outcomes

/-- The outcome of a pending intent. -/
theorem Tally.concat_outcome (h : Tally c s id events) (hphase : e.phase = .outcome)
    (hmay : Pending c s e.requestId events) : Tally c s id (events ++ [e]) := by
  have hseen : (verifiedOf c s (events ++ [e])).seenIntents =
      (verifiedOf c s events).seenIntents := by
    simp [verifiedOf_concat, advance, track, hphase]
  have hpending : Pending c s id (events ++ [e]) → Pending c s id events ∧ id ≠ e.requestId := by
    rintro ⟨binding, hmem⟩
    simp only [verifiedOf_concat, advance, track, hphase, mem_filter, decide_eq_true_eq] at hmem
    exact ⟨⟨binding, hmem.1⟩, hmem.2⟩
  by_cases hid : e.requestId = id
  · subst hid
    obtain ⟨hintent, hnone⟩ := h.pending hmay
    constructor
    · rw [hseen]
      simpa [hphase] using h.seen
    · exact fun hp => absurd rfl (hpending hp).2
    · simpa [hphase] using hintent
    · simpa [hphase] using h.intents
    · simp [hphase, hnone]
  · constructor
    · rw [hseen]
      simpa [hphase] using h.seen
    · simpa [hphase, hid] using fun hp => h.pending (hpending hp).1
    · simpa [hphase, hid] using h.answered
    · simpa [hphase] using h.intents
    · simpa [hphase, hid] using h.outcomes

/-- Other events do not count. -/
theorem Tally.concat_administrative (h : Tally c s id events) (hphase : e.phase = .administrative) :
    Tally c s id (events ++ [e]) := by
  have htrack : (verifiedOf c s (events ++ [e])).seenIntents =
        (verifiedOf c s events).seenIntents ∧
      (verifiedOf c s (events ++ [e])).pendingIntents =
        (verifiedOf c s events).pendingIntents := by
    simp [verifiedOf_concat, advance, track, hphase]
  constructor
  · rw [htrack.1]
    simpa [hphase] using h.seen
  · have hpending : Pending c s id (events ++ [e]) → Pending c s id events := by
      unfold Pending
      rw [htrack.2]
      exact fun hp => hp
    simpa [hphase] using fun hp => h.pending (hpending hp)
  · simpa [hphase] using h.answered
  · simpa [hphase] using h.intents
  · simpa [hphase] using h.outcomes

/-- **One intent and one outcome.**  In an orderly log no request has more of either. -/
theorem Orderly.tally (h : Orderly c s events) (id : Bytes 16) : Tally c s id events := by
  induction h with
  | nil => constructor <;> simp [Pending, verifiedOf, intentsFor, outcomesFor]
  | @concat events e m _ hphase ih =>
    unfold VerifiedLog.ensurePhase at hphase
    split at hphase
    · rename_i hintent
      exact ih.concat_intent hintent (ensure_eq_ok.mp hphase)
    · rename_i houtcome
      exact ih.concat_outcome houtcome (pending_of_ensurePending hphase)
    · rename_i hadministrative
      exact ih.concat_administrative hadministrative

/-! ## Verified logs are orderly -/

theorem foldlM_verifyLine_orderly {lines : List (List UInt8)} :
    ∀ {before : List AuditEvent} {v : VerifiedLog}, Orderly c s before →
      lines.foldlM (verifyLine c s l) (verifiedOf c s before) = .ok v →
      ∃ events, lines.mapM (fun line => (s.parseRecord line.dropLast).map AuditRecord.event) =
          some events ∧ Orderly c s (before ++ events) := by
  induction lines with
  | nil =>
    intro before v hbefore _
    exact ⟨[], rfl, by simpa using hbefore⟩
  | cons line lines ih =>
    intro before v hbefore h
    simp only [foldlM_cons, bind_eq_ok] at h
    obtain ⟨v1, hline, hlines⟩ := h
    obtain ⟨-, -, -, r, hparse, hfits, rfl⟩ := verifyLine_eq_ok.mp hline
    -- the line's event may follow, and the others follow it
    rw [← verifiedOf_concat] at hlines
    obtain ⟨events, hmap, horderly⟩ := ih (hbefore.concat hfits.phase) hlines
    refine ⟨r.event :: events, by simp [hparse, hmap], ?_⟩
    simpa using horderly

/-- A verified log is in order. -/
theorem orderly_of_verifyLog {encoded : List UInt8} {v : VerifiedLog}
    (h : verifyLog c s l encoded = .ok v) :
    ∃ events, logEvents s encoded = some events ∧ Orderly c s events := by
  simp only [verifyLog, check_eq_ok] at h
  obtain ⟨events, hevents, horderly⟩ := foldlM_verifyLine_orderly .nil h.2
  exact ⟨events, hevents, by simpa using horderly⟩

/-! ## The journal -/

/-- The events of the log; none if there is no log. -/
def journal (s : Serde) (w : Files) : List AuditEvent := (w.log.bind (logEvents s)).getD []

/-- A log that is there verifies. -/
def Intact (c : Crypto) (s : Serde) (l : AuditLedger) (w : Files) : Prop :=
  ∀ old, w.log = some old → ∃ v, verifyLog c s l old = .ok v

variable {w w' : Files}

/-- The journal of a log that is there. -/
theorem journal_of_log {old : List UInt8} (hlog : w.log = some old)
    (hevents : logEvents s old = some events) : journal s w = events := by
  simp [journal, hlog, hevents]

theorem Intact.orderly (h : Intact c s l w) : Orderly c s (journal s w) := by
  cases hlog : w.log with
  | none =>
    simp only [journal, hlog]
    exact .nil
  | some old =>
    obtain ⟨v, hv⟩ := h old hlog
    obtain ⟨events, hevents, horderly⟩ := orderly_of_verifyLog hv
    rw [journal_of_log hlog hevents]
    exact horderly

/-- No step breaks the log. -/
theorem LedgerStep.intact (h : LedgerStep c s l w w') (hw : Intact c s l w) :
    Intact c s l w' := by
  cases h with
  | record old line v e hlog hold hstored hnew =>
    intro old' hold'
    cases hold'
    exact ⟨_, hnew⟩
  | head old v hlog hold hstored => exact hw
  | create hlog =>
    intro old hold
    cases hold
    exact ⟨{}, rfl⟩
  | reserve hstored => exact hw

/-- No step takes an event away. -/
theorem LedgerStep.grows (h : LedgerStep c s l w w') : journal s w <+: journal s w' := by
  cases h with
  | record old line v e hlog hold hstored hnew =>
    obtain ⟨events, hevents, -, -⟩ := verifyLog_spec hold
    obtain ⟨all, hall, -, -⟩ := verifyLog_spec hnew
    rw [journal_of_log hlog hevents, journal_of_log rfl hall]
    exact logEvents_prefix (verifyLog_end hold) hevents hall
  | head old v hlog hold hstored => exact prefix_refl _
  | create hlog =>
    simp only [journal, hlog]
    exact nil_prefix
  | reserve hstored => exact prefix_refl _

/-- What any number of steps keeps. -/
theorem intact_grows_of_steps (h : Relation.ReflTransGen (ledgerContract c s l).guar w w') :
    (Intact c s l w → Intact c s l w') ∧ journal s w <+: journal s w' := by
  induction h with
  | refl => exact ⟨fun hw => hw, prefix_refl _⟩
  | @tail w1 w2 _ hstep ih =>
    obtain ⟨hintact, hgrows⟩ := ih
    rcases hstep with rfl | hstep
    · exact ⟨hintact, hgrows⟩
    · exact ⟨fun hw => hstep.intact (hintact hw), hgrows.trans hstep.grows⟩

/-- **A call that is stopped anywhere** keeps all events, and leaves an intact log intact. -/
theorem follow_serve (hs : s.Lawful) {call : LedgerCall} {faults : List Fault}
    {p : Prog FileOp FileAns (Except Error AuditCheckpoint × Unit)}
    (h : Prog.follow auditSystem faults (serve c s l call ()) w = some (p, w')) :
    (Intact c s l w → Intact c s l w') ∧ journal s w <+: journal s w' := by
  have hkeeps := keeps_serve (c := c) (l := l) (w := w) hs call
  obtain ⟨-, hsteps, -⟩ := Safe.follow (C := ledgerContract c s l) trivial hkeeps h
  exact intact_grows_of_steps hsteps

/-- **An append that succeeds** has found the log intact, and puts its event at the end, where it
    may stand. -/
theorem follow_append (hs : s.Lawful) {faults : List Fault} {checkpoint : AuditCheckpoint}
    (h : Prog.follow auditSystem faults (append c s l e ()) w =
      some (.ret (.ok checkpoint, ()), w')) :
    Intact c s l w ∧ journal s w' = journal s w ++ [e] ∧
      ∃ m, (verifiedOf c s (journal s w)).ensurePhase e m = .ok () := by
  have hkeeps := keeps_append (c := c) (l := l) (w := w) (e := e) hs
  obtain ⟨-, -, hret⟩ := Safe.follow (C := ledgerContract c s l) trivial hkeeps h
  have hfollows : Follows c s l w e checkpoint w' := hret
  obtain ⟨old, line, events, hlog, hold, hevents, hphase, hhead⟩ := hfollows
  refine ⟨?_, ?_⟩
  · intro old' hold'
    rw [hlog] at hold'
    cases hold'
    exact ⟨_, hold⟩
  · rw [journal_of_log hlog hevents, journal_of_log hhead.log hhead.carried]
    exact ⟨rfl, _, hphase⟩

end Serctl.Audit
