import Serctl.Daemon.ConnRules

/-!
# Intents and outcomes of a request

What the appends of a connection do to the ledger, and how the outcome of a request comes about.
The response writer and the end of the request both may record it; whichever comes first wins, and
a record that was interrupted ends in quarantine.
-/

namespace Serctl.Daemon

open Lib Lib.Task Lib.Guard Ipc Function List GrantAuditOperation
open Audit (AuditEvent Fault Files Serde journal Intact intentsFor outcomesFor)

variable {HW HOp : Type} {HAns : HOp → Type} {HC : Type} {x : Platform} {s : Serde}
  {keys : ProfileIdentity → Bytes 32} {H : AsyncSystem HW HOp HAns HC} {conn n : Nat}
  {w w' : World HW} {α β : Type}

/-! ## One append -/

variable {r : Except Error Unit} {identity : ProfileIdentity}

section Append

variable {entry : ProfilePoolEntry} {e : AuditEvent} {faults : List Fault}

theorem record_append (events events' : List Event) :
    w.record conn (events ++ events') = (w.record conn events).record conn events' := by
  simp [World.record]

/-- What a confirmed append says about the ledger before and after it. -/
structure Confirmed (x : Platform) (s : Serde) (keys : ProfileIdentity → Bytes 32)
    (identity : ProfileIdentity) (e : AuditEvent) (files files' : Files) : Prop where
  intact : Intact x.toCrypto s (ledgerOf keys identity) files
  journal : journal s files' = journal s files ++ [e]
  phase : ∃ m, (Audit.verifiedOf x.toCrypto s (Audit.journal s files)).ensurePhase e m = .ok ()

theorem appendExec_spec (hs : s.Lawful)
    (h : appendExec x s keys w conn entry e faults = some (r, w')) :
    ∃ files, Evolves x s keys w (w.setFiles entry.identity files) ∧
      ((r = .ok () ∧ Confirmed x s keys entry.identity e (w.files entry.identity) files ∧
          w' = (w.setFiles entry.identity files).record conn
            [.attempted entry e, .appended entry e]) ∨
        ((∃ err, r = .error err) ∧
          w' = (w.setFiles entry.identity files).record conn [.attempted entry e])) := by
  -- wherever it stops, an append is a call of the ledger
  have hserve : ∀ {p files}, Prog.follow Audit.auditSystem faults
      (Audit.append x.toCrypto s (ledgerOf keys entry.identity) e ()) (w.files entry.identity) =
        some (p, files) → Evolves x s keys w (w.setFiles entry.identity files) := by
    intro p files hfollow
    have hcall : Prog.follow Audit.auditSystem faults
        (Audit.serve x.toCrypto s (ledgerOf keys entry.identity) (.append e) ())
        (w.files entry.identity) = some (p, files) := hfollow
    obtain ⟨hintact, hgrows⟩ := Audit.follow_serve hs hcall
    exact evolves_setFiles hintact hgrows
  unfold appendExec at h
  split at h
  · rename_i checkpoint _ files hfollow
    cases h
    obtain ⟨hintact, hjournal, hphase⟩ := Audit.follow_append hs hfollow
    exact ⟨files, hserve hfollow, .inl ⟨rfl, ⟨hintact, hjournal, hphase⟩, rfl⟩⟩
  · rename_i err _ files hfollow
    cases h
    exact ⟨files, hserve hfollow, .inr ⟨⟨_, rfl⟩, rfl⟩⟩
  · cases h

/-- A confirmed intent is the first of its request: the ledger would have refused another one. -/
theorem Confirmed.fresh (hw : Inv x s w) {files : Files}
    (h : Confirmed x s keys identity e (w.files identity) files) (hphase : e.phase = .intent) :
    (identity, e.requestId) ∉ (intents w.history).map Prod.snd := by
  intro hmem
  obtain ⟨intent, hintent, heq⟩ := mem_map.mp hmem
  have hlogged := hw.counts.intentLogged intent hintent
  rw [heq] at hlogged
  -- so the ledger has seen the request before
  have hseen := (h.intact.orderly.tally e.requestId).seen.mpr hlogged
  obtain ⟨m, hm⟩ := h.phase
  simp only [Audit.VerifiedLog.ensurePhase, hphase] at hm
  exact Audit.ensure_eq_ok.mp hm hseen

/-- An append keeps the invariant, if no intent of the connection was confirmed before. -/
theorem inv_appendExec (hs : s.Lawful) (hw : Inv x s w)
    (hfirst : e.phase = .intent → ∀ entry' e', .appended entry' e' ∉ trace w.history conn)
    (h : appendExec x s keys w conn entry e faults = some (r, w')) : Inv x s w' := by
  obtain ⟨files, hevolves, ⟨-, hconfirmed, rfl⟩ | ⟨-, rfl⟩⟩ := appendExec_spec hs h
  · have hset := hw.setFiles hevolves
    have hattempted : Inv x s
        ((w.setFiles entry.identity files).record conn [.attempted entry e]) :=
      hset.recordUncounted (by simp [uncounted_attempted])
    have hsplit : [Event.attempted entry e, .appended entry e] =
        [.attempted entry e] ++ [.appended entry e] := rfl
    rw [hsplit, record_append]
    by_cases hphase : e.phase = .intent
    · apply hattempted.recordIntent hphase
      · intro entry' e' hmem
        rw [trace_record_self] at hmem
        simp only [mem_append, mem_singleton, reduceCtorEq, or_false] at hmem
        exact hfirst hphase entry' e' hmem
      · have hfresh := hconfirmed.fresh hw hphase
        simpa [intentOf, World.setFiles] using hfresh
      · have hjournal : journal s (((w.setFiles entry.identity files).record conn
            [.attempted entry e]).files entry.identity) =
            journal s (w.files entry.identity) ++ [e] := by
          simpa [World.setFiles, World.record] using hconfirmed.journal
        rw [hjournal, Audit.intentsFor_concat]
        simp [hphase]
    · exact hattempted.recordUncounted (by simpa using uncounted_appended hphase)
  · exact (hw.setFiles hevolves).recordUncounted (by simp [uncounted_attempted])

end Append

/-! ## Cells -/

section Cells

variable {E : Error → World HW → Prop} {K : Nat → World HW → Prop} {J : World HW → Prop}

section

variable (hJ : Stable x s keys conn J) (hw : J w)

include hJ hw

theorem runs_auditStore {state : AuditState} {Q : Unit → World HW → Prop}
    (hQ : ∀ w', J w' → Q () { w' with audit := Function.update w'.audit conn state }) :
    Runs x s keys H conn (ask (.auditStore conn state)) Q E K n w := by
  apply runs_plain hJ hw (fun _ _ => rfl) fun _ choice => by cases choice <;> rfl
  intro w1 hw1 hinv
  refine ⟨hinv.setAudit, ⟨evolves_setAudit, fun other hother => ⟨rfl, ?_⟩⟩, hQ w1 hw1⟩
  exact update_of_ne hother _ _

/-- The audit of a request begins. -/
theorem runs_auditNew {op : GrantAuditOperation} (hop : op.conn = conn)
    {Q : Unit → World HW → Prop}
    (hQ : ∀ w', J w' → Q () { w' with audit := Function.update w'.audit conn .pending }) :
    Runs x s keys H conn (ask (.auditNew op)) Q E K n w := by
  subst hop
  apply runs_plain hJ hw (fun _ _ => rfl) fun _ choice => by cases choice <;> rfl
  intro w1 hw1 hinv
  refine ⟨hinv.setAudit, ⟨evolves_setAudit, fun other hother => ⟨rfl, ?_⟩⟩, hQ w1 hw1⟩
  exact update_of_ne hother _ _

theorem runs_auditCompareExchange {current new : AuditState}
    {Q : Except AuditState Unit → World HW → Prop} (hok : ∀ w', J w' → w'.audit conn = current →
      Q (.ok ()) { w' with audit := Function.update w'.audit conn new })
    (herror : ∀ w', J w' → w'.audit conn ≠ current → Q (.error (w'.audit conn)) w') :
    Runs x s keys H conn (ask (.auditCompareExchange conn current new)) Q E K n w := by
  apply runs_plain hJ hw (fun _ _ => rfl) fun _ choice => by cases choice <;> rfl
  intro w1 hw1 hinv
  by_cases hcurrent : w1.audit conn = current
  · simp only [auditCompareExchangeExec, hcurrent, if_true]
    refine ⟨hinv.setAudit, ⟨evolves_setAudit, fun other hother => ⟨rfl, ?_⟩⟩,
      hok w1 hw1 hcurrent⟩
    exact update_of_ne hother _ _
  · simp only [auditCompareExchangeExec, hcurrent, if_false]
    exact ⟨hinv, ⟨Evolves.refl w1, fun _ _ => ⟨rfl, rfl⟩⟩, herror w1 hw1 hcurrent⟩

theorem runs_quarantinedStore {entry : ProfilePoolEntry} {Q : Unit → World HW → Prop}
    (hentry : ∀ w', J w' → entry.index < w'.entries) (hQ : ∀ w', J w' →
      Q () { w' with quarantined := Function.update w'.quarantined entry.index true }) :
    Runs x s keys H conn (ask (.quarantinedStore entry)) Q E K n w := by
  apply runs_plain hJ hw (fun _ _ => rfl) fun _ choice => by cases choice <;> rfl
  intro w1 hw1 hinv
  exact ⟨hinv.quarantine (hentry w1 hw1), ⟨evolves_quarantine, fun _ _ => ⟨rfl, rfl⟩⟩,
    hQ w1 hw1⟩

end

end Cells

/-! ## Appends of a connection -/

/-- The append of this event was not confirmed, if it was tried at all. -/
def Unconfirmed (op : GrantAuditOperation) (e : AuditEvent) (t : List Event) (w : World HW) :
    Prop :=
  trace w.history op.conn = t ∨ trace w.history op.conn = t ++ [.attempted op.entry e]

/-- The ledger carries this event. -/
structure Carries (x : Platform) (s : Serde) (keys : ProfileIdentity → Bytes 32)
    (identity : ProfileIdentity) (e : AuditEvent) (w : World HW) : Prop where
  intact : Intact x.toCrypto s (ledgerOf keys identity) (w.files identity)
  mem : e ∈ journal s (w.files identity)

theorem lasting_carries {e : AuditEvent} :
    Lasting x s keys conn fun w : World HW => Carries x s keys identity e w :=
  fun _ _ hevolves _ h => ⟨hevolves.intact identity h.intact,
    (hevolves.grows identity).subset h.mem⟩

section Appends

variable {op : GrantAuditOperation} {e : AuditEvent} {F : World HW → Prop} {t : List Event}

section

variable (hs : s.Lawful) (hF : Lasting x s keys op.conn F)
    (hfirst : e.phase = .intent → ∀ entry' e', .appended entry' e' ∉ t)

include hs hF hfirst

/-- What one append of a connection leaves behind. -/
theorem append_step (hinv : Inv x s w)
    (hw : F w) (ht : trace w.history op.conn = t) {choice : ConnChoice HC}
    (h : connExec x s keys H w (.append op.conn op.entry e) choice = some (r, w')) :
    Inv x s w' ∧ (connContract x s keys op.conn : Contract (World HW) (ConnOp HOp)).guar w w' ∧
      F w' ∧ ((r = .ok () ∧ Carries x s keys op.entry.identity e w' ∧
          trace w'.history op.conn = t ++ [.attempted op.entry e, .appended op.entry e]) ∨
        ((∃ err, r = .error err) ∧
          trace w'.history op.conn = t ++ [.attempted op.entry e])) := by
  cases choice <;> simp only [connExec, reduceCtorEq] at h
  · -- the worker does not return
    cases h
    have hevolves : Evolves x s keys w (w.record op.conn [.attempted op.entry e]) :=
      evolves_record _
    refine ⟨hinv.recordUncounted (by simp [uncounted_attempted]), ⟨hevolves, ?_⟩,
      hF _ _ hevolves rfl hw, .inr ⟨⟨_, rfl⟩, ?_⟩⟩
    · exact fun other hother => ⟨trace_record_of_ne hother _, rfl⟩
    · rw [trace_record_self, ht]
  · have hinv' : Inv x s w' := by
      apply inv_appendExec hs hinv _ h
      rw [ht]
      exact hfirst
    obtain ⟨files, hset, ⟨rfl, hconfirmed, rfl⟩ | ⟨herr, rfl⟩⟩ := appendExec_spec hs h
    · have hevolves : Evolves x s keys w ((w.setFiles op.entry.identity files).record op.conn
          [.attempted op.entry e, .appended op.entry e]) := hset.trans (evolves_record _)
      have hfiles : ((w.setFiles op.entry.identity files).record op.conn
          [.attempted op.entry e, .appended op.entry e]).files op.entry.identity = files := by
        simp [World.setFiles, World.record]
      refine ⟨hinv', ⟨hevolves, ?_⟩, hF _ _ hevolves rfl hw, .inl ⟨rfl, ⟨?_, ?_⟩, ?_⟩⟩
      · exact fun other hother => ⟨trace_record_of_ne hother _, rfl⟩
      · exact hevolves.intact _ hconfirmed.intact
      · rw [hfiles, hconfirmed.journal]
        simp
      · rw [trace_record_self]
        exact congrArg (· ++ _) ht
    · have hevolves : Evolves x s keys w ((w.setFiles op.entry.identity files).record op.conn
          [.attempted op.entry e]) := hset.trans (evolves_record _)
      refine ⟨hinv', ⟨hevolves, ?_⟩, hF _ _ hevolves rfl hw, .inr ⟨herr, ?_⟩⟩
      · exact fun other hother => ⟨trace_record_of_ne hother _, rfl⟩
      · rw [trace_record_self]
        exact congrArg (· ++ _) ht

/-- **An append** by a connection, confirmed or not. -/
theorem runs_append {Q : Unit → World HW → Prop} {E : Error → World HW → Prop}
    {K : Nat → World HW → Prop} (hw : F w) (ht : trace w.history op.conn = t)
    (hok : ∀ w', F w' → Carries x s keys op.entry.identity e w' →
      trace w'.history op.conn = t ++ [.attempted op.entry e, .appended op.entry e] → Q () w')
    (herror : ∀ err w', F w' → Unconfirmed op e t w' → E err w')
    (hK : ∀ timer < n, ∀ w', F w' → Unconfirmed op e t w' → K timer w') :
    Runs x s keys H op.conn (op.append e) Q E K n w := by
  have hJ : Stable x s keys op.conn fun w : World HW => F w ∧ trace w.history op.conn = t :=
    hF.stable.and (stable_trace (T := (· = t)))
  unfold append
  apply runs_skip (by trivial) hJ ⟨hw, ht⟩
    (fun timer ht w' hw' => hK timer ht w' hw'.1 (.inl hw'.2))
  intro now w1 hw1
  apply wp_requiring
  · intro _
    apply wp_timing
    apply runs_ask
    intro w2 hrely hinv
    obtain ⟨hw2, ht2⟩ := hJ w1 w2 hrely.1 hrely.2.1 hrely.2.2 hw1
    refine ⟨fun choice r w3 h => ?_, fun timer _ choice w3 h => ?_⟩
    · obtain ⟨hinv3, hguar, hw3, hcase⟩ := append_step hs hF hfirst hinv hw2 ht2 h
      refine ⟨hinv3, hguar, ?_⟩
      apply (wp_orElseFail id _).mpr
      rcases hcase with ⟨rfl, hcarries, ht3⟩ | ⟨⟨err, rfl⟩, ht3⟩
      · refine ⟨fun a _ => hok w3 hw3 hcarries ht3, fun err herr => ?_⟩
        cases herr
      · refine ⟨fun a ha => ?_, fun err _ => herror _ w3 hw3 (.inr ht3)⟩
        cases ha
    · -- a timer fires while the worker is at work
      cases choice <;> cases h
      have hevolves : Evolves x s keys w2 (w2.record op.conn [.attempted op.entry e]) :=
        evolves_record _
      have ht3 : trace (w2.record op.conn [.attempted op.entry e]).history op.conn =
          t ++ [.attempted op.entry e] := by
        rw [trace_record_self, ht2]
      have hw3 := hF _ _ hevolves rfl hw2
      refine ⟨hinv.recordUncounted (by simp [uncounted_attempted]), ⟨hevolves, ?_⟩, ?_⟩
      · exact fun other hother => ⟨trace_record_of_ne hother _, rfl⟩
      · by_cases houter : timer < n
        · simp only [houter, if_true]
          exact hK timer houter _ hw3 (.inr ht3)
        · simp only [houter, if_false]
          exact herror _ _ hw3 (.inr ht3)
  · exact fun _ => herror _ w1 hw1.1 (.inl hw1.2)

end

end Appends

/-! ## The outcome of a request -/

/-- A step that belongs to the outcome of a request bound to this entry. -/
def Closing (entry : ProfilePoolEntry) : Event → Prop
  | .attempted other e => other = entry ∧ e.phase = .outcome
  | .appended other e => other = entry ∧ e.phase = .outcome
  | _ => False

section Outcome

variable (x : Platform) (s : Serde) (keys : ProfileIdentity → Bytes 32)

/-- The ledger carries an outcome of the request. -/
def Answered (identity : ProfileIdentity) (id : Bytes 16) (w : World HW) : Prop :=
  ∃ e, e.phase = .outcome ∧ e.requestId = id ∧ Carries x s keys identity e w

/-- The ledger has confirmed an outcome of the request at the first attempt, and carries it. -/
def Finalized (op : GrantAuditOperation) (before : List Event) (w : World HW) : Prop :=
  ∃ e, e.phase = .outcome ∧ e.requestId = op.requestId ∧
    Carries x s keys op.entry.identity e w ∧
    trace w.history op.conn = before ++ [.attempted op.entry e, .appended op.entry e]

/-- The outcome is confirmed, or the profile is quarantined. -/
def Settled (op : GrantAuditOperation) (before : List Event) (w : World HW) : Prop :=
  Finalized x s keys op before w ∨ w.quarantined op.entry.index = true

/-- A request whose steps so far are `before`, followed by steps that belong to its outcome.
    While the outcome is pending none was attempted, and a failed attempt leaves a mark. -/
structure Active (op : GrantAuditOperation) (before : List Event) (w : World HW) : Prop where
  entry : op.entry.index < w.entries
  trail : ∃ tail, trace w.history op.conn = before ++ tail ∧
    ∀ event ∈ tail, Closing op.entry event
  pending : w.audit op.conn = .pending → trace w.history op.conn = before
  complete : w.audit op.conn = .complete → Finalized x s keys op before w
  failed : w.audit op.conn = .failed → w.quarantined op.entry.index = true

end Outcome

section OutcomeRules

variable {op : GrantAuditOperation} {before : List Event}

theorem lasting_answered {id : Bytes 16} :
    Lasting x s keys conn fun w : World HW => Answered x s keys identity id w := by
  rintro w w' hevolves haudit ⟨e, hphase, hid, hcarries⟩
  exact ⟨e, hphase, hid, lasting_carries w w' hevolves haudit hcarries⟩

theorem stable_finalized :
    Stable x s keys op.conn fun w : World HW => Finalized x s keys op before w := by
  rintro w w' hevolves htrace haudit ⟨e, hphase, hid, hcarries, hsteps⟩
  exact ⟨e, hphase, hid, lasting_carries w w' hevolves haudit hcarries, htrace.trans hsteps⟩

theorem stable_active :
    Stable x s keys op.conn fun w : World HW => Active x s keys op before w := by
  intro w w' hevolves htrace haudit hw
  constructor
  · exact Nat.lt_of_lt_of_le hw.entry hevolves.entries
  · rw [htrace]
    exact hw.trail
  · rw [haudit, htrace]
    exact hw.pending
  · rw [haudit]
    exact fun h => stable_finalized w w' hevolves htrace haudit (hw.complete h)
  · rw [haudit]
    exact fun h => hevolves.quarantined _ (hw.failed h)

/-- While the outcome is on its way, nothing else is known of it. -/
theorem active_of_finalizing (hentry : op.entry.index < w.entries)
    (hstate : w.audit op.conn = .finalizing)
    (htrail : ∃ tail, trace w.history op.conn = before ++ tail ∧
      ∀ event ∈ tail, Closing op.entry event) : Active x s keys op before w where
  entry := hentry
  trail := htrail
  pending h := by simp [hstate] at h
  complete h := by simp [hstate] at h
  failed h := by simp [hstate] at h

section Persist

variable {Q : Unit → World HW → Prop} {E : Error → World HW → Prop} {K : Nat → World HW → Prop}

/-- The state is set to failed, and then the profile is quarantined. -/
theorem runs_failAndQuarantine {e : Error} (hw : Active x s keys op before w)
    (herror : ∀ w', Active x s keys op before w' → w'.audit op.conn = .failed → E e w') :
    Runs x s keys H op.conn (do
      ask (.auditStore op.conn .failed)
      ask (.quarantinedStore op.entry)
      fail e) Q E K n w := by
  -- in between, the request is active apart from the quarantine
  have hbetween : Stable x s keys op.conn fun w : World HW => w.audit op.conn = .failed ∧
      op.entry.index < w.entries ∧
      ∃ tail, trace w.history op.conn = before ++ tail ∧
        ∀ event ∈ tail, Closing op.entry event := by
    rintro w w' hevolves htrace haudit ⟨hfailed, hentry, htrail⟩
    rw [haudit, htrace]
    exact ⟨hfailed, Nat.lt_of_lt_of_le hentry hevolves.entries, htrail⟩
  apply wp_seq
  apply runs_auditStore stable_active hw
  intro w1 hw1
  apply wp_seq
  apply runs_quarantinedStore hbetween
  · exact ⟨update_self _ _ _, hw1.entry, hw1.trail⟩
  · exact fun w2 hw2 => hw2.2.1
  · rintro w2 ⟨hfailed, hentry, htrail⟩
    refine herror _ ⟨hentry, htrail, fun h => ?_, fun h => ?_, fun _ => update_self _ _ _⟩ hfailed
    · have hpending : w2.audit op.conn = .pending := h
      rw [hfailed] at hpending
      cases hpending
    · have hcomplete : w2.audit op.conn = .complete := h
      rw [hfailed] at hcomplete
      cases hcomplete

section

variable (hs : s.Lawful) (hw : Active x s keys op before w)

include hs hw

theorem runs_persistOutcome {terminal : AuditTerminal} (hstate : w.audit op.conn = .finalizing)
    (htrace : trace w.history op.conn = before)
    (hok : ∀ w', Active x s keys op before w' → w'.audit op.conn = .complete → Q () w')
    (herror : ∀ err w', Active x s keys op before w' → w'.audit op.conn = .failed → E err w')
    (hK : ∀ timer < n, ∀ w', Active x s keys op before w' → K timer w') :
    Runs x s keys H op.conn (op.persistOutcome x terminal) Q E K n w := by
  -- the entry stays and the state waits, while the append goes on
  have hF : Lasting x s keys op.conn fun w : World HW =>
      op.entry.index < w.entries ∧ w.audit op.conn = .finalizing :=
    lasting_entry.and (lasting_audit (P := (· = .finalizing)))
  have hJ : Stable x s keys op.conn fun w : World HW =>
      (op.entry.index < w.entries ∧ w.audit op.conn = .finalizing) ∧
        trace w.history op.conn = before :=
    hF.stable.and (stable_trace (T := (· = before)))
  have huntried : ∀ w' : World HW,
      (op.entry.index < w'.entries ∧ w'.audit op.conn = .finalizing) ∧
        trace w'.history op.conn = before → Active x s keys op before w' :=
    fun w' hw' => active_of_finalizing hw'.1.1 hw'.1.2 ⟨[], by simpa using hw'.2, by simp⟩
  unfold persistOutcome
  apply runs_skip (by trivial) hJ ⟨⟨hw.entry, hstate⟩, htrace⟩
    (fun timer ht w' hw' => hK timer ht w' (huntried w' hw'))
  rintro now w1 ⟨hw1, htrace1⟩
  have hphase : (op.outcome x terminal now).phase = .outcome := rfl
  have hunconfirmed : ∀ w' : World HW,
      (op.entry.index < w'.entries ∧ w'.audit op.conn = .finalizing) →
      Unconfirmed op (op.outcome x terminal now) before w' →
      Active x s keys op before w' := by
    rintro w' hw' (htrace' | htrace')
    · exact huntried w' ⟨hw', htrace'⟩
    · exact active_of_finalizing hw'.1 hw'.2
        ⟨[.attempted op.entry (op.outcome x terminal now)], htrace', by simp [Closing, hphase]⟩
  apply wp_attempting
  apply runs_append hs hF (fun hintent => by cases hintent) hw1 htrace1
  · intro w2 hw2 hcarries htrace2
    -- the outcome is in the ledger, and stays there when the state is set
    have hJ2 : Stable x s keys op.conn fun w : World HW =>
        op.entry.index < w.entries ∧ Finalized x s keys op before w :=
      lasting_entry.stable.and stable_finalized
    apply runs_auditStore hJ2 ⟨hw2.1, _, hphase, rfl, hcarries, htrace2⟩
    rintro w3 ⟨hentry3, e, he, hid, hcarries3, htrace3⟩
    have hstored : (update w3.audit op.conn .complete) op.conn = .complete := update_self _ _ _
    refine hok _ ⟨hentry3, ⟨_, htrace3, by simp [Closing, he]⟩, fun h => ?_, fun _ => ?_,
      fun h => ?_⟩ hstored
    · exact absurd (hstored.symm.trans h) (by simp)
    · exact ⟨e, he, hid, ⟨hcarries3.intact, hcarries3.mem⟩, htrace3⟩
    · exact absurd (hstored.symm.trans h) (by simp)
  · intro err w2 hw2 htrace2
    exact runs_failAndQuarantine (hunconfirmed w2 hw2 htrace2) (herror _)
  · exact fun timer ht w2 hw2 htrace2 => hK timer ht w2 (hunconfirmed w2 hw2 htrace2)

/-- **The first to record an outcome** records it; everyone else learns how it went. -/
theorem runs_recordOutcome {terminal : AuditTerminal}
    (hok : ∀ w', Active x s keys op before w' → w'.audit op.conn = .complete → Q () w')
    (herror : ∀ err w', Active x s keys op before w' →
      (w'.audit op.conn = .failed ∨ w.audit op.conn = .finalizing) → E err w')
    (hK : ∀ timer < n, ∀ w', Active x s keys op before w' → K timer w') :
    Runs x s keys H op.conn (op.recordOutcome x terminal) Q E K n w := by
  have hJ : Stable x s keys op.conn fun w' : World HW =>
      Active x s keys op before w' ∧ w'.audit op.conn = w.audit op.conn :=
    stable_active.and (lasting_audit (P := (· = w.audit op.conn))).stable
  unfold recordOutcome
  apply wp_seq
  apply runs_auditCompareExchange hJ ⟨hw, rfl⟩
  · rintro w1 ⟨hw1, -⟩ hpending
    have hfinalizing : Active x s keys op before
        { w1 with audit := update w1.audit op.conn .finalizing } :=
      active_of_finalizing hw1.entry (update_self _ _ _) hw1.trail
    apply runs_persistOutcome hs hfinalizing (update_self _ _ _) (hw1.pending hpending) hok _ hK
    exact fun err w' hw' hfailed => herror err w' hw' (.inl hfailed)
  · rintro w1 ⟨hw1, hsame⟩ hne
    cases hstate : w1.audit op.conn with
    | pending => exact absurd hstate hne
    | finalizing => exact herror _ w1 hw1 (.inr (hsame ▸ hstate))
    | complete => exact hok w1 hw1 hstate
    | failed => exact herror _ w1 hw1 (.inl hstate)

/-- **In the end** there is an outcome, or the profile is quarantined. -/
theorem runs_finalizeUnknownIfPending
    (hok : ∀ w', Active x s keys op before w' → Settled x s keys op before w' → Q () w')
    (herror : ∀ err w', Active x s keys op before w' → Settled x s keys op before w' → E err w')
    (hK : ∀ timer < n, ∀ w', Active x s keys op before w' → K timer w') :
    Runs x s keys H op.conn (op.finalizeUnknownIfPending x) Q E K n w := by
  unfold finalizeUnknownIfPending
  apply runs_calm (by trivial) stable_active hw hK
  intro w1 choice state w2 hinv h hcalm hw2
  obtain ⟨rfl, rfl⟩ := plainly_eq_some h
  cases hstate : w2.audit op.conn with
  | pending =>
    apply runs_recordOutcome hs hw2 _ _ hK
    · exact fun w' hw' hcomplete => hok w' hw' (.inl (hw'.complete hcomplete))
    · rintro err w' hw' (hfailed | hfinalizing)
      · exact herror err w' hw' (.inr (hw'.failed hfailed))
      · rw [hstate] at hfinalizing
        cases hfinalizing
  | complete => exact hok w2 hw2 (.inl (hw2.complete hstate))
  | failed => exact herror _ w2 hw2 (.inr (hw2.failed hstate))
  | finalizing =>
    apply runs_failAndQuarantine hw2
    exact fun w' hw' hfailed => herror _ w' hw' (.inr (hw'.failed hfailed))

end

end Persist

/-! ## Responses and handlers -/

variable {handler : Handler HAns}

section Handlers

variable {S : ConnSystem HW HAns HC}
  {C : Contract (World HW) (ConnOp HOp)} {J : World HW → Prop}
  (hcalm : ∀ {α : Type} {task : ConnTask HAns α} {n : Nat} {w : World HW}, Only IsCalm task → J w →
    wp S C task (fun _ => J) (fun _ => J) (fun _ => J) n w)
  (hrecord : ∀ {terminal : AuditTerminal} {frame : Frame} {n : Nat} {w : World HW},
    terminalForFrame op.operationKind frame = some terminal → J w →
    wp S C (op.recordOutcome x terminal) (fun _ => J) (fun _ => J) (fun _ => J) n w)

include hcalm hrecord

/-- What calm operations and the record of an outcome keep, a response keeps. -/
theorem wp_writeFrameUntil {frame : Frame} {requestDeadline : Nat} (hw : J w) :
    wp S C (writeFrameUntil x (some op) frame requestDeadline) (fun _ => J) (fun _ => J)
      (fun _ => J) n w := by
  have hterminal : wp S C (op.beforeTerminalFrame x frame) (fun _ => J) (fun _ => J) (fun _ => J)
      n w := by
    unfold beforeTerminalFrame
    split
    · exact hw
    · rename_i terminal hframe
      apply wp_attempting
      exact hrecord hframe hw
  unfold writeFrameUntil terminalFrame
  apply wp_seq
  apply wp_seq
  apply wp_mono hterminal
  · exact fun _ w' hw' => hcalm (only_writeFrame IsStill.calm _ requestDeadline) hw'
  · exact fun err w' hw' => hw'
  · exact fun timer w' hw' => hw'

/-- **A handler** keeps it as well, whatever it does. -/
theorem wp_handler (hw : J w) :
    wp S C (runHandler x (some op) handler) (fun _ => J) (fun _ => J) (fun _ => J) n w := by
  have hcalls : ∀ (c : HandlerOp HOp × Nat) (w : World HW), J w →
      Safe S.inTimers C.inTimers (fun _ => J) (handlerCall x (some op) c) w := by
    rintro ⟨call, m⟩ w hw
    cases call with
    | writeFrameUntil frame requestDeadline =>
      have hattempt : wp S C (attempt (writeFrameUntil x (some op) frame requestDeadline))
          (fun _ => J) (fun (_ : Empty) => J) (fun _ => J) m w :=
        (wp_attempt _).mpr (wp_writeFrameUntil hcalm hrecord hw)
      apply Safe.bind_iff.mpr
      apply Safe.mono _ hattempt
      intro r w' hr
      cases r <;> exact hr
    | own own =>
      have hown : wp S C (ask (.handler own) : ConnTask HAns _) (fun _ => J) (fun _ => J)
          (fun _ => J) m w := hcalm only_ask hw
      intro w1 hrely hinv
      obtain ⟨hok, hstep⟩ := hown w1 hrely hinv
      refine ⟨hok, fun choice a w2 h => ?_⟩
      obtain ⟨hinv2, hguar, hrest⟩ := hstep choice a w2 h
      cases a <;> exact ⟨hinv2, hguar, hrest⟩
  have hsafe := Safe.expand (p := handler n) hcalls hw
  apply Safe.mono _ hsafe
  intro r w' hr
  cases r <;> exact hr

/-- So does a request, outside of all timers, also when its authorization ends. -/
theorem wp_dispatchRootRequest {K : Nat → World HW → Prop} {entry : ProfilePoolEntry}
    {deadline : Nat} {frame : Frame} {handlers : HandlerContext → Frame → Handler HAns}
    (hended : ∀ {f : Unit → ConnTask HAns Unit} {w : World HW},
      (∀ w', J w' → wp S C (f ()) (fun _ => J) (fun _ => J) K 0 w') → J w →
      wp S C (ask (.invalidateSessions entry) >>= f) (fun _ => J) (fun _ => J) K 0 w) (hw : J w) :
    wp S C (dispatchRootRequest x handlers ⟨entry, some op, deadline⟩ frame) (fun _ => J)
      (fun _ => J) K 0 w := by
  unfold dispatchRootRequest
  apply wp_timing
  apply wp_mono (wp_handler hcalm hrecord hw)
  · exact fun a w' hw' => hw'
  · exact fun err w' hw' => hw'
  · intro timer w' hw'
    simp only [Nat.not_lt_zero, if_false]
    exact hended (fun _ hw'' => hw'') hw'

end Handlers

/-- **A request under a grant** stays active in its handler. -/
theorem runs_dispatchRootRequest (hs : s.Lawful) {deadline : Nat} {entry : ProfilePoolEntry}
    {frame : Frame} {handlers : HandlerContext → Frame → Handler HAns} {K : Nat → World HW → Prop}
    (hw : Active x s keys op before w) :
    Runs x s keys H op.conn (dispatchRootRequest x handlers ⟨entry, some op, deadline⟩ frame)
      (fun _ => Active x s keys op before) (fun _ => Active x s keys op before) K 0 w := by
  refine wp_dispatchRootRequest (fun htask => runs_of_calm htask stable_active) ?_ ?_ hw
  · intro terminal frame n w _ hw
    apply runs_recordOutcome hs hw
    · exact fun w' hw' _ => hw'
    · exact fun err w' hw' _ => hw'
    · exact fun timer _ w' hw' => hw'
  · exact fun hf hw => runs_skip (by trivial) stable_active hw no_timer fun _ w' hw' => hf w' hw'

end OutcomeRules

end Serctl.Daemon
