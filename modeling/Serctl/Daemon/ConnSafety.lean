import Serctl.Daemon.ConnOutcome

/-!
# Requests under a grant

What is left of a request when its connection returns, and what holds in every state of every
run of the daemon: through restarts, whatever fails, and however many connections there are.
-/

namespace Serctl.Daemon

open Lib Lib.Task Lib.Guard Ipc List
open Audit (AuditEvent Fault Files Serde journal Intact intentsFor outcomesFor)

variable {HW HOp : Type} {HAns : HOp → Type} {HC : Type}

/-! ## What is left of a request -/

/-- The intent of the request. -/
structure IntentOf (prelude : V6RequestPrelude) (e : AuditEvent) : Prop where
  phase : e.phase = .intent
  requestId : e.requestId = prelude.requestId

/-- The steps of a request that was denied, and of one that was dispatched, before its outcome. -/
inductive Told (prelude : V6RequestPrelude) (entry : ProfilePoolEntry) (e : AuditEvent) :
    List Event → Prop where
  | denied : Told prelude entry e [.attempted entry e, .appended entry e]
  | dispatched (request : Dispatch) (hentry : request.record.entry = entry)
      (hprelude : request.prelude = prelude) :
      Told prelude entry e [.attempted entry e, .appended entry e, .spent request.record.index,
        .dispatched request]

section Accounted

variable (x : Platform) (s : Serde) (keys : ProfileIdentity → Bytes 32)

/-- What is left of a request when its connection has returned. -/
inductive Accounted (conn : Nat) (prelude : V6RequestPrelude) (w : World HW) : Prop where
  | untouched (htrace : trace w.history conn = [])
  | unrecorded (entry : ProfilePoolEntry) (e : AuditEvent) (hintent : IntentOf prelude e)
      (hquarantined : w.quarantined entry.index = true)
      (htrace : trace w.history conn = [.attempted entry e])
  | closed (entry : ProfilePoolEntry) (e : AuditEvent) (hintent : IntentOf prelude e)
      (hcarries : Carries x s keys entry.identity e w)
      (before tail : List Event) (htold : Told prelude entry e before)
      (hsettled : (∃ outcome, outcome.phase = .outcome ∧ outcome.requestId = prelude.requestId ∧
          Carries x s keys entry.identity outcome w ∧
          tail = [.attempted entry outcome, .appended entry outcome]) ∨
        w.quarantined entry.index = true)
      (hclosing : ∀ event ∈ tail, Closing entry event)
      (htrace : trace w.history conn = before ++ tail)

end Accounted

variable {x : Platform} {s : Serde} {keys : ProfileIdentity → Bytes 32}
  {H : AsyncSystem HW HOp HAns HC} {conn : Nat} {w w' : World HW} {α β : Type}
  {prelude : V6RequestPrelude}

theorem stable_accounted :
    Stable x s keys conn fun w : World HW => Accounted x s keys conn prelude w := by
  intro w w' hevolves htrace haudit hw
  cases hw with
  | untouched h => exact .untouched (htrace.trans h)
  | unrecorded entry e hintent hquarantined h =>
    exact .unrecorded entry e hintent (hevolves.quarantined _ hquarantined) (htrace.trans h)
  | closed entry e hintent hcarries before tail htold hsettled hclosing h =>
    have hcarries' := lasting_carries w w' hevolves haudit hcarries
    refine .closed entry e hintent hcarries' before tail htold ?_ hclosing (htrace.trans h)
    rcases hsettled with ⟨outcome, hphase, hid, hcarried, htail⟩ | hquarantined
    · have hcarried' := lasting_carries w w' hevolves haudit hcarried
      exact .inl ⟨outcome, hphase, hid, hcarried', htail⟩
    · exact .inr (hevolves.quarantined _ hquarantined)

/-! ## Tasks outside of all timers -/

section Serves

variable (x s keys H)

/-- The task keeps the contract of its connection, and ends where `Q` holds, however it ends. -/
def Serves (conn : Nat) (task : ConnTask HAns α) (Q : World HW → Prop) (w : World HW) : Prop :=
  Runs x s keys H conn task (fun _ w' => Q w') (fun _ w' => Q w') (fun _ w' => Q w') 0 w

end Serves

variable {Q : World HW → Prop} {J : World HW → Prop}

theorem serves_of_calm {task : ConnTask HAns α} (htask : Only IsCalm task)
    (hJ : Stable x s keys conn J) (hw : J w) (hQ : ∀ w', J w' → Q w') :
    Serves x s keys H conn task Q w :=
  (runs_of_calm htask hJ hw).mono (fun _ => hQ) (fun _ => hQ) (fun _ => hQ)

/-- Outside of all timers no timer fires. -/
theorem serves_skip {op : ConnOp HOp} (hop : IsCalm op)
    (hJ : Stable x s keys conn J) (hw : J w) {f : ConnAns HAns op → ConnTask HAns β}
    (hf : ∀ a w', J w' → Serves x s keys H conn (f a) Q w') :
    Serves x s keys H conn (ask op >>= f) Q w :=
  runs_skip hop hJ hw no_timer hf

theorem serves_calm {op : ConnOp HOp} (hop : IsCalm op)
    (hJ : Stable x s keys conn J) (hw : J w) {f : ConnAns HAns op → ConnTask HAns β}
    (hf : ∀ w1 choice a w2, Inv x s w1 → connExec x s keys H w1 op choice = some (a, w2) →
      Calm w1 w2 → J w2 → Serves x s keys H conn (f a) Q w2) :
    Serves x s keys H conn (ask op >>= f) Q w :=
  runs_calm hop hJ hw no_timer hf

/-! ## Calm programs -/

variable {passphrase : String} {task : ConnTask HAns Unit} {choice : ConnChoice HC}

section CalmPrograms

variable {handlers : HandlerContext → Frame → Handler HAns}

/-- A request without a grant leaves nothing in the ledger. -/
theorem calm_handleProfileRequest {frame : Frame} :
    Only IsCalm (handleProfileRequest x handlers prelude frame) := by
  unfold handleProfileRequest
  split
  · exact only_respond IsStill.calm
  · apply Only.bind only_ask
    intro now
    apply Only.bind only_ask
    intro found
    cases found with
    | none => exact only_respond IsStill.calm
    | some entry =>
      apply Only.bind Only.orElseFail
      intro expected
      apply Only.bind Only.require
      intro _
      apply Only.bind Only.orElseFail
      intro _
      apply Only.bind Only.orElseFail
      intro proof
      apply Only.bind Only.orElseFail
      intro _
      apply Only.bind only_ask
      intro now
      apply Only.bind Only.require
      intro _
      apply Only.bind only_ask
      intro quarantined
      split
      · exact only_respond IsStill.calm
      · apply Only.bind only_ask
        intro _
        apply Only.bind (Only.timed (only_handler IsStill.calm))
        intro result
        cases result with
        | some r => exact Only.orElseFail
        | none =>
          apply Only.bind only_ask
          exact fun _ => Only.fail _

end CalmPrograms

/-! ## The end of a request -/

/-- What an operation of the ledger is about. -/
structure Audits (op : GrantAuditOperation) (record : GrantRecord) (prelude : V6RequestPrelude) :
    Prop where
  entry : op.entry = record.entry
  requestId : op.requestId = prelude.requestId

section GrantRequests

variable {op : GrantAuditOperation} {record : GrantRecord} {before : List Event} {e : AuditEvent}
  {frame : Frame} {handlers : HandlerContext → Frame → Handler HAns}

/-- A request without an outcome so far. -/
theorem active_of_pending (hentry : op.entry.index < w.entries)
    (hpending : w.audit op.conn = .pending) (htrace : trace w.history op.conn = before) :
    Active x s keys op before w where
  entry := hentry
  trail := ⟨[], by simpa using htrace, by simp⟩
  pending _ := htrace
  complete h := by simp [hpending] at h
  failed h := by simp [hpending] at h

/-- Once it is settled, an active request is accounted for. -/
theorem accounted_of_settled {start : UInt64} (haudits : Audits op record prelude)
    (htold : Told prelude op.entry (op.intent start) before) (hactive : Active x s keys op before w)
    (hcarries : Carries x s keys op.entry.identity (op.intent start) w)
    (hsettled : Settled x s keys op before w) : Accounted x s keys op.conn prelude w := by
  have hintent : IntentOf prelude (op.intent start) := ⟨rfl, haudits.requestId⟩
  obtain ⟨tail, htrace, hclosing⟩ := hactive.trail
  rcases hsettled with ⟨outcome, hphase, hid, hcarried, hsteps⟩ | hquarantined
  · have hconfirmed : ∀ event ∈ [.attempted op.entry outcome, .appended op.entry outcome],
        Closing op.entry event := by
      simp [Closing, hphase]
    rw [haudits.requestId] at hid
    exact .closed op.entry _ hintent hcarries before _ htold
      (.inl ⟨outcome, hphase, hid, hcarried, rfl⟩) hconfirmed hsteps
  · exact .closed op.entry _ hintent hcarries before tail htold (.inr hquarantined) hclosing
      htrace

/-- An intent in the ledger stays there. -/
theorem carries_evolves {identity : ProfileIdentity} (w w' : World HW)
    (h : Evolves x s keys w w') (hw : Carries x s keys identity e w) :
    Carries x s keys identity e w' :=
  ⟨h.intact identity hw.intact, (h.grows identity).subset hw.mem⟩

/-- A request goes to its handler. -/
theorem runs_dispatch {Q : Unit → World HW → Prop} {E : Error → World HW → Prop}
    {K : Nat → World HW → Prop} {n : Nat} {request : Dispatch} (hauthorized : Authorized x request)
    (hJ : Stable x s keys conn J) (hw : J w)
    (hissued : ∀ w', J w' → request.record ∈ w'.issued)
    (hintent : ∀ w', J w' → (conn, request.record.entry.identity, request.prelude.requestId) ∈
      intents w'.history)
    (hspent : ∀ w', J w' → .spent request.record.index ∈ trace w'.history conn)
    (hfirst : ∀ w', J w' → ∀ request', .dispatched request' ∉ trace w'.history conn)
    (hQ : ∀ w', J w' → Q () (w'.record conn [.dispatched request])) :
    Runs x s keys H conn (ask (.dispatch conn request)) Q E K n w := by
  apply runs_plain hJ hw (fun _ _ => rfl) fun _ choice => by cases choice <;> rfl
  intro w1 hw1 hinv
  refine ⟨?_, ⟨evolves_record _, fun other hother => ⟨trace_record_of_ne hother _, rfl⟩⟩,
    hQ w1 hw1⟩
  exact hinv.recordDispatched (hissued w1 hw1) (hfirst w1 hw1) (hspent w1 hw1) (hintent w1 hw1)
    hauthorized

/-! ## Spending -/

section Spending

variable {Q : Bool → World HW → Prop} {E : Error → World HW → Prop} {K : Nat → World HW → Prop}
  {F : World HW → Prop} {t : List Event}

section

variable (hF : Lasting x s keys conn F) (hissued : ∀ w', F w' → record ∈ w'.issued)
    (hunspent : ∀ i, .spent i ∉ t)
    (hok : ∀ last w', F w' → trace w'.history conn = t ++ [.spent record.index] → Q last w')
    (herror : ∀ err w', F w' → trace w'.history conn = t → E err w')

include hF hissued hunspent hok herror

/-- The loop spends one unit or none. -/
theorem runs_spendFrom {fuel : Nat} :
    ∀ {remaining : Nat} {w : World HW}, F w → trace w.history conn = t →
      Runs x s keys H conn (spendFrom conn record fuel remaining) Q E K 0 w := by
  have hJ : Stable x s keys conn fun w : World HW => F w ∧ trace w.history conn = t :=
    hF.stable.and (stable_trace (T := (· = t)))
  induction fuel with
  | zero =>
    intro remaining w hw ht
    apply wp_seq
    apply runs_ask
    intro w1 _ _
    exact ⟨fun _ a => (nomatch a), no_timer⟩
  | succ fuel ih =>
    intro remaining w hw ht
    unfold spendFrom
    split
    · exact herror _ w hw ht
    · rename_i hpos
      apply wp_seq
      apply runs_ask
      intro w1 hrely hinv
      obtain ⟨hw1, ht1⟩ := hJ w w1 hrely.1 hrely.2.1 hrely.2.2 ⟨hw, ht⟩
      refine ⟨fun choice swapped w2 h => ?_, no_timer⟩
      have hspend : spendExec w1 conn record remaining choice = some (swapped, w2) := h
      unfold spendExec at hspend
      split at hspend
      · split at hspend
        · rename_i hremaining
          cases hspend
          subst hremaining
          have hevolves : Evolves x s keys w1 { w1.record conn [.spent record.index] with
              remaining := Function.update w1.remaining record.index
                (w1.remaining record.index - 1) } :=
            ⟨fun _ h => h, fun _ => prefix_refl _, le_rfl, fun _ h => h,
              prefix_refl _⟩
          refine ⟨?_, ⟨hevolves, fun other hother => ⟨trace_record_of_ne hother _, rfl⟩⟩, ?_⟩
          · apply hinv.recordSpent (hissued w1 hw1) hpos
            rw [ht1]
            exact hunspent
          · apply hok _ _ (hF _ _ hevolves rfl hw1)
            exact (trace_record_self _).trans (congrArg (· ++ _) ht1)
        · cases hspend
      · -- the exchange has failed, and the loop goes on with the value it found
        cases hspend
        exact ⟨hinv, ⟨Evolves.refl _, fun _ _ => ⟨rfl, rfl⟩⟩, ih hw1 ht1⟩
      · cases hspend

theorem runs_spendBudget {fuel : Nat} (hw : F w) (ht : trace w.history conn = t) :
    Runs x s keys H conn (spendBudget fuel conn record) Q E K 0 w := by
  have hJ : Stable x s keys conn fun w : World HW => F w ∧ trace w.history conn = t :=
    hF.stable.and (stable_trace (T := (· = t)))
  unfold spendBudget
  apply runs_skip (by trivial) hJ ⟨hw, ht⟩
  · exact no_timer
  · rintro remaining w' ⟨hw', ht'⟩
    exact runs_spendFrom hF hissued hunspent hok herror hw' ht'

end

end Spending

/-- What is known of a request from its intent to its end. -/
structure Recorded (x : Platform) (s : Serde) (keys : ProfileIdentity → Bytes 32)
    (op : GrantAuditOperation) (record : GrantRecord) (e : AuditEvent) (w : World HW) : Prop where
  carries : Carries x s keys op.entry.identity e w
  issued : record ∈ w.issued
  entry : op.entry.index < w.entries
  pending : w.audit op.conn = .pending

theorem lasting_recorded :
    Lasting x s keys op.conn fun w : World HW => Recorded x s keys op record e w := by
  intro w w' hevolves haudit hw
  constructor
  · exact carries_evolves w w' hevolves hw.carries
  · exact hevolves.issued.subset hw.issued
  · exact Nat.lt_of_lt_of_le hw.entry hevolves.entries
  · exact haudit.trans hw.pending

/-! ## From the request to its intent -/

/-- The intent is recorded, or the profile is quarantined. -/
theorem runs_recordIntent (hs : s.Lawful) {Q : Unit → World HW → Prop}
    {E : Error → World HW → Prop} {K : Nat → World HW → Prop} {F : World HW → Prop}
    (hF : Lasting x s keys op.conn F) (hentry : ∀ w', F w' → op.entry.index < w'.entries)
    (hw : F w) (htrace : trace w.history op.conn = [])
    (hok : ∀ now w', F w' → Carries x s keys op.entry.identity (op.intent now) w' →
      trace w'.history op.conn =
        [.attempted op.entry (op.intent now), .appended op.entry (op.intent now)] → Q () w')
    (herror : ∀ err now w', w'.quarantined op.entry.index = true →
      Unconfirmed op (op.intent now) [] w' → E err w') :
    Runs x s keys H op.conn op.recordIntent Q E K 0 w := by
  have hJ : Stable x s keys op.conn fun w : World HW => F w ∧ trace w.history op.conn = [] :=
    hF.stable.and (stable_trace (T := (· = [])))
  unfold GrantAuditOperation.recordIntent
  apply runs_skip (by trivial) hJ ⟨hw, htrace⟩
  · exact no_timer
  rintro now w1 ⟨hw1, htrace1⟩
  apply wp_attempting
  apply runs_append hs hF (by simp) hw1 htrace1
  · exact fun w2 hw2 hcarries htrace2 => hok now w2 hw2 hcarries htrace2
  · intro err w2 hw2 hunconfirmed
    have hJ2 : Stable x s keys op.conn fun w : World HW =>
        F w ∧ Unconfirmed op (op.intent now) [] w :=
      hF.stable.and (stable_trace
        (T := fun t => t = [] ∨ t = [] ++ [.attempted op.entry (op.intent now)]))
    apply wp_seq
    apply runs_quarantinedStore hJ2 ⟨hw2, hunconfirmed⟩ (fun w' hw' => hentry w' hw'.1)
    rintro w3 ⟨-, hunconfirmed3⟩
    exact herror _ now _ (Function.update_self _ _ _) hunconfirmed3
  · exact no_timer

/-! ## From the intent to the outcome -/

/-- How a request under a grant comes to its end, in a system and under terms in which the
    connection
    can do what it can do anyway: whatever closes the request, once its intent is in the ledger,
    leaves a world where `D` holds.  In between, `Waits` holds. -/
structure Closes (S : ConnSystem HW HAns HC)
    (C : Contract (World HW) (ConnOp HOp)) (x : Platform) (s : Serde)
    (keys : ProfileIdentity → Bytes 32) (H : AsyncSystem HW HOp HAns HC)
    (handlers : HandlerContext → Frame → Handler HAns) (op : GrantAuditOperation)
    (record : GrantRecord) (prelude : V6RequestPrelude) (frame : Frame)
    (Waits : UInt64 → World HW → Prop) (D : World HW → Prop) : Prop where
  lift : ∀ {α : Type} {task : ConnTask HAns α} {Q : α → World HW → Prop}
    {E : Error → World HW → Prop} {K : Nat → World HW → Prop} {n : Nat} {w : World HW},
    Runs x s keys H op.conn task Q E K n w → wp S C task Q E K n w
  stable : Stable x s keys op.conn D
  unconfirmed : ∀ start w, w.quarantined op.entry.index = true →
    Unconfirmed op (op.intent start) [] w → D w
  denied : ∀ start code w (K : Nat → World HW → Prop),
    code ∈ ["grant.budget_exhausted", "quarantine.mutation_denied"] →
    Recorded x s keys op record (op.intent start) w → trace w.history op.conn =
      [.attempted op.entry (op.intent start), .appended op.entry (op.intent start)] →
    wp S C (op.recordDenied x code) (fun _ => D) (fun _ => D) K 0 w
  waits : ∀ start w, Recorded x s keys op record (op.intent start) w → trace w.history op.conn =
    [.attempted op.entry (op.intent start), .appended op.entry (op.intent start),
      .spent record.index, .dispatched ⟨record, prelude, frame⟩] → Waits start w
  handled : ∀ start w (K : Nat → World HW → Prop), Waits start w →
    wp S C (dispatchRootRequest x handlers ⟨record.entry, some op, op.deadline⟩ frame)
      (fun _ => Waits start) (fun _ => Waits start) K 0 w
  finalized : ∀ start w (K : Nat → World HW → Prop), Waits start w →
    wp S C (op.finalizeUnknownIfPending x) (fun _ => D) (fun _ => D) K 0 w

section Closes

variable {S : ConnSystem HW HAns HC}
  {C : Contract (World HW) (ConnOp HOp)} {Waits : UInt64 → World HW → Prop} {D : World HW → Prop}
  {start : UInt64} {fuel : Nat} {grantId : Bytes 16}
  (h : Closes S C x s keys H handlers op record prelude frame Waits D)

include h

theorem Closes.calm (htask : Only IsCalm task) (hw : D w) :
    wp S C task (fun _ => D) (fun _ => D) (fun _ => D) 0 w :=
  h.lift (runs_of_calm htask h.stable hw)

/-- Whatever closes a request may be followed by anything calm. -/
theorem Closes.conclude
    (htask : ∀ K : Nat → World HW → Prop, wp S C task (fun _ => D) (fun _ => D) K 0 w)
    {f : Except Error Unit → ConnTask HAns Unit} (hf : ∀ r, Only IsCalm (f r)) :
    wp S C (attempt task >>= f) (fun _ => D) (fun _ => D) (fun _ => D) 0 w := by
  apply wp_attempting
  apply wp_mono (htask _)
  · exact fun _ w' hw' => h.calm (hf _) hw'
  · exact fun _ w' hw' => h.calm (hf _) hw'
  · exact fun timer w' hw' => hw'

section

variable (haudits : Audits op record prelude) (hauthorized : Authorized x ⟨record, prelude, frame⟩)
    (hw : Recorded x s keys op record (op.intent start) w)

include haudits hauthorized hw

/-- **Dispatch.**  However the handler ends, the outcome is completed. -/
theorem Closes.dispatching
    (htrace : trace w.history op.conn = [.attempted op.entry (op.intent start),
      .appended op.entry (op.intent start), .spent record.index]) :
    wp S C (dispatchGrantRequest x handlers record prelude frame op) (fun _ => D) (fun _ => D)
      (fun _ => D) 0 w := by
  have hJ : Stable x s keys op.conn fun w : World HW =>
      Recorded x s keys op record (op.intent start) w ∧ trace w.history op.conn =
        [.attempted op.entry (op.intent start), .appended op.entry (op.intent start),
          .spent record.index] :=
    lasting_recorded.stable.and (stable_trace (T := (· = _)))
  -- however the handler ends, its outcome is recorded
  have hafter : ∀ (outcome : Except Error Unit) w', Waits start w' → wp S C (do
      let finalization ← attempt (op.finalizeUnknownIfPending x)
      ask (.compatibilityAudit
        (record.compatibilityLine prelude (dispatchedOutcome finalization outcome)))
      check finalization
      check outcome) (fun _ => D) (fun _ => D) (fun _ => D) 0 w' := by
    intro outcome w' hw'
    apply h.conclude fun K => h.finalized start w' K hw'
    intro finalization
    apply Only.bind only_ask
    intro _
    exact Only.bind Only.orElseFail fun _ => Only.orElseFail
  unfold dispatchGrantRequest
  apply wp_seq
  apply h.lift
  apply runs_dispatch hauthorized hJ ⟨hw, htrace⟩
  · exact fun w' hw' => hw'.1.issued
  · rintro w' ⟨-, htrace'⟩
    refine mem_intents.mpr ⟨op.entry, op.intent start, ?_, rfl, ?_, haudits.requestId⟩
    · simp [htrace']
    · rw [haudits.entry]
  · rintro w' ⟨-, htrace'⟩
    simp [htrace']
  · rintro w' ⟨-, htrace'⟩ request'
    simp [htrace']
  · rintro w1 ⟨hw1, htrace1⟩
    have hevolves : Evolves x s keys w1
        (w1.record op.conn [.dispatched ⟨record, prelude, frame⟩]) := evolves_record _
    have hwaits := h.waits start _ (lasting_recorded _ _ hevolves rfl hw1)
      (by rw [trace_record_self, htrace1]; rfl)
    apply wp_attempting
    apply wp_mono (h.handled start _ _ hwaits)
    · exact fun _ w' hw' => hafter _ w' hw'
    · exact fun _ w' hw' => hafter _ w' hw'
    · exact fun timer w' hw' => hw'

/-- **Spend, then dispatch.**  Without a unit the request is denied. -/
theorem Closes.spending (htrace : trace w.history op.conn =
      [.attempted op.entry (op.intent start), .appended op.entry (op.intent start)]) :
    wp S C (spendAndDispatch x handlers fuel grantId record prelude frame op) (fun _ => D)
      (fun _ => D) (fun _ => D) 0 w := by
  have hJ : ∀ t : List Event, Stable x s keys op.conn fun w : World HW =>
      Recorded x s keys op record (op.intent start) w ∧ trace w.history op.conn = t :=
    fun t => lasting_recorded.stable.and (stable_trace (T := (· = t)))
  unfold spendAndDispatch
  apply wp_seq
  apply h.lift
  apply runs_askCalm (by trivial) (hJ _) ⟨hw, htrace⟩ no_timer
  rintro - - spendNow w1 - - - ⟨hw1, htrace1⟩
  apply wp_attempting
  apply h.lift
  apply runs_spendBudget lasting_recorded (fun w' hw' => hw'.issued) (by simp) _ _ hw1 htrace1
  · intro last w2 hw2 htrace2
    apply wp_seq
    apply (wp_onlyIf _ _).mpr
    refine ⟨fun _ => h.lift ?_, fun _ => h.dispatching haudits hauthorized hw2 htrace2⟩
    apply runs_askCalm (by trivial) (hJ _) ⟨hw2, htrace2⟩ no_timer
    exact fun _ _ _ w' _ _ _ hw' => h.dispatching haudits hauthorized hw'.1 hw'.2
  · intro err w2 hw2 htrace2
    apply wp_seq
    apply h.lift
    apply runs_askCalm (by trivial) (hJ _) ⟨hw2, htrace2⟩ no_timer
    rintro - - - w3 - - - ⟨hw3, htrace3⟩
    apply h.conclude fun K => h.denied start _ w3 K (by simp) hw3 htrace3
    intro denied
    apply Only.bind only_ask
    intro _
    cases denied with
    | ok _ => exact only_respondError IsStill.calm
    | error _ => exact only_respond IsStill.calm

end

/-- **A request whose grant accepts it** is closed. -/
theorem Closes.auditing (hs : s.Lawful) (haudits : Audits op record prelude)
    (hauthorized : Authorized x ⟨record, prelude, frame⟩) (hissued : record ∈ w.issued)
    (hentry : op.entry.index < w.entries) (hpending : w.audit op.conn = .pending)
    (htrace : trace w.history op.conn = []) :
    wp S C (auditGrantRequest x handlers fuel grantId record prelude frame op) (fun _ => D)
      (fun _ => D) (fun _ => D) 0 w := by
  have hF : Lasting x s keys op.conn fun w : World HW =>
      (record ∈ w.issued ∧ op.entry.index < w.entries) ∧ w.audit op.conn = .pending :=
    (lasting_issued.and lasting_entry).and (lasting_audit (P := (· = .pending)))
  unfold auditGrantRequest
  apply wp_attempting
  apply h.lift
  apply runs_recordIntent hs hF (fun w' hw' => hw'.1.2)
  · exact ⟨⟨hissued, hentry⟩, hpending⟩
  · exact htrace
  · rintro start w2 ⟨⟨hissued2, hentry2⟩, hpending2⟩ hcarries2 htrace2
    have hJ : Stable x s keys op.conn fun w : World HW =>
        Recorded x s keys op record (op.intent start) w ∧ trace w.history op.conn =
          [.attempted op.entry (op.intent start), .appended op.entry (op.intent start)] :=
      lasting_recorded.stable.and (stable_trace (T := (· = _)))
    apply wp_seq
    apply h.lift
    apply runs_askCalm (by trivial) hJ ⟨⟨hcarries2, hissued2, hentry2, hpending2⟩, htrace2⟩
      no_timer
    rintro - - quarantined w3 - - - ⟨hw3, htrace3⟩
    split
    · apply h.conclude fun K => h.denied start _ w3 K (by simp) hw3 htrace3
      intro denied
      cases denied with
      | ok _ => exact Only.bind only_ask fun _ => only_respond IsStill.calm
      | error _ => exact only_respond IsStill.calm
    · exact h.spending haudits hauthorized hw3 htrace3
  · intro err start w2 hquarantined hunconfirmed
    exact h.calm (Only.bind only_ask fun _ => only_respondError IsStill.calm)
      (h.unconfirmed start w2 hquarantined hunconfirmed)

end Closes

/-- After the handler the request has an outcome, or its profile is quarantined. -/
theorem closes_accounted (hs : s.Lawful) (haudits : Audits op record prelude) :
    Closes (connSystem x s keys H) (connContract x s keys op.conn) x s keys H handlers op record
      prelude frame
      (fun start w => Active x s keys op [.attempted op.entry (op.intent start),
        .appended op.entry (op.intent start), .spent record.index,
        .dispatched ⟨record, prelude, frame⟩] w ∧
          Carries x s keys op.entry.identity (op.intent start) w)
      (Accounted x s keys op.conn prelude) where
  lift h := h
  stable := stable_accounted
  unconfirmed start w hquarantined hunconfirmed := by
    rcases hunconfirmed with htrace | htrace
    · exact .untouched htrace
    · exact .unrecorded op.entry _ ⟨rfl, haudits.requestId⟩ hquarantined htrace
  denied start code w K _ hw htrace := by
    apply runs_of_kept carries_evolves hw.carries
    apply runs_recordOutcome hs (active_of_pending hw.entry hw.pending htrace)
    · exact fun w' hw' hstate hcarries =>
        accounted_of_settled haudits .denied hw' hcarries (.inl (hw'.complete hstate))
    · rintro err w' hw' (hstate | hstate) hcarries
      · exact accounted_of_settled haudits .denied hw' hcarries (.inr (hw'.failed hstate))
      · rw [hw.pending] at hstate
        cases hstate
    · exact no_timer
  waits start w hw htrace := ⟨active_of_pending hw.entry hw.pending htrace, hw.carries⟩
  handled start w K hw := by
    apply runs_of_kept carries_evolves hw.2
    apply (runs_dispatchRootRequest hs hw.1).mono
    · exact fun _ w' hw' hcarries => ⟨hw', hcarries⟩
    · exact fun _ w' hw' hcarries => ⟨hw', hcarries⟩
    · exact fun timer w' h => h
  finalized start w K hw := by
    have htold : Told prelude op.entry (op.intent start) [.attempted op.entry (op.intent start),
        .appended op.entry (op.intent start), .spent record.index,
        .dispatched ⟨record, prelude, frame⟩] :=
      .dispatched ⟨record, prelude, frame⟩ haudits.entry.symm rfl
    apply runs_of_kept carries_evolves hw.2
    apply runs_finalizeUnknownIfPending hs hw.1
    · exact fun w' hw' hsettled hcarries =>
        accounted_of_settled haudits htold hw' hcarries hsettled
    · exact fun err w' hw' hsettled hcarries =>
        accounted_of_settled haudits htold hw' hcarries hsettled
    · exact no_timer

end GrantRequests

/-! ## A connection -/

section Connection

variable {record : GrantRecord} {frame : Frame} {grantId : Bytes 16} {fuel : Nat}
  {handlers : HandlerContext → Frame → Handler HAns}

/-- Nothing has happened yet. -/
theorem stable_untold : Stable x s keys conn fun w : World HW => trace w.history conn = [] :=
  stable_trace (T := (· = []))

/-- A committed root frame, with a prelude that its grant accepts, is authorized. -/
theorem authorized_of_valid {now nowMs : Nat} (hroot : rootOkForRecv x prelude frame = true)
    (hvalid : record.validateRequest x prelude now nowMs = .ok ()) :
    Authorized x ⟨record, prelude, frame⟩ := by
  obtain ⟨hcovers, hprofile, hpossession⟩ := GrantRecord.validateRequest_eq_ok hvalid
  simp only [rootOkForRecv, decide_eq_true_eq] at hroot
  exact ⟨hroot.2, hroot.1, hcovers, hprofile, hpossession⟩

/-- The record was issued for an entry in use, and nothing has happened yet. -/
theorem stable_issued : Stable x s keys conn fun w : World HW =>
    (record ∈ w.issued ∧ record.entry.index < w.entries) ∧ trace w.history conn = [] :=
  (lasting_issued.and lasting_entry).stable.and stable_untold

theorem serves_of_untold (htask : Only IsCalm task) (hw : trace w.history conn = []) :
    Serves x s keys H conn task (Accounted x s keys conn prelude) w :=
  serves_of_calm htask stable_untold hw fun _ h => .untouched h

theorem serves_serveGrantRequest (hs : s.Lawful)
    (hauthorized : Authorized x ⟨record, prelude, frame⟩) (hissued : record ∈ w.issued)
    (hentry : record.entry.index < w.entries) (hw : trace w.history conn = []) :
    Serves x s keys H conn (serveGrantRequest x handlers fuel conn grantId record prelude frame)
      (Accounted x s keys conn prelude) w := by
  unfold serveGrantRequest
  apply wp_requiring _ fun _ => .untouched hw
  intro _
  apply wp_checking _ fun _ _ => .untouched hw
  intro _ _
  apply serves_skip (by trivial) stable_issued ⟨⟨hissued, hentry⟩, hw⟩
  intro now w1 hw1
  apply serves_skip (by trivial) stable_issued hw1
  rintro wallNow w2 ⟨⟨hissued2, hentry2⟩, htrace2⟩
  apply wp_checking _ fun _ _ => .untouched htrace2
  intro deadline _
  have haudits : Audits (.new x conn record prelude deadline) record prelude := ⟨rfl, rfl⟩
  apply wp_seq
  apply runs_auditNew stable_issued ⟨⟨hissued2, hentry2⟩, htrace2⟩ rfl
  rintro w3 ⟨⟨hissued3, hentry3⟩, htrace3⟩
  exact (closes_accounted hs haudits).auditing hs haudits hauthorized hissued3 hentry3
    (Function.update_self _ _ _) htrace3

/-- **A request under a grant.** -/
theorem serves_handleGrantRequest (hs : s.Lawful) (hroot : rootOkForRecv x prelude frame = true)
    (hw : trace w.history conn = []) :
    Serves x s keys H conn (handleGrantRequest x handlers fuel conn grantId prelude frame)
      (Accounted x s keys conn prelude) w := by
  unfold handleGrantRequest
  apply serves_skip (by trivial) stable_untold hw
  intro now w1 hw1
  apply serves_calm (by trivial) stable_untold hw1
  intro w2 choice found w3 hinv h hcalm hw3
  obtain ⟨hfound, -⟩ := plainly_eq_some h
  have hinv3 := hinv.calm hcalm
  cases found with
  | live record =>
    -- the record was issued, for an entry that is in use
    have hissued : record ∈ w3.issued := by
      rw [hcalm.issued]
      exact hinv.live _ (GrantRegistryState.mem_live_lookup hfound.symm)
    have hentry : record.entry.index < w3.entries := hinv3.bound record hissued
    apply serves_skip (by trivial) stable_issued ⟨⟨hissued, hentry⟩, hw3⟩
    intro checkNow w4 hw4
    apply serves_skip (by trivial) stable_issued hw4
    rintro nowMs w5 ⟨⟨hissued5, hentry5⟩, htrace5⟩
    split
    · apply serves_of_untold _ htrace5
      apply Only.bind (Only.onlyIf only_ask)
      intro _
      exact Only.bind only_ask fun _ => only_respondError IsStill.calm
    · apply serves_of_untold _ htrace5
      exact Only.bind only_ask fun _ => only_respondError IsStill.calm
    · rename_i hvalid _
      have hauthorized := authorized_of_valid hroot hvalid
      exact serves_serveGrantRequest hs hauthorized hissued5 hentry5 htrace5
  | exhausted => exact serves_of_untold (only_respond IsStill.calm) hw3
  | expired => exact serves_of_untold (only_respond IsStill.calm) hw3
  | unknown => exact serves_of_untold (only_respond IsStill.calm) hw3

section

variable {E : Error → World HW → Prop} {K : Nat → World HW → Prop} {operations : List String}
    {budget ttlSecs : Nat}

/-- A grant is issued for an entry of the pool, which is in use. -/
theorem runs_issueGrant {profile holderKey : String}
    (hw : trace w.history conn = []) (hE : ∀ err w', trace w'.history conn = [] → E err w') :
    Runs x s keys H conn (issueGrant x prelude profile operations budget ttlSecs holderKey)
      (fun _ w' => trace w'.history conn = []) E K 0 w := by
  have hK : ∀ {J : World HW → Prop}, ∀ timer < 0, ∀ w', J w' → K timer w' :=
    no_timer
  unfold issueGrant
  apply wp_requiring _ fun _ => hE _ w hw
  intro _
  apply wp_checking _ fun err _ => hE err w hw
  intro profileId _
  apply runs_skip (by trivial) stable_untold hw hK
  intro now w1 hw1
  apply runs_calm (by trivial) stable_untold hw1 hK
  intro w2 choice found w3 hinv h hcalm hw3
  obtain ⟨hfound, -⟩ := plainly_eq_some h
  apply wp_checking _ fun err _ => hE err w3 hw3
  intro entry hentry
  rw [orBail_eq_ok] at hentry
  -- what the pool holds is in use
  have hused : entry.index < w3.entries := by
    rw [hentry] at hfound
    have hmem := Table.mem_entries.mpr hfound.symm
    rw [hcalm.entries]
    exact hinv.pool _ (Table.mem_of_mem_keep hmem)
  have hJ : Stable x s keys conn fun w : World HW =>
      entry.index < w.entries ∧ trace w.history conn = [] :=
    lasting_entry.stable.and stable_untold
  apply runs_skip (by trivial) hJ ⟨hused, hw3⟩ hK
  intro nowMs w4 hw4
  apply runs_skip (by trivial) hJ hw4 hK
  intro grantId w5 hw5
  apply wp_checking _ fun err _ => hE err w5 hw5.2
  intro grant _
  apply runs_skip (by trivial) hJ hw5 hK
  intro insertNow w6 hw6
  apply wp_seq
  apply runs_plain hJ hw6 (fun _ _ => rfl) fun _ choice => by cases choice <;> rfl
  rintro w7 ⟨hused7, hw7⟩ hinv7
  have hinsert : Inv x s (insertGrantExec w7 grant entry insertNow).2 ∧
      Evolves x s keys w7 (insertGrantExec w7 grant entry insertNow).2 :=
    hinv7.insertGrant hused7
  have hsame : (insertGrantExec w7 grant entry insertNow).2.history = w7.history ∧
      (insertGrantExec w7 grant entry insertNow).2.audit = w7.audit := by
    unfold insertGrantExec
    split <;> exact ⟨rfl, rfl⟩
  have hw8 : trace (insertGrantExec w7 grant entry insertNow).2.history conn = [] := by
    rw [hsame.1]
    exact hw7
  refine ⟨hinsert.1, ⟨hinsert.2, fun other _ => ⟨by rw [hsame.1], by rw [hsame.2]⟩⟩, ?_⟩
  exact wp_checking (fun _ _ => hw8) fun err _ => hE err _ hw8

/-- The worker of an unlock reads the ledger. -/
theorem unlockWorkerExec_spec (hs : s.Lawful)
    {r : Except Error (Except Error (ProfileIdentity × Bytes 32))}
    (h : unlockWorkerExec x s keys w choice = some (r, w')) :
    w' = w ∨ ∃ identity files, w' = w.setFiles identity files ∧
      Evolves x s keys w (w.setFiles identity files) := by
  obtain rfl | ⟨identity, faults, p, files, hfollow, rfl⟩ := unlockWorkerExec_cases h
  · exact .inl rfl
  · obtain ⟨hintact, hgrows⟩ := Audit.follow_serve hs hfollow
    exact .inr ⟨identity, files, rfl, evolves_setFiles hintact hgrows⟩

/-- An unlocked profile gets an entry of its own. -/
theorem runs_publishEntry {name : String}
    {unlocked : ProfileIdentity × Bytes 32} (hw : trace w.history conn = [])
    (hE : ∀ err w', trace w'.history conn = [] → E err w') :
    Runs x s keys H conn (publishEntry x name unlocked)
      (fun _ w' => trace w'.history conn = []) E K 0 w := by
  have hK : ∀ {J : World HW → Prop}, ∀ timer < 0, ∀ w', J w' → K timer w' :=
    no_timer
  unfold publishEntry
  apply runs_skip (by trivial) stable_untold hw hK
  intro connected w1 hw1
  apply wp_checking _ fun err _ => hE err w1 hw1
  intro _ _
  apply runs_skip (by trivial) stable_untold hw1 hK
  intro unlockedAt w2 hw2
  apply wp_seq
  apply runs_plain stable_untold hw2 (fun _ _ => rfl) fun _ choice => by cases choice <;> rfl
  intro w3 hw3 hinv
  have hunlock : Inv x s (unlockExec w3 unlocked.1 name unlocked.2
        (unlockedAt + credentialLeaseTtl)) ∧
      Evolves x s keys w3 (unlockExec w3 unlocked.1 name unlocked.2
        (unlockedAt + credentialLeaseTtl)) := hinv.unlock
  exact ⟨hunlock.1, ⟨hunlock.2, fun _ _ => ⟨rfl, rfl⟩⟩, hw3⟩

theorem runs_unlockProfile (hs : s.Lawful) (hw : trace w.history conn = [])
    (hE : ∀ err w', trace w'.history conn = [] → E err w') :
    Runs x s keys H conn (unlockProfile x prelude passphrase)
      (fun _ w' => trace w'.history conn = []) E K 0 w := by
  unfold unlockProfile
  apply wp_checking _ fun err _ => hE err w hw
  intro name _
  apply wp_timing
  apply runs_ask
  intro w1 hrely hinv
  have hw1 : trace w1.history conn = [] := hrely.2.1.trans hw
  refine ⟨fun choice r w2 h => ?_, fun timer _ choice w2 h => ?_⟩
  · rcases unlockWorkerExec_spec hs h with rfl | ⟨identity, files, rfl, hevolves⟩
    · refine ⟨hinv, ⟨Evolves.refl _, fun _ _ => ⟨rfl, rfl⟩⟩, ?_⟩
      exact wp_checking (fun _ _ => runs_publishEntry hw1 hE) fun err _ => hE err _ hw1
    · refine ⟨hinv.setFiles hevolves, ⟨hevolves, fun _ _ => ⟨rfl, rfl⟩⟩, ?_⟩
      exact wp_checking (fun _ _ => runs_publishEntry hw1 hE) fun err _ => hE err _ hw1
  · -- the worker was given up
    cases choice <;> cases h
    refine ⟨hinv, ⟨Evolves.refl _, fun _ _ => ⟨rfl, rfl⟩⟩, ?_⟩
    simp only [Nat.not_lt_zero, if_false]
    exact wp_checking (fun _ h => by cases h) fun err _ => hE err _ hw1

/-- The response to a task that leaves nothing in the history leaves nothing there either. -/
theorem serves_attempt {α : Type} {task : ConnTask HAns α} {f : α → Frame}
    (h : Serves x s keys H conn task (fun w' => trace w'.history conn = []) w) :
    Serves x s keys H conn (attempt task >>= respondWith x f)
      (fun w' => trace w'.history conn = []) w := by
  have hrest : ∀ (r : Except Error α) (w' : World HW), trace w'.history conn = [] →
      Serves x s keys H conn (respondWith x f r) (fun w' => trace w'.history conn = []) w' :=
    fun r w' hw' => serves_of_calm (only_respondWith IsStill.calm) stable_untold hw' fun _ h => h
  apply wp_attempting
  apply h.mono
  · exact fun a w' hw' => hrest (.ok a) w' hw'
  · exact fun err w' hw' => hrest (.error err) w' hw'
  · exact fun timer w' h => h

/-- An unlock leaves nothing in the history. -/
theorem serves_unlock (hs : s.Lawful) (hw : trace w.history conn = []) :
    Serves x s keys H conn (attempt (unlockProfile x prelude passphrase) >>=
      respondWith x .profileAuthorized) (fun w' => trace w'.history conn = []) w :=
  serves_attempt (runs_unlockProfile hs hw fun _ _ hw' => hw')

/-- So does a grant that is issued. -/
theorem serves_issueGrant {profile holderKey : String} (hw : trace w.history conn = []) :
    Serves x s keys H conn
      (attempt (issueGrant x prelude profile operations budget ttlSecs holderKey) >>=
        respondWith x grantIssuedFrame) (fun w' => trace w'.history conn = []) w :=
  serves_attempt (runs_issueGrant hw fun _ _ hw' => hw')

theorem serves_handleFrame (hs : s.Lawful) (hroot : rootOkForRecv x prelude frame = true)
    (hw : trace w.history conn = []) :
    Serves x s keys H conn (handleFrame x handlers fuel conn prelude frame)
      (Accounted x s keys conn prelude) w := by
  have hmono : ∀ {task : ConnTask HAns Unit},
      Serves x s keys H conn task (fun w' => trace w'.history conn = []) w →
      Serves x s keys H conn task (Accounted x s keys conn prelude) w :=
    fun h => h.mono (fun _ _ => .untouched) (fun _ _ => .untouched) (fun _ _ => .untouched)
  unfold handleFrame
  split
  · exact hmono (serves_unlock hs hw)
  · exact serves_of_untold (only_listProfiles IsStill.calm) hw
  · exact hmono (serves_issueGrant hw)
  · exact serves_of_untold (only_handleShutdown IsStill.calm) hw
  · split
    · exact serves_handleGrantRequest hs hroot hw
    · exact serves_of_untold calm_handleProfileRequest hw

/-- What is read is the request that the prelude commits to. -/
theorem runs_readAuthenticatedRequest
    (hw : trace w.history conn = []) (hE : ∀ err w', trace w'.history conn = [] → E err w') :
    Runs x s keys H conn (readAuthenticatedRequest prelude)
      (fun frame w' => trace w'.history conn = [] ∧
        ∀ f, frame = some f → rootOkForRecv x prelude f = true) E K 0 w := by
  unfold readAuthenticatedRequest
  apply wp_timing
  apply wp_timing
  apply runs_askCalm (by trivial) stable_untold hw
  · intro timer _ w' hw'
    by_cases houter : timer < 1
    · simp only [houter, if_true, Nat.not_lt_zero, if_false]
      exact ⟨hw', fun f hf => by cases hf⟩
    · simp only [houter, if_false]
      exact hE _ w' hw'
  · intro w1 choice r w2 _ h _ hw2
    obtain ⟨-, hroot⟩ := readRootExec_spec h
    cases r with
    | ok frame =>
      refine ⟨hw2, fun f hf => ?_⟩
      cases hf
      exact hroot frame rfl
    | error err => exact hE _ w2 hw2

end

/-- **A connection** accounts for its request. -/
theorem serves_handleGlobalConn (hs : s.Lawful) (hw : trace w.history conn = []) :
    Serves x s keys H conn (handleGlobalConn x handlers fuel conn prelude)
      (Accounted x s keys conn prelude) w := by
  unfold handleGlobalConn
  apply wp_seq
  apply (runs_readAuthenticatedRequest hw fun err w' hw' => Accounted.untouched hw').mono
  · rintro frame w1 ⟨hw1, hroot⟩
    cases frame with
    | none => exact .untouched hw1
    | some frame => exact serves_handleFrame hs (hroot frame rfl) hw1
  · exact fun err w' h => h
  · exact fun timer w' h => h

end Connection

/-! ## The daemon -/

section Daemon

variable {handlers : HandlerContext → Frame → Handler HAns} {fuel : Nat}

/-- Ledgers that change on their own, and handlers, keep what connections rely on. -/
theorem connEnv_keeps (hs : s.Lawful) (h : connEnv x s keys H w choice = some w') (hw : Inv x s w) :
    Inv x s w' ∧ ∀ conn,
      (connContract x s keys conn : Contract (World HW) (ConnOp HOp)).rely w w' := by
  cases choice <;> simp only [connEnv, reduceCtorEq] at h
  · rename_i identity call faults
    obtain ⟨⟨p, files⟩, hfollow, rfl⟩ := Option.map_eq_some_iff.mp h
    obtain ⟨hintact, hgrows⟩ := Audit.follow_serve hs hfollow
    have hevolves := evolves_setFiles (x := x) (w := w) hintact hgrows
    exact ⟨hw.setFiles hevolves, fun conn => ⟨hevolves, rfl, rfl⟩⟩
  · obtain ⟨handlers, -, rfl⟩ := Option.map_eq_some_iff.mp h
    have hcalm : Calm w { w with handlers := handlers } := { Calm.refl w with }
    exact ⟨hw.calm hcalm, fun conn => ⟨hcalm.evolves, rfl, rfl⟩⟩

/-- A restart keeps the invariant. -/
theorem connCrash_keeps (h : connCrash H w choice = some w') (hw : Inv x s w) : Inv x s w' := by
  cases choice <;> simp only [connCrash, reduceCtorEq] at h
  obtain ⟨handlers, -, rfl⟩ := Option.map_eq_some_iff.mp h
  refine hw.calm { Calm.refl w with
    pool := fun entry hentry => ?_
    live := fun entry hentry => ?_ }
  · cases hentry
  · cases hentry

/-- **All connections of a daemon**, side by side and through restarts. -/
theorem daemonPool_sound (hs : s.Lawful) :
    (daemonPool x handlers s keys H fuel).Sound (Inv x s)
      (fun conn => (connContract x s keys conn).inTimers)
      (fun conn reply w => Accounted x s keys conn reply.1 w) where
  inv_iff _ _ := Iff.rfl
  stable _ _ w w' hrely hw := stable_accounted w w' hrely.1 hrely.2.1 hrely.2.2 hw
  apart _ j _ _ hne hguar := ⟨hguar.1, (hguar.2 j (Ne.symm hne)).1, (hguar.2 j (Ne.symm hne)).2⟩
  env w choice w' h hw := by
    cases choice with
    | go c => exact connEnv_keeps hs h hw
    | fire timer c => cases h
  crash w choice w' h hw := by
    cases choice with
    | go c => exact connCrash_keeps h hw
    | fire timer c => cases h
  launch conn prelude w p h _ := by
    simp only [daemonPool] at h
    split at h
    · rename_i hlaunch
      cases h
      apply Safe.bind_iff.mpr
      have hserves : Serves x s keys H conn (handleGlobalConn x handlers fuel conn prelude)
          (Accounted x s keys conn prelude) w := serves_handleGlobalConn hs hlaunch.2
      apply Safe.mono _ hserves
      intro r w' hr
      cases r <;> exact hr
    · cases h

end Daemon

end Serctl.Daemon
