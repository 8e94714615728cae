import Serctl.Daemon.ConnInvariant

/-!
# Rules for connections

The terms on which a connection runs among others, and what the parts of its program do under
them.  Most operations are calm: they change nothing that a request has a part in, so a program
of calm operations keeps whatever other connections leave alone.
-/

namespace Serctl.Daemon

open Lib Lib.Task Ipc
open Audit (AuditEvent Files Serde journal Intact intentsFor outcomesFor)

variable {HW HOp : Type} {HAns : HOp → Type} {HC : Type}

/-! ## The contract -/

section Contract

variable (x : Platform) (s : Serde) (keys : ProfileIdentity → Bytes 32)

/-- Other connections leave alone what happened to this one's request. -/
def connContract (conn : Nat) : Contract (World HW) (ConnOp HOp) where
  inv := Inv x s
  rely w w' := Evolves x s keys w w' ∧ trace w'.history conn = trace w.history conn ∧
    w'.audit conn = w.audit conn
  guar w w' := Evolves x s keys w w' ∧ ∀ other, other ≠ conn →
    trace w'.history other = trace w.history other ∧ w'.audit other = w.audit other
  ok _ _ := True
  rely_refl w := ⟨Evolves.refl w, rfl, rfl⟩
  rely_trans h h' := ⟨h.1.trans h'.1, h'.2.1.trans h.2.1, h'.2.2.trans h.2.2⟩

variable (H : AsyncSystem HW HOp HAns HC)

/-- The connection's program keeps the contract, with these postconditions for a value, an error
    and a timer. -/
def Runs {α : Type} (conn : Nat) (task : ConnTask HAns α) (Q : α → World HW → Prop)
    (E : Error → World HW → Prop) (K : Nat → World HW → Prop) (n : Nat) (w : World HW) : Prop :=
  wp (connSystem x s keys H) (connContract x s keys conn) task Q E K n w

/-- What other connections leave alone. -/
def Stable (conn : Nat) (J : World HW → Prop) : Prop :=
  ∀ w w', Evolves x s keys w w' → trace w'.history conn = trace w.history conn →
    w'.audit conn = w.audit conn → J w → J w'

/-- What lasts as long as the outcome comes no further. -/
def Lasting (conn : Nat) (J : World HW → Prop) : Prop :=
  ∀ w w', Evolves x s keys w w' → w'.audit conn = w.audit conn → J w → J w'

end Contract

variable {x : Platform} {s : Serde} {keys : ProfileIdentity → Bytes 32}
  {H : AsyncSystem HW HOp HAns HC} {conn n : Nat} {w w' : World HW} {α β : Type}
  {J : World HW → Prop}

theorem Lasting.stable (h : Lasting x s keys conn J) : Stable x s keys conn J :=
  fun w w' hevolves _ haudit => h w w' hevolves haudit

theorem Lasting.and {J' : World HW → Prop} (h : Lasting x s keys conn J)
    (h' : Lasting x s keys conn J') : Lasting x s keys conn fun w => J w ∧ J' w :=
  fun w w' hevolves haudit hw =>
    ⟨h w w' hevolves haudit hw.1, h' w w' hevolves haudit hw.2⟩

theorem Stable.and {J' : World HW → Prop} (h : Stable x s keys conn J)
    (h' : Stable x s keys conn J') : Stable x s keys conn fun w => J w ∧ J' w :=
  fun w w' hevolves htrace haudit hw =>
    ⟨h w w' hevolves htrace haudit hw.1, h' w w' hevolves htrace haudit hw.2⟩

/-- Others do not write this connection's history. -/
theorem stable_trace {T : List Event → Prop} :
    Stable x s keys conn fun w : World HW => T (trace w.history conn) := by
  intro w w' _ htrace _ hw
  rw [htrace]
  exact hw

/-- Issued grants stay issued. -/
theorem lasting_issued {r : GrantRecord} : Lasting x s keys conn fun w : World HW => r ∈ w.issued :=
  fun _ _ hevolves _ hr => hevolves.issued.subset hr

theorem lasting_entry {entry : ProfilePoolEntry} :
    Lasting x s keys conn fun w : World HW => entry.index < w.entries :=
  fun _ _ hevolves _ h => Nat.lt_of_lt_of_le h hevolves.entries

/-- Only the connection moves its audit. -/
theorem lasting_audit {P : AuditState → Prop} :
    Lasting x s keys conn fun w : World HW => P (w.audit conn) := by
  intro w w' _ haudit hw
  rw [haudit]
  exact hw

/-! ## Calm operations -/

/-- The operations that change nothing that a request has a part in. -/
def IsCalm : ConnOp HOp → Prop
  | .insertGrant _ _ _ => False
  | .unlockWorker _ _ => False
  | .insertEntry _ _ _ _ => False
  | .append _ _ _ => False
  | .auditNew _ => False
  | .auditCompareExchange _ _ _ => False
  | .auditStore _ _ => False
  | .quarantinedStore _ => False
  | .remainingCompareExchangeWeak _ _ _ => False
  | .dispatch _ _ => False
  | _ => True

variable {choice : ConnChoice HC}

theorem plainly_eq_some {result : α × World HW} {a : α}
    (h : plainly result choice = some (a, w')) : a = result.1 ∧ w' = result.2 := by
  cases choice <;> cases h
  exact ⟨rfl, rfl⟩

variable {op : ConnOp HOp}

/-- Outside of all timers none fires. -/
theorem no_timer {P : Nat → Prop} : ∀ timer < 0, P timer :=
  fun timer h => absurd h (Nat.not_lt_zero timer)

theorem only_ask (hop : IsCalm op := by exact trivial) :
    Only IsCalm (ask op : ConnTask HAns (ConnAns HAns op)) :=
  Only.call hop

theorem orFails_world {a : α} {r : Except Error α}
    (h : orFails w a choice = some (r, w')) : w' = w := by
  cases choice <;> cases h <;> rfl

theorem workerExec_world {r : Except Error (Except Error Unit)}
    (h : workerExec w choice = some (r, w')) : w' = w := by
  cases choice <;> cases h <;> rfl

/-- The worker of an unlock calls the ledger, or does not come to it. -/
theorem unlockWorkerExec_cases {r : Except Error (Except Error (ProfileIdentity × Bytes 32))}
    (h : unlockWorkerExec x s keys w choice = some (r, w')) :
    w' = w ∨ ∃ identity faults p files, Prog.follow Audit.auditSystem faults
      (Audit.serve x.toCrypto s (ledgerOf keys identity) (.verify none true) ())
        (w.files identity) = some (p, files) ∧ w' = w.setFiles identity files := by
  cases choice <;> simp only [unlockWorkerExec, reduceCtorEq] at h
  · split at h <;> cases h <;> exact .inr ⟨_, _, _, _, ‹_›, rfl⟩
  · cases h
    exact .inl rfl
  · cases h
    exact .inl rfl

/-- A request that is read fits its prelude. -/
theorem readRootExec_spec {prelude : V6RequestPrelude}
    {r : Except Error Frame} (h : readRootExec x w prelude choice = some (r, w')) :
    w' = w ∧ ∀ frame, r = .ok frame → rootOkForRecv x prelude frame = true := by
  cases choice <;> simp only [readRootExec, reduceCtorEq] at h
  · split at h
    · rename_i hok
      cases h
      refine ⟨rfl, fun frame hframe => ?_⟩
      cases hframe
      exact hok
    · cases h
      exact ⟨rfl, fun frame hframe => by cases hframe⟩
  · cases h
    exact ⟨rfl, fun frame hframe => by cases hframe⟩

theorem calm_entryForExec {profileId : Bytes 16} {now : Nat} :
    Calm w (entryForExec w profileId now).2 :=
  { Calm.refl w with pool := fun _ hentry => Table.mem_of_mem_keep hentry }

/-- A calm operation changes nothing that a request has a part in. -/
theorem calm_of_exec (hop : IsCalm op)
    {a : ConnAns HAns op} (h : connExec x s keys H w op choice = some (a, w')) : Calm w w' := by
  cases op with
  | readRoot prelude =>
    obtain ⟨rfl, -⟩ := readRootExec_spec h
    exact Calm.refl _
  | instantNow | unixNow | randomGrantId | shuttingDown =>
    cases choice <;> cases h
    exact Calm.refl _
  | lookup grantId now =>
    obtain ⟨-, rfl⟩ := plainly_eq_some h
    exact { Calm.refl w with live := fun _ => GrantRegistryState.mem_live_pruneLocked }
  | markTerminalIfSame grantId record kind now =>
    obtain ⟨-, rfl⟩ := plainly_eq_some h
    exact { Calm.refl w with live := fun _ => GrantRegistryState.mem_live_markTerminalIfSame }
  | entryFor profileId now =>
    obtain ⟨-, rfl⟩ := plainly_eq_some h
    exact calm_entryForExec
  | listProfiles | verifyShutdown =>
    rw [workerExec_world h]
    exact Calm.refl _
  | writeFrame | connectUnlockedSession =>
    rw [orFails_world h]
    exact Calm.refl _
  | spin => cases a
  | handler op =>
    cases choice <;> simp only [connExec, handlerExec, reduceCtorEq] at h
    obtain ⟨⟨b, handlers⟩, -, heq⟩ := Option.map_eq_some_iff.mp h
    cases heq
    exact { Calm.refl w with }
  | compatibilityAudit | requestShutdown | auditLoad | quarantinedLoad | remainingLoad
  | invalidateSessions | dispatchProfile =>
    obtain ⟨-, rfl⟩ := plainly_eq_some h
    exact Calm.refl _
  | _ => exact hop.elim

/-- Dropping a calm operation is calm. -/
theorem calm_of_drop (hop : IsCalm op) (h : connDrop H w op choice = some w') : Calm w w' := by
  cases op with
  | append | unlockWorker => exact hop.elim
  | handler op =>
    cases choice <;> simp only [connDrop, reduceCtorEq] at h
    obtain ⟨handlers, -, rfl⟩ := Option.map_eq_some_iff.mp h
    exact { Calm.refl w with }
  | connectUnlockedSession | readRoot | listProfiles | verifyShutdown | writeFrame
  | invalidateSessions =>
    cases choice <;> cases h
    exact Calm.refl _
  | _ => cases choice <;> cases h

theorem Calm.stable (h : Calm w w') (hJ : Stable x s keys conn J) (hw : J w) :
    J w' :=
  hJ w w' h.evolves (by rw [h.history]) (by rw [h.audit]) hw

theorem Calm.guar (h : Calm w w') :
    (connContract x s keys conn : Contract (World HW) (ConnOp HOp)).guar w w' :=
  ⟨h.evolves, fun _ _ => ⟨by rw [h.history], by rw [h.audit]⟩⟩

variable {task : ConnTask HAns α}

/-- **Calm programs** keep what other connections leave alone. -/
theorem runs_of_calm (htask : Only IsCalm task) (hJ : Stable x s keys conn J) (hw : J w) :
    Runs x s keys H conn task (fun _ w' => J w') (fun _ w' => J w') (fun _ w' => J w') n w := by
  apply wp_of_only _ _ htask hw
  · exact fun w w' hrely => hJ w w' hrely.1 hrely.2.1 hrely.2.2
  · intro op hop w1 hinv hw1
    refine ⟨trivial, fun choice a w2 h => ?_, fun choice w2 h => ?_⟩
    · have hcalm := calm_of_exec hop h
      exact ⟨Inv.calm hinv hcalm, hcalm.guar, hcalm.stable hJ hw1⟩
    · have hcalm := calm_of_drop hop h
      exact ⟨Inv.calm hinv hcalm, hcalm.guar, hcalm.stable hJ hw1⟩

/-! ## Rules for programs -/

section Rules

variable {Q : β → World HW → Prop} {E : Error → World HW → Prop} {K : Nat → World HW → Prop}

/-- Weakening. -/
theorem Runs.mono {Q Q' : α → World HW → Prop} {E' : Error → World HW → Prop}
    {K' : Nat → World HW → Prop}
    (h : Runs x s keys H conn task Q E K n w) (hQ : ∀ a w', Q a w' → Q' a w')
    (hE : ∀ e w', E e w' → E' e w') (hK : ∀ timer w', K timer w' → K' timer w') :
    Runs x s keys H conn task Q' E' K' n w :=
  wp_mono h hQ hE hK

/-- What never goes back may be used in the postconditions. -/
theorem runs_of_kept {Q : α → World HW → Prop} {P : World HW → Prop}
    (hP : ∀ w w', Evolves x s keys w w' → P w → P w') (hw : P w)
    (h : Runs x s keys H conn task (fun a w' => P w' → Q a w') (fun e w' => P w' → E e w')
      (fun timer w' => P w' → K timer w') n w) : Runs x s keys H conn task Q E K n w :=
  wp_of_kept (fun w w' hrely => hP w w' hrely.1) (fun w w' hguar => hP w w' hguar.1) hw h

/-- One operation: what it does when it is answered, and when one of the timers fires. -/
theorem runs_ask {Q : ConnAns HAns op → World HW → Prop}
    (h : ∀ w1, (connContract x s keys conn : Contract (World HW) (ConnOp HOp)).rely w w1 →
      Inv x s w1 →
      (∀ choice a w2, connExec x s keys H w1 op choice = some (a, w2) →
        Inv x s w2 ∧
          (connContract x s keys conn : Contract (World HW) (ConnOp HOp)).guar w1 w2 ∧
          Q a w2) ∧
      (∀ timer < n, ∀ choice w2, connDrop H w1 op choice = some w2 →
        Inv x s w2 ∧
          (connContract x s keys conn : Contract (World HW) (ConnOp HOp)).guar w1 w2 ∧
          K timer w2)) :
    Runs x s keys H conn (ask op) Q E K n w :=
  (wp_call op).mpr fun w1 hrely hinv => ⟨trivial, h w1 hrely hinv⟩

/-- An operation that is done at once, from what is kept until then. -/
theorem runs_plain {Q : ConnAns HAns op → World HW → Prop}
    {result : World HW → ConnAns HAns op × World HW} (hJ : Stable x s keys conn J) (hw : J w)
    (hexec : ∀ w' choice, connExec x s keys H w' op choice = plainly (result w') choice)
    (hdrop : ∀ w' choice, connDrop H w' op choice = none)
    (hQ : ∀ w', J w' → Inv x s w' → Inv x s (result w').2 ∧
      (connContract x s keys conn : Contract (World HW) (ConnOp HOp)).guar w' (result w').2 ∧
      Q (result w').1 (result w').2) :
    Runs x s keys H conn (ask op) Q E K n w := by
  apply runs_ask
  intro w1 hrely hinv
  have hw1 : J w1 := hJ w w1 hrely.1 hrely.2.1 hrely.2.2 hw
  refine ⟨fun choice a w2 h => ?_, fun timer _ choice w2 h => ?_⟩
  · rw [hexec] at h
    obtain ⟨rfl, rfl⟩ := plainly_eq_some h
    exact hQ w1 hw1 hinv
  · rw [hdrop] at h
    cases h

/-- A calm operation, with what its answer says. -/
theorem runs_askCalm (hop : IsCalm op) {Q : ConnAns HAns op → World HW → Prop}
    (hJ : Stable x s keys conn J) (hw : J w)
    (hK : ∀ timer < n, ∀ w', J w' → K timer w')
    (hQ : ∀ w1 choice a w2, Inv x s w1 → connExec x s keys H w1 op choice = some (a, w2) →
      Calm w1 w2 → J w2 → Q a w2) :
    Runs x s keys H conn (ask op) Q E K n w := by
  apply runs_ask
  intro w1 hrely hinv
  have hw1 : J w1 := hJ w w1 hrely.1 hrely.2.1 hrely.2.2 hw
  refine ⟨fun choice a w2 h => ?_, fun timer ht choice w2 h => ?_⟩
  · have hcalm := calm_of_exec hop h
    exact ⟨Inv.calm hinv hcalm, hcalm.guar,
      hQ w1 choice a w2 hinv h hcalm (hcalm.stable hJ hw1)⟩
  · have hcalm := calm_of_drop hop h
    exact ⟨Inv.calm hinv hcalm, hcalm.guar, hK timer ht w2 (hcalm.stable hJ hw1)⟩

variable {f : ConnAns HAns op → ConnTask HAns β}

section

variable (hop : IsCalm op) (hJ : Stable x s keys conn J) (hw : J w)
    (hK : ∀ timer < n, ∀ w', J w' → K timer w')

include hop hJ hw hK

/-- A calm operation, with what its answer says, and what comes after it. -/
theorem runs_calm
    (hf : ∀ w1 choice a w2, Inv x s w1 → connExec x s keys H w1 op choice = some (a, w2) →
      Calm w1 w2 → J w2 → Runs x s keys H conn (f a) Q E K n w2) :
    Runs x s keys H conn (ask op >>= f) Q E K n w :=
  wp_seq (runs_askCalm hop hJ hw hK hf)

/-- A calm operation whose answer does not matter. -/
theorem runs_skip (hf : ∀ a w', J w' → Runs x s keys H conn (f a) Q E K n w') :
    Runs x s keys H conn (ask op >>= f) Q E K n w :=
  runs_calm hop hJ hw hK fun _ _ a w' _ _ _ hw' => hf a w' hw'

end

end Rules

/-! ## Programs of still operations -/

/-- The calm operations that hand no request to a handler. -/
def IsStill : ConnOp HOp → Prop
  | .dispatchProfile _ _ _ => False
  | op => IsCalm op

theorem IsStill.calm (op : ConnOp HOp) (h : IsStill op) : IsCalm op := by
  cases op <;> first | exact h | exact h.elim

section Still

-- what a program of still operations does is stated for every kind of operations that has them
variable {P : ConnOp HOp → Prop} (hP : ∀ op, IsStill op → P op) {prelude : V6RequestPrelude}

include hP

theorem only_still {op : ConnOp HOp} (hop : IsStill op := by exact trivial) :
    Only P (ask op : ConnTask HAns (ConnAns HAns op)) :=
  Only.call (hP op hop)

/-- What is left to do once the frame is known. -/
theorem only_writeFrame (frame : Frame) (requestDeadline : Nat) :
    Only P (do
      let now ← ask .instantNow
      require (now < requestDeadline) (writeFailure "IPC response write exceeded its deadline")
      let result ← timed (ask (.writeFrame frame))
      check (written result) : ConnTask HAns Unit) := by
  apply Only.bind (only_still hP)
  intro now
  apply Only.bind Only.require
  intro _
  apply Only.bind (Only.timed (only_still hP))
  exact fun _ => Only.orElseFail

theorem only_writeFrameUntil {frame : Frame} {requestDeadline : Nat} :
    Only P (writeFrameUntil x none frame requestDeadline : ConnTask HAns Unit) :=
  Only.bind (Only.pure frame) fun frame => only_writeFrame hP frame requestDeadline

theorem only_respond {frame : Frame} : Only P (respond x frame : ConnTask HAns Unit) := by
  apply Only.bind (only_still hP)
  intro now
  apply Only.bind (only_still hP)
  intro down
  apply Only.bind Only.require
  intro _
  apply Only.bind (Only.timed (only_writeFrameUntil hP))
  exact fun _ => Only.orElseFail

theorem only_respondError {e : Error} : Only P (respondError x e : ConnTask HAns Unit) :=
  only_respond hP

theorem only_respondWith {frame : α → Frame} {r : Except Error α} :
    Only P (respondWith x frame r : ConnTask HAns Unit) := by
  cases r with
  | ok a => exact only_respond hP
  | error e => exact only_respondError hP

/-- A request that nobody audits. -/
theorem only_handler {handler : Handler HAns} : Only P (runHandler x none handler) := by
  intro m
  apply Prog.Only.expand
  rintro ⟨call, m'⟩
  cases call with
  | writeFrameUntil frame requestDeadline =>
    have hattempt : Only P
        (attempt (writeFrameUntil x none frame requestDeadline : ConnTask HAns Unit) :
          Task Empty _ _ _) := Only.attempt (only_writeFrameUntil hP)
    exact (hattempt m').bind fun _ => trivial
  | own op' => exact ⟨hP _ trivial, fun _ => trivial⟩

/-- A shutdown issues only still operations. -/
theorem only_handleShutdown {passphrase : String} :
    Only P (handleShutdown x prelude passphrase : ConnTask HAns Unit) := by
  apply Only.bind Only.orElseFail
  intro profile
  apply Only.bind (Only.timed (only_still hP))
  intro verified
  split
  · exact Only.fail _
  · exact Only.fail _
  · exact Only.fail _
  · exact only_respondError hP
  · apply Only.bind (only_respond hP)
    exact fun _ => only_still hP

theorem only_listProfiles : Only P (do
    let joined ← ask .listProfiles
    let listed ← check (joined.mapError (·.context "join profile catalog worker"))
    respondWith x (fun _ => .profileList) listed : ConnTask HAns Unit) := by
  apply Only.bind (only_still hP)
  intro joined
  exact Only.bind Only.orElseFail fun _ => only_respondWith hP

end Still

end Serctl.Daemon
