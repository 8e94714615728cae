import Serctl.Audit.Json
import Serctl.Audit.LedgerSteps
import Serctl.Lib.Sha256

/-!
# Safety of the ledger

The stored checkpoint is the head of a prefix of the log in every state of every run, the log only
grows, a call without faults repairs a checkpoint that was left behind, and a checkpoint that does
not belong to the log stops every call.
-/

namespace Serctl.Audit

open Lib Lib.Act Lib.Guard List Lib.HashChain VerifiedLog
open Pool (Config good_idle idle)

variable {c : Crypto} {s : Serde} {l : AuditLedger}

/-! ## Calls without faults -/

variable {events : List AuditEvent}

section Steady

variable {α β : Type} {w : Files}

/-- Without faults the operation returns the value and leaves these files. -/
abbrev Ends (x : LedgerIo α) (w : Files) (a : α) (w' : Files) : Prop :=
  steady auditSystem .none x () w = some ((.ok a, ()), w')

theorem steady_io {op : FileOp} {m : String} {v : FileVal op} {w' : Files}
    (h : fileExec w op .none = some (.ok v, w')) :
    Ends (io op m) w v w' := by
  unfold Ends io
  rw [steady_bind (steady_call h)]
  exact steady_orElseFail_ok _ v

variable {a : α}

/-- A check that passes. -/
theorem steady_check {r : Except Error α} {f : α → LedgerIo β} (h : r = .ok a) :
    steady auditSystem .none (lift r >>= f) () w = steady auditSystem .none (f a) () w := by
  subst h
  exact steady_bind (steady_orElseFail_ok id a)

theorem steady_underLock {m m' : String} {body : LedgerIo α} {w' : Files}
    (h : Ends body w a w') :
    Ends (underLock m m' body) w a w' := by
  have hlock : Ends (io .lockLog m) w () w := steady_io rfl
  have hunlock : Ends (io .unlockLog m') w' () w' := steady_io rfl
  unfold Ends underLock
  rw [steady_bind hlock, steady_bind (steady_attempt h), steady_bind (steady_attempt hunlock)]
  rfl

theorem steady_withLog {m1 m2 m3 m4 : String} {body : LedgerIo α} {old : List UInt8}
    {w' : Files} (hlog : w.log = some old)
    (h : Ends body w a w') :
    Ends (withLog m1 m2 m3 m4 body) w a w' := by
  have hopen : Ends (io .openLog m1) w true w := by
    apply steady_io
    simp [fileExec, perform, hlog]
  have hpresent : ensure (true = true) m2 = .ok () := ensure_eq_ok.mpr rfl
  unfold Ends withLog
  rw [steady_bind hopen, steady_check hpresent]
  exact steady_underLock h

theorem steady_readLog {old : List UInt8} {v : VerifiedLog} (hlog : w.log = some old)
    (hold : verifyLog c s l old = .ok v) :
    Ends (readLog c s l) w v w := by
  have hread : Ends (io .readLog "read audit log") w old w := by
    apply steady_io
    simp [fileExec, perform, hlog]
  unfold Ends readLog
  rw [steady_bind hread]
  unfold lift
  rw [hold]
  exact steady_orElseFail_ok id v

theorem steady_readCheckpoint {stored : Option AuditCheckpoint}
    (hstored : parseCheckpoint s w.checkpoint = .ok stored) :
    Ends (readCheckpoint s) w stored w := by
  have hread : Ends (io .readCheckpoint "read audit checkpoint") w w.checkpoint w := steady_io rfl
  unfold Ends readCheckpoint
  rw [steady_bind hread]
  unfold lift
  rw [hstored]
  exact steady_orElseFail_ok id stored

theorem steady_verifyCheckpointAgainstLog {v : VerifiedLog} {checkpoint : AuditCheckpoint}
    {allowLagging : Bool} (hstored : parseCheckpoint s w.checkpoint = .ok (some checkpoint))
    (hon : ensureOnChain c s l v checkpoint = .ok ())
    (hlag : ensureNotLagging v checkpoint allowLagging = .ok ()) :
    Ends (verifyCheckpointAgainstLog c s l v allowLagging) w checkpoint w := by
  have hensured : ensureCheckpoint c s l v allowLagging (some checkpoint) = .ok checkpoint := by
    simp only [ensureCheckpoint, check_eq_ok, pure_eq_ok]
    exact ⟨hon, hlag, trivial⟩
  unfold Ends verifyCheckpointAgainstLog
  rw [steady_bind (steady_readCheckpoint hstored)]
  unfold lift
  rw [hensured]
  exact steady_orElseFail_ok id checkpoint

/-- **Verification** succeeds where the stored checkpoint is the head of the log, the anchor is
    accepted and nothing that matters is pending. -/
theorem steady_verify {checkpoint : AuditCheckpoint} {old : List UInt8}
    {anchor : Option AuditCheckpoint} {requireComplete : Bool}
    (h : AtHead c s l w checkpoint old events)
    (hanchor : verifyExternalAnchor c s l (verifiedOf c s events) checkpoint anchor = .ok ())
    (hcomplete : ensureComplete (verifiedOf c s events) requireComplete = .ok ()) :
    Ends (serve c s l (.verify anchor requireComplete)) w checkpoint w := by
  have hlag : ensureNotLagging (verifiedOf c s events) checkpoint false = .ok () := by
    simp only [ensureNotLagging, Bool.false_eq_true, if_false, ensure_eq_ok]
    refine ⟨?_, ?_⟩
    · rw [h.sequence, sequence_verifiedOf]
    · rw [h.recordHash, recordHash_verifiedOf]
  have hinner : Ends (verifyInternal c s l anchor requireComplete) w
      ⟨(verifiedOf c s events).pendingIntents.length, checkpoint⟩ w := by
    unfold verifyInternal withExistingLog
    apply steady_withLog h.log
    unfold Ends
    rw [steady_bind (steady_readLog h.log h.verified), steady_check hcomplete,
      steady_bind (steady_verifyCheckpointAgainstLog h.stored h.onChain hlag), steady_check hanchor]
    rfl
  unfold Ends serve
  rw [steady_bind hinner]
  rfl

end Steady

/-! ## Sealed files -/

/-- The stored checkpoint is the head of a prefix of the log. -/
def Sealed (c : Crypto) (s : Serde) (l : AuditLedger) (w : Files) : Prop :=
  ∃ old v k, w.log = some old ∧ verifyLog c s l old = .ok v ∧ k ≤ v.sequence ∧
    w.checkpoint = some (s.checkpoint (makeCheckpoint c s l k (v.headAt k)))

variable {w' : Files}

/-- A step keeps the seal. -/
theorem Sealed.step {w : Files} (hstep : LedgerStep c s l w w') (h : Sealed c s l w) :
    Sealed c s l w' := by
  obtain ⟨old, v, k, hlog, hold, hk, hstored⟩ := h
  cases hstep with
  | record old' line v' e hlog' hold' _ hnew =>
    -- the log before is the same, and the earlier heads stay
    cases hlog.symm.trans hlog'
    cases hold.symm.trans hold'
    refine ⟨old ++ line, v.advance c s e, k, rfl, hnew, Nat.le_succ_of_le hk, ?_⟩
    rw [headAt_advance hold hk]
    exact hstored
  | head old' v' hlog' hold' _ =>
    refine ⟨old', v', v'.sequence, hlog', hold', le_rfl, ?_⟩
    rw [headAt_sequence hold']
  | create hnone =>
    rw [hnone] at hlog
    cases hlog
  | reserve hnone =>
    rw [hnone] at hstored
    cases hstored

/-- What the ledger itself may have stored: nothing yet, an empty file, or a seal. -/
def Kept (c : Crypto) (s : Serde) (l : AuditLedger) (w : Files) : Prop :=
  w.checkpoint = none ∨ w.checkpoint = some [] ∨ Sealed c s l w

theorem Kept.step {w : Files} (hstep : LedgerStep c s l w w') (h : Kept c s l w) :
    Kept c s l w' := by
  by_cases hsealed : Sealed c s l w
  · exact .inr (.inr (hsealed.step hstep))
  · cases hstep with
    | record | create => exact h.imp_right (.imp_right fun h' => absurd h' hsealed)
    | head old v hlog hold _ =>
      refine .inr (.inr ⟨old, v, v.sequence, hlog, hold, le_rfl, ?_⟩)
      rw [headAt_sequence hold]
    | reserve => exact .inr (.inl rfl)

/-- The log only grows. -/
def LogGrows (w w' : Files) : Prop := ∀ old, w.log = some old → ∃ more, w'.log = some (old ++ more)

theorem LogGrows.step {w : Files} (hstep : LedgerStep c s l w w') : LogGrows w w' := by
  intro old hold
  cases hstep with
  | record old' line v e hlog _ _ _ =>
    cases hold.symm.trans hlog
    exact ⟨line, rfl⟩
  | head => exact ⟨[], by simp [hold]⟩
  | create hnone =>
    rw [hnone] at hold
    cases hold
  | reserve => exact ⟨[], by simp [hold]⟩

variable {cfg : Pool.Config Unit Files FileOp FileAns LedgerReply}

/-- A relation that every step keeps is kept by every run. -/
theorem run_relates (hs : s.Lawful) {T : Files → Files → Prop} (hrefl : ∀ w, T w w)
    (htrans : ∀ {w1 w2 w3}, T w1 w2 → T w2 w3 → T w1 w3)
    (hstep : ∀ w w', LedgerStep c s l w w' → T w w')
    {cfg' : Config Unit Files FileOp FileAns LedgerReply}
    {ms : List (Pool.Move Unit LedgerCall Fault)}
    (hgood : (ledgerPool c s l).Good (fun _ => True) (fun _ => ledgerContract c s l)
      (fun _ => Replied c s l) cfg)
    (hrun : (ledgerPool c s l).run cfg ms = some cfg') : T cfg.world cfg'.world := by
  apply (ledgerPool_sound hs).run_rel hrefl htrans _ _ _ hrun hgood
  · intro _ w w' hguar
    rcases hguar with hsame | hstep'
    · rw [hsame]
      exact hrefl w
    · exact hstep w w' hstep'
  · intro w fault w' henv
    cases henv
  · intro w fault w' hcrash _
    cases fault with
    | none =>
      have heq : w = w' := Option.some.inj hcrash
      rw [heq]
      exact hrefl w'
    | fail message => cases hcrash
    | late message => cases hcrash

/-! ## Repair -/

section Repair

variable {w : Files} {old : List UInt8} {v : VerifiedLog}

/-- The checkpoint of sealed files reads back, and is on the chain. -/
theorem Sealed.onChain (hs : s.Lawful)
    (h : Sealed c s l w) (hlog : w.log = some old) (hold : verifyLog c s l old = .ok v) :
    OnChain c s l w v := by
  obtain ⟨old', v', k, hlog', hold', hk, hstored⟩ := h
  cases hlog.symm.trans hlog'
  cases hold.symm.trans hold'
  refine ⟨makeCheckpoint c s l k (v.headAt k), ?_, ensureOnChain_makeCheckpoint hk⟩
  rw [hstored]
  exact parseCheckpoint_makeCheckpoint hs _ (Nat.lt_of_le_of_lt hk (verifyLog_bounded hold))

theorem steady_persistCheckpoint {checkpoint : AuditCheckpoint} :
    Ends (persistCheckpoint s false checkpoint) w ()
      { w with checkpoint := some (s.checkpoint checkpoint) } := by
  unfold persistCheckpoint
  exact steady_io rfl

section

variable (hs : s.Lawful) (hlog : w.log = some old) (hold : verifyLog c s l old = .ok v)

include hs hlog hold

/-- **Reconciliation** stores the head of the whole log, if the checkpoint is on its chain. -/
theorem steady_reconcile (h : OnChain c s l w v) :
    ∃ checkpoint w' events,
      Ends (reconcile c s l) w checkpoint w' ∧
        w'.log = w.log ∧ AtHead c s l w' checkpoint old events := by
  obtain ⟨prior, hprior, hon⟩ := h
  have hrepairable : ensureRepairable c s l v (some prior) = .ok () := hon
  have hlog' : ({ w with checkpoint := some (s.checkpoint
      (makeCheckpoint c s l v.sequence v.recordHash)) } : Files).log = some old := hlog
  obtain ⟨events, -, hhead⟩ := atHead_of_stored hs hlog' hold (verifyLog_bounded hold) rfl
  refine ⟨_, _, events, ?_, ?_, hhead⟩
  · unfold reconcile withExistingLog
    apply steady_withLog hlog
    unfold Ends
    rw [steady_bind (steady_readLog hlog hold), steady_bind (steady_readCheckpoint hprior),
      steady_check hrepairable, steady_bind steady_persistCheckpoint]
    rfl
  · rfl

/-- What lets an append through. -/
structure Takes (c : Crypto) (s : Serde) (l : AuditLedger) (v : VerifiedLog) (old : List UInt8)
    (e : AuditEvent) : Prop where
  admitted : Admitted l e
  phase : v.ensurePhase e "audit Intent request id was already used" = .ok ()
  bounded : v.sequence + 1 < 2 ^ 64
  record : (s.record (nextRecord c s l v e)).length ≤ maxAuditRecordBytes
  log : old.length + ((s.record (nextRecord c s l v e)).length + 1) ≤ maxAuditLogBytes

/-- An append runs through if it is let through, the stored checkpoint passes its check and the new
    one can be stored. -/
theorem steady_appendLocked {createNew : Bool} {e : AuditEvent} (htakes : Takes c s l v old e)
    (hchecked : Ends (checkStored c s l v createNew) w () w)
    (hpersist : ∀ w' checkpoint, w'.checkpoint = w.checkpoint →
      Ends (persistCheckpoint s createNew checkpoint) w' ()
        { w' with checkpoint := some (s.checkpoint checkpoint) }) :
    ∃ checkpoint w' events,
      Ends (appendLockedWithCheckpointMode c s l e createNew) w checkpoint w' ∧
      AtHead c s l w' checkpoint (old ++ nextLine c s l v e)
        (events ++ [e]) ∧ logEvents s old = some events := by
  have hbounded : ensure (v.sequence + 1 < 2 ^ 64) "audit sequence overflow" = .ok () :=
    ensure_eq_ok.mpr htakes.bounded
  have hrecord : ensure ((s.record (nextRecord c s l v e)).length ≤ maxAuditRecordBytes)
      "audit record exceeds its size limit" = .ok () := ensure_eq_ok.mpr htakes.record
  have hlength : ensure (old.length + ((s.record (nextRecord c s l v e)).length + 1) ≤
      maxAuditLogBytes) "audit log reached its configured size limit" = .ok () :=
    ensure_eq_ok.mpr htakes.log
  have hlen : Ends (io .logLen "inspect audit log") w old.length w := by
    apply steady_io
    simp [fileExec, perform, hlog]
  -- the files after the record, and then after the checkpoint
  have hwrite : steady auditSystem .none
      (io (.appendLog (nextLine c s l v e)) "append audit record") () w =
      some ((.ok (), ()), { w with
        log := some (old ++ nextLine c s l v e) }) := by
    apply steady_io
    simp [fileExec, hlog]
  have hsync : ∀ w', Ends (io .syncLog "sync audit record") w' () w' := fun _ => steady_io rfl
  have hparent : ∀ w', Ends (onlyIf (createNew = true)
      (io .syncParent "sync new authenticated audit log directory entry")) w' () w' := by
    intro w'
    cases createNew with
    | true => exact steady_io rfl
    | false => rfl
  have hnew := verifyLog_append hs hold htakes.admitted htakes.phase htakes.bounded htakes.record
    htakes.log
  obtain ⟨events, hhead, hevents⟩ := atHead_of_appended (w := ⟨some (old ++
      nextLine c s l v e), some (s.checkpoint (makeCheckpoint c s l
        (v.sequence + 1) (v.advance c s e).recordHash))⟩)
    hs hold htakes.admitted htakes.bounded rfl hnew rfl
  have hstore := hpersist { w with
    log := some (old ++ nextLine c s l v e) }
    (makeCheckpoint c s l (v.sequence + 1) (v.advance c s e).recordHash) rfl
  refine ⟨_, _, events, ?_, hhead, hevents⟩
  unfold Ends appendLockedWithCheckpointMode
  rw [steady_bind (steady_readLog hlog hold), steady_bind hchecked, steady_check htakes.phase,
    steady_check hbounded, steady_check hrecord, steady_bind hlen, steady_check hlength,
    steady_bind hwrite, steady_bind (hsync _), steady_bind (hparent _), steady_bind hstore]
  rfl

/-- **The next append** stores the head of the whole log as well. -/
theorem steady_append {e : AuditEvent} (h : OnChain c s l w v) (htakes : Takes c s l v old e) :
    ∃ checkpoint w' events,
      Ends (append c s l e) w checkpoint w' ∧
      AtHead c s l w' checkpoint (old ++ nextLine c s l v e)
        (events ++ [e]) ∧ logEvents s old = some events := by
  obtain ⟨prior, hprior, hon⟩ := h
  have hidentity : ensureIdentity l e "audit event profile identity mismatch" = .ok () :=
    ensure_eq_ok.mpr htakes.admitted.identity
  have hlag : ensureNotLagging v prior true = .ok () := rfl
  have hchecked : Ends (checkStored c s l v false) w () w := by
    unfold Ends checkStored
    simp only [Bool.false_eq_true, if_false]
    rw [steady_bind (steady_verifyCheckpointAgainstLog hprior hon hlag)]
    rfl
  obtain ⟨checkpoint, w', events, hrun, hhead, hevents⟩ :=
    steady_appendLocked hs hlog hold htakes hchecked fun _ _ _ => steady_persistCheckpoint
  refine ⟨checkpoint, w', events, ?_, hhead, hevents⟩
  unfold Ends append withExistingLog
  rw [steady_check htakes.admitted.valid, steady_check hidentity]
  exact steady_withLog hlog hrun

end

/-- **Starting a generation** on empty files succeeds. -/
theorem steady_initializeGeneration (hs : s.Lawful) {oldName newName : String}
    {atUnixMs : UInt64} {predecessor : Option AuditCheckpoint} (hat : 0 < atUnixMs)
    (hold : validateTransitionName oldName "old profile name" = .ok ())
    (hnew : validateTransitionName newName "new profile name" = .ok ())
    (hrecord : (s.record (nextRecord c s l {} (generationTransitionEvent c s l predecessor oldName
      newName atUnixMs))).length ≤ maxAuditRecordBytes) :
    ∃ checkpoint w',
      Ends (initializeGeneration c s l predecessor oldName newName atUnixMs) ⟨none, none⟩
        checkpoint w' ∧
      AtHead c s l w' checkpoint
        (s.record (nextRecord c s l {} (generationTransitionEvent c s l predecessor oldName newName
          atUnixMs)) ++ [newline])
        [generationTransitionEvent c s l predecessor oldName newName atUnixMs] := by
  have hadmitted : Admitted l (generationTransitionEvent c s l predecessor oldName newName
      atUnixMs) := admitted_generationTransitionEvent hat
  have hempty : verifyLog c s l [] = .ok {} := by
    simp only [verifyLog, check_eq_ok, ensure_eq_ok]
    exact ⟨Nat.zero_le _, rfl⟩
  have htakes : Takes c s l {} [] (generationTransitionEvent c s l predecessor oldName newName
      atUnixMs) := by
    refine ⟨hadmitted, rfl, show (0 : Nat) + 1 < 2 ^ 64 by decide, hrecord, ?_⟩
    simp only [length_nil, maxAuditRecordBytes, maxAuditLogBytes] at hrecord ⊢
    omega
  have hchecked : Ends (checkStored c s l {} true) ⟨some [], none⟩ () ⟨some [], none⟩ := rfl
  have hpersist : ∀ w' checkpoint, w'.checkpoint = none →
      Ends (persistCheckpoint s true checkpoint) w' ()
        { w' with checkpoint := some (s.checkpoint checkpoint) } := by
    intro w' checkpoint hnone
    obtain ⟨log, stored⟩ := w'
    subst hnone
    rfl
  -- the append to the empty log
  obtain ⟨checkpoint, w', events, hrun, hhead, hevents⟩ :=
    steady_appendLocked hs rfl hempty htakes hchecked hpersist
  have hnil : events = [] := by
    have hnone : logEvents s [] = some [] := rfl
    exact Option.some.inj (hevents.symm.trans hnone)
  subst hnil
  refine ⟨checkpoint, w', ?_, hhead⟩
  have hidentity : ensureIdentity l (generationTransitionEvent c s l predecessor oldName newName
      atUnixMs) "audit initialization event profile identity mismatch" = .ok () :=
    ensure_eq_ok.mpr hadmitted.identity
  have hlog : steady auditSystem .none
      (io .openLog "inspect audit log before generation initialization") () ⟨none, none⟩ =
      some ((.ok false, ()), ⟨none, none⟩) := steady_io rfl
  have hstored : ∀ m, Ends (io .readCheckpoint m) ⟨none, none⟩ none ⟨none, none⟩ :=
    fun _ => steady_io rfl
  have hcreate : Ends (io .createLog "create new protected audit log") ⟨none, none⟩ ()
      ⟨some [], none⟩ := steady_io rfl
  have hat' : ensure (0 < atUnixMs) "audit initialization timestamp must be non-zero" = .ok () :=
    ensure_eq_ok.mpr hat
  have hnone : ensure ((none : Option (List UInt8)) = none) "audit checkpoint already exists" =
      .ok () := ensure_eq_ok.mpr rfl
  -- and what comes before it
  unfold Ends initializeGeneration
  rw [steady_check hat', steady_check hold, steady_check hnew, steady_bind hlog,
    steady_bind (hstored _)]
  show steady auditSystem .none (initializeCreateNew c s l _) () ⟨none, none⟩ = _
  unfold initializeCreateNew
  rw [steady_check hadmitted.valid, steady_check hidentity, steady_bind (hstored _),
    steady_check hnone, steady_bind hcreate]
  exact steady_underLock hrun

end Repair

/-! ## Checkpoints that do not belong to the log -/

/-- The checkpoint is the head of a history. -/
def HeadOf (c : Crypto) (s : Serde) (checkpoint : AuditCheckpoint) (history : List AuditEvent) :
    Prop :=
  checkpoint.sequence = history.length ∧
    checkpoint.recordHash = Text.hexEncode (head (auditChain c s) history).val

/-- The checkpoint is ahead of the log, has another hash than the log has there, or is the head of
    a history that the log does not start with. -/
def Foreign (c : Crypto) (s : Serde) (l : AuditLedger) (events : List AuditEvent)
    (checkpoint : AuditCheckpoint) : Prop :=
  events.length < checkpoint.sequence ∨
  checkpoint.recordHash ≠ Text.hexEncode
    (head (auditChain c s) (events.take checkpoint.sequence)).val ∨
  ∃ history, HeadOf c s checkpoint history ∧ ¬history <+: events ∧
    (∀ e ∈ history, Admitted l e) ∧
    HashChain.CollisionFreeOn c.sha256 (messages (auditChain c s) history ++
      messages (auditChain c s) events)

variable {checkpoint : AuditCheckpoint}

/-- A checkpoint on the chain of the log is not foreign. -/
theorem not_foreign_of_onChain (hs : s.Lawful) {old : List UInt8}
    (hold : verifyLog c s l old = .ok (verifiedOf c s events))
    (hevents : logEvents s old = some events)
    (hon : ensureOnChain c s l (verifiedOf c s events) checkpoint = .ok ()) :
    ¬Foreign c s l events checkpoint := by
  simp only [ensureOnChain, check_eq_ok, ensure_eq_ok, sequence_verifiedOf] at hon
  obtain ⟨-, hle, hhash⟩ := hon
  obtain ⟨events', hevents', -, hadmitted⟩ := verifyLog_spec hold
  cases hevents.symm.trans hevents'
  intro hforeign
  rcases hforeign with hahead | hdiffers | ⟨history, hhead, hother, hhistory, hfree⟩
  · exact absurd hle (Nat.not_le_of_lt hahead)
  · apply hdiffers
    rw [← hhash, headAt_verifiedOf c s events _ hle]
  · -- the same hash at the same length, so the log starts with the history
    apply hother
    apply events_prefix_of_head hs hhistory hadmitted hfree
    · rw [← hhead.1]
      exact hle
    · have hspelled := hhash.trans hhead.2
      rw [hhead.1] at hspelled
      rw [recordHash_verifiedOf]
      exact Subtype.ext (Text.hexEncode_injective hspelled)

/-- No call changes the files, and none returns anything but an error. -/
def Refuses (c : Crypto) (s : Serde) (l : AuditLedger) (w : Files) : Prop :=
  ∀ ms cfg, (ledgerPool c s l).run (Pool.idle w) ms = some cfg →
    cfg.world = w ∧ ∀ call r, cfg.threads () = some (.ret (call, r)) → ∃ e, r = .error e

/-- **Foreign checkpoints** stop every call. -/
theorem refuses_of_foreign (hs : s.Lawful) {w : Files} {old : List UInt8} (hlog : w.log = some old)
    (hold : verifyLog c s l old = .ok (verifiedOf c s events))
    (hevents : logEvents s old = some events)
    (hstored : parseCheckpoint s w.checkpoint = .ok (some checkpoint))
    (hforeign : Foreign c s l events checkpoint) : Refuses c s l w := by
  -- whatever is found on the chain of this log is not this checkpoint
  have hnever : ∀ {v}, verifyLog c s l old = .ok v → ¬OnChain c s l w v := by
    intro v hv hon
    cases hold.symm.trans hv
    obtain ⟨found, hfound, hon⟩ := hon
    cases hstored.symm.trans hfound
    exact not_foreign_of_onChain hs hold hevents hon hforeign
  have hsome : w.checkpoint ≠ none ∧ w.checkpoint ≠ some [] := by
    refine ⟨fun he => ?_, fun he => ?_⟩
    · rw [he] at hstored
      cases hstored
    · rw [he] at hstored
      simp only [parseCheckpoint, check_eq_ok, hs.parse_nil] at hstored
      cases hstored.2
  have hstuck : ∀ w', ¬LedgerStep c s l w w' := by
    intro w' hstep
    cases hstep with
    | record old' line v e hlog' hold' hchain _ =>
      cases hlog.symm.trans hlog'
      rcases hchain with hon | hnone
      · exact hnever hold' hon
      · exact hsome.1 hnone
    | head old' v hlog' hold' hchain =>
      cases hlog.symm.trans hlog'
      rcases hchain with hon | hnone | hempty
      · exact hnever hold' hon
      · exact hsome.1 hnone
      · exact hsome.2 hempty
    | create hnone =>
      rw [hnone] at hlog
      cases hlog
    | reserve hnone => exact hsome.1 hnone
  intro ms cfg hrun
  have hgood : (ledgerPool c s l).Good (fun _ => True) (fun _ => ledgerContract c s l)
      (fun _ => Replied c s l) (idle w) := good_idle trivial
  have hsame : cfg.world = w := by
    apply run_relates hs (T := fun w1 w2 => w1 = w → w2 = w) (fun _ h => h)
      (fun h h' heq => h' (h heq)) _ hgood hrun rfl
    intro w1 w2 hstep heq
    subst heq
    exact absurd hstep (hstuck w2)
  refine ⟨hsame, ?_⟩
  intro call r hreturned
  have hreplied : Replied c s l (call, r) cfg.world :=
    ((ledgerPool_sound hs).run_good hrun hgood).post_of_ret hreturned
  cases r with
  | error e => exact ⟨e, rfl⟩
  | ok found =>
    obtain ⟨old', events', hhead, -⟩ := hreplied found rfl
    rw [hsame] at hhead
    cases hlog.symm.trans hhead.log
    exact absurd ⟨found, hhead.stored, hhead.onChain⟩ (hnever hhead.verified)

/-- A call that succeeds on its own is a run. -/
theorem run_call {call : LedgerCall}
    (hfree : cfg.threads () = none ∨ ∃ r, cfg.threads () = some (.ret r))
    (h : Ends (serve c s l call) cfg.world checkpoint w') :
    ∃ ms cfg', (ledgerPool c s l).run cfg ms = some cfg' ∧ cfg'.world = w' ∧
      cfg'.threads () = some (.ret (call, .ok checkpoint)) := by
  -- an idle pool with the same files
  obtain ⟨ms0, cfg0, hrun0, hworld0, hidle⟩ : ∃ ms0 cfg0,
      (ledgerPool c s l).run cfg ms0 = some cfg0 ∧ cfg0.world = cfg.world ∧
        cfg0.threads () = none := by
    rcases hfree with hnone | ⟨r, hr⟩
    · exact ⟨[], cfg, rfl, rfl, hnone⟩
    · refine ⟨[.finish ()], ⟨cfg.world, Function.update cfg.threads () none⟩, ?_, rfl, ?_⟩
      · simp [Pool.run, Pool.move, hr]
      · simp
  have hstart : (ledgerPool c s l).move cfg0 (.start () call) =
      some ⟨cfg0.world, Function.update cfg0.threads () (some (reply c s l call))⟩ := by
    simp [Pool.move, hidle, ledgerPool]
  have hsteady : (reply c s l call).steadily auditSystem .none cfg0.world =
      some ((call, .ok checkpoint), w') := by
    unfold reply
    rw [Prog.steadily_bind, hworld0]
    unfold Ends steady at h
    rw [h]
    rfl
  have hthread : (⟨cfg0.world, Function.update cfg0.threads () (some (reply c s l call))⟩ :
      Config Unit Files FileOp FileAns LedgerReply).threads () =
        some (reply c s l call) := Function.update_self () _ cfg0.threads
  obtain ⟨ms, cfg', hrun, hworld, hret⟩ :=
    (ledgerPool c s l).run_steadily hthread hsteady
  refine ⟨ms0 ++ .start () call :: ms, cfg', ?_, hworld, hret⟩
  rw [Pool.run_append, hrun0]
  show ((ledgerPool c s l).move cfg0 (.start () call)).bind _ = _
  rw [hstart]
  exact hrun

theorem run_call_idle {w : Files} {call : LedgerCall}
    (h : Ends (serve c s l call) w checkpoint w') :
    ∃ ms cfg, (ledgerPool c s l).run (idle w) ms = some cfg ∧ cfg.world = w' ∧
      cfg.threads () = some (.ret (call, .ok checkpoint)) := by
  have hidle : (idle w : Config Unit Files FileOp FileAns LedgerReply).threads () = none := rfl
  exact run_call (.inl hidle) h

/-! ## The two results -/

/-- Verification without faults returns the checkpoint. -/
def VerifiesAs (c : Crypto) (s : Serde) (l : AuditLedger) (w : Files)
    (checkpoint : AuditCheckpoint) : Prop :=
  steady auditSystem .none (serve c s l (.verify none false)) () w = some ((.ok checkpoint, ()), w)

/-- **The ledger is safe in every run** after a generation was started, whatever calls are made
    and wherever they fail or are stopped:

    - the stored checkpoint is the head of a prefix of the verified log;
    - reconciliation without faults brings it to the full head and verification then succeeds;
    - so does the next append without faults;
    - a call that has returned a checkpoint has stored the full head, and the last event is the
      one that was appended;
    - the log only grows, and its events are those before, and new ones;
    - with a checkpoint that does not belong to the log every call fails and changes nothing. -/
theorem ledger_runs_stay_sealed (hs : s.Lawful)
    {ms₀ ms₁ ms₂ : List (Pool.Move Unit LedgerCall Fault)}
    {cfg₀ cfg₁ cfg₂ : Pool.Config Unit Files FileOp FileAns LedgerReply}
    {predecessor : Option AuditCheckpoint} {oldName newName : String} {atUnixMs : UInt64}
    {checkpoint₀ : AuditCheckpoint}
    (h₀ : (ledgerPool c s l).run (Pool.idle ⟨none, none⟩) ms₀ = some cfg₀)
    (hinit : cfg₀.threads () = some (.ret
      (.initializeGeneration predecessor oldName newName atUnixMs, .ok checkpoint₀)))
    (h₁ : (ledgerPool c s l).run cfg₀ ms₁ = some cfg₁)
    (h₂ : (ledgerPool c s l).run cfg₁ ms₂ = some cfg₂) :
    (∃ old v k, cfg₁.world.log = some old ∧ verifyLog c s l old = .ok v ∧ k ≤ v.sequence ∧
      cfg₁.world.checkpoint = some (s.checkpoint (makeCheckpoint c s l k (v.headAt k)))) ∧
    (∃ checkpoint w' old events,
      steady auditSystem .none (reconcile c s l) () cfg₁.world = some ((.ok checkpoint, ()), w') ∧
        w'.log = cfg₁.world.log ∧ AtHead c s l w' checkpoint old events ∧
        VerifiesAs c s l w' checkpoint) ∧
    (∀ old v e, cfg₁.world.log = some old → verifyLog c s l old = .ok v →
      Takes c s l v old e → ∃ checkpoint w' new events,
        steady auditSystem .none (append c s l e) () cfg₁.world =
          some ((.ok checkpoint, ()), w') ∧
        AtHead c s l w' checkpoint new (events ++ [e]) ∧ VerifiesAs c s l w' checkpoint) ∧
    (∀ call checkpoint, cfg₁.threads () = some (.ret (call, .ok checkpoint)) →
      VerifiesAs c s l cfg₁.world checkpoint ∧
      ∃ old events, AtHead c s l cfg₁.world checkpoint old events ∧
        ∀ e, call = .append e → events.getLast? = some e) ∧
    (∃ old more events all, cfg₁.world.log = some old ∧ cfg₂.world.log = some (old ++ more) ∧
      logEvents s old = some events ∧ logEvents s (old ++ more) = some all ∧ events <+: all) ∧
    (∀ w old events checkpoint, w.log = some old →
      verifyLog c s l old = .ok (verifiedOf c s events) → logEvents s old = some events →
      parseCheckpoint s w.checkpoint = .ok (some checkpoint) →
      Foreign c s l events checkpoint → Refuses c s l w) := by
  have hgood := (ledgerPool_sound (c := c) (l := l) hs).run_good h₀ (good_idle trivial)
  have hgood1 := (ledgerPool_sound (c := c) (l := l) hs).run_good h₁ hgood
  -- the first seal: only the ledger has stored anything, and the call has found a checkpoint
  have hkept : Kept c s l cfg₀.world := by
    apply run_relates hs (T := fun w w' => Kept c s l w → Kept c s l w') (fun _ h => h)
      (fun h h' hw => h' (h hw)) (fun w w' hstep h => h.step hstep) (good_idle trivial) h₀
    exact .inl rfl
  obtain ⟨old0, events0, hhead0, -⟩ := hgood.post_of_ret hinit checkpoint₀ rfl
  have hsealed0 : Sealed c s l cfg₀.world := by
    rcases hkept with hnone | hempty | hsealed
    · have hstored := hhead0.stored
      rw [hnone] at hstored
      cases hstored
    · have hstored := hhead0.stored
      rw [hempty] at hstored
      simp only [parseCheckpoint, check_eq_ok, hs.parse_nil] at hstored
      cases hstored.2
    · exact hsealed
  have hkeeps : ∀ w w', LedgerStep c s l w w' → Sealed c s l w → Sealed c s l w' :=
    fun w w' hstep h => h.step hstep
  have hsealed1 : Sealed c s l cfg₁.world :=
    run_relates hs (T := fun w w' => Sealed c s l w → Sealed c s l w') (fun _ h => h)
      (fun h h' hw => h' (h hw)) hkeeps hgood h₁ hsealed0
  have hsealed2 : Sealed c s l cfg₂.world :=
    run_relates hs (T := fun w w' => Sealed c s l w → Sealed c s l w') (fun _ h => h)
      (fun h h' hw => h' (h hw)) hkeeps hgood1 h₂ hsealed1
  have hgrows : LogGrows cfg₁.world cfg₂.world := by
    apply run_relates hs _ _ (fun w w' hstep => LogGrows.step hstep) hgood1 h₂
    · exact fun w old hold => ⟨[], by rw [append_nil, hold]⟩
    · intro w1 w2 w3 h h' old hold
      obtain ⟨more, hmore⟩ := h old hold
      obtain ⟨more', hmore'⟩ := h' _ hmore
      exact ⟨more ++ more', by rw [hmore', append_assoc]⟩
  refine ⟨hsealed1, ?_, ?_, ?_, ?_, ?_⟩
  · obtain ⟨old, v, -, hlog, hold, -, -⟩ := id hsealed1
    obtain ⟨checkpoint, w', events, hrun, hsame, hhead⟩ :=
      steady_reconcile hs hlog hold (hsealed1.onChain hs hlog hold)
    exact ⟨checkpoint, w', old, events, hrun, hsame, hhead, steady_verify hhead rfl rfl⟩
  · intro old v e hlog hold htakes
    obtain ⟨checkpoint, w', events, hrun, hhead, -⟩ :=
      steady_append hs hlog hold (hsealed1.onChain hs hlog hold) htakes
    exact ⟨checkpoint, w', _, events, hrun, hhead, steady_verify hhead rfl rfl⟩
  · intro call checkpoint hreturned
    obtain ⟨old, events, hhead, hcall⟩ := hgood1.post_of_ret hreturned checkpoint rfl
    refine ⟨steady_verify hhead rfl rfl, old, events, hhead, ?_⟩
    intro e he
    have hcall' : call = .append e := he
    subst hcall'
    exact hcall
  · obtain ⟨old, v, -, hlog, hold, -, -⟩ := hsealed1
    obtain ⟨old2, v2, -, hlog2, hold2, -, -⟩ := hsealed2
    obtain ⟨more, hmore⟩ := hgrows old hlog
    cases hlog2.symm.trans hmore
    obtain ⟨events, hevents, -, -⟩ := verifyLog_spec hold
    obtain ⟨all, hall, -, -⟩ := verifyLog_spec hold2
    exact ⟨old, more, events, all, hlog, hmore, hevents, hall,
      logEvents_prefix (verifyLog_end hold) hevents hall⟩
  · intro w old events checkpoint hlog hold hevents hstored hforeign
    exact refuses_of_foreign hs hlog hold hevents hstored hforeign

/-! ## A ledger

A ledger of a profile called `edge`, with SHA-256 and HMAC-SHA-256: its first record starts the
generation, and the second is the intent of a command. -/

/-- The first generation of the profile. -/
def edgeLedger : AuditLedger where
  profileId := ⟨[0, 1, 2, 3, 4, 5, 6, 7, 8, 9, 10, 11, 12, 13, 14, 15], rfl⟩
  profileGeneration := 1
  key := .fill 32 7
  generation_pos := one_pos

/-- The hashes that the daemon uses. -/
def edgeCrypto : Crypto where
  sha256 := Sha256.digest
  hmacSha256 key := Sha256.hmac key.val

/-- The call that starts the generation. -/
def edgeStart : LedgerCall := .initializeGeneration none "edge" "edge" 1700000000000

/-- The event of the first record. -/
def genesisEvent : AuditEvent :=
  generationTransitionEvent edgeCrypto jsonSerde edgeLedger none "edge" "edge" 1700000000000

/-- The intent of a command, one second later. -/
def execIntent : AuditEvent where
  profileId := "000102030405060708090a0b0c0d0e0f"
  profileGeneration := 1
  requestId := ⟨[16, 17, 18, 19, 20, 21, 22, 23, 24, 25, 26, 27, 28, 29, 30, 31], rfl⟩
  atUnixMs := 1700000001000
  operationKind := "exec"
  phase := .intent
  decision := .pending
  policyDigest := "1111111111111111111111111111111111111111111111111111111111111111"
  intentDigest := "2222222222222222222222222222222222222222222222222222222222222222"
  resultDigest := none
  reasonCode := "grant.intent"

variable {e : AuditEvent}

theorem admitted_execIntent : Admitted edgeLedger execIntent := by
  have hvalid : execIntent.validate = .ok () := rfl
  have hidentity : execIntent.profileId = Text.hexEncode edgeLedger.profileId.val ∧
      execIntent.profileGeneration = edgeLedger.profileGeneration := by decide
  exact ⟨hvalid, hidentity⟩

/-- Two lines, by the bound on a record. -/
theorem length_lines_le {first second : List UInt8} {n : Nat} (hfirst : first.length ≤ n)
    (hsecond : second.length ≤ n) :
    (first ++ [newline] ++ (second ++ [newline])).length ≤ 2 * (n + 1) := by
  simp only [length_append, length_singleton]
  omega

/-- Behind two lines there is room for a third one. -/
theorem third_line_fits {old line : List UInt8}
    (hold : old.length ≤ 2 * (maxAuditRecordBytes + 1)) (hline : line.length ≤ maxAuditRecordBytes) :
    old.length + (line.length + 1) ≤ maxAuditLogBytes := by
  simp only [maxAuditRecordBytes, maxAuditLogBytes] at hold hline ⊢
  omega

/-- Behind an administrative record an intent is taken, if no record is too long. -/
theorem takes_after_first {first : AuditEvent} (hfirst : Admitted l first) (he : Admitted l e)
    (hadministrative : first.phase = .administrative) (hintent : e.phase = .intent)
    (hsize : ∀ r : AuditRecord, r.Plain → (s.record r).length ≤ maxAuditRecordBytes) :
    Takes c s l (verifiedOf c s [first]) (s.record (nextRecord c s l {} first) ++ [newline]) e := by
  have hphase : (verifiedOf c s [first]).ensurePhase e
      "audit Intent request id was already used" = .ok () := by
    simp [ensurePhase, verifiedOf, advance, track,
      hadministrative, hintent]
  have hbounded : (verifiedOf c s [first]).sequence + 1 < 2 ^ 64 := by
    rw [sequence_verifiedOf]
    show (1 : Nat) + 1 < 2 ^ 64
    decide
  have hrecord : (s.record (nextRecord c s l (verifiedOf c s [first]) e)).length ≤
      maxAuditRecordBytes := hsize _ (plain_nextRecord he hbounded)
  have hgenesis : (s.record (nextRecord c s l {} first)).length ≤ maxAuditRecordBytes :=
    hsize _ (plain_nextRecord hfirst (show (0 : Nat) + 1 < 2 ^ 64 by decide))
  refine ⟨he, hphase, hbounded, hrecord, ?_⟩
  simp only [length_append, length_singleton, maxAuditRecordBytes,
    maxAuditLogBytes] at hrecord hgenesis ⊢
  omega

/-- Behind its intent an outcome is taken, if no record is too long. -/
theorem takes_after_intent {first intent : AuditEvent}
    (hfirst : Admitted l first) (hintent : Admitted l intent) (he : Admitted l e)
    (hadministrative : first.phase = .administrative) (hphase : intent.phase = .intent)
    (houtcome : e.phase = .outcome) (hid : e.requestId = intent.requestId)
    (hmatches : (PendingIntentBinding.fromIntent intent).ensureMatchesOutcome e = .ok ())
    (hsize : ∀ r : AuditRecord, r.Plain → (s.record r).length ≤ maxAuditRecordBytes) :
    Takes c s l (verifiedOf c s [first, intent])
      (s.record (nextRecord c s l {} first) ++ [newline] ++
        (s.record (nextRecord c s l (verifiedOf c s [first]) intent) ++ [newline])) e := by
  have hmay : (verifiedOf c s [first, intent]).ensurePhase e
      "audit Intent request id was already used" = .ok () := by
    simp [ensurePhase, ensurePending, verifiedOf,
      advance, track, hadministrative, hphase, houtcome, hid,
      hmatches]
  have hbounded : (verifiedOf c s [first, intent]).sequence + 1 < 2 ^ 64 := by
    rw [sequence_verifiedOf]
    show (2 : Nat) + 1 < 2 ^ 64
    decide
  have hone : (verifiedOf c s [first]).sequence + 1 < 2 ^ 64 := by
    rw [sequence_verifiedOf]
    show (1 : Nat) + 1 < 2 ^ 64
    decide
  have hrecord := hsize _ (plain_nextRecord (c := c) (s := s) he hbounded)
  have hrecord1 := hsize _ (plain_nextRecord (c := c) (s := s) hintent hone)
  have hrecord0 := hsize _ (plain_nextRecord (c := c) (s := s) (v := {}) hfirst
    (show (0 : Nat) + 1 < 2 ^ 64 by decide))
  exact ⟨he, hmay, hbounded, hrecord, third_line_fits (length_lines_le hrecord0 hrecord1) hrecord⟩

/-- The calls of this ledger. -/
abbrev edgePool : Pool Unit LedgerCall Files FileOp FileAns Fault LedgerReply :=
  ledgerPool edgeCrypto jsonSerde edgeLedger

theorem admitted_genesisEvent : Admitted edgeLedger genesisEvent :=
  admitted_generationTransitionEvent (by decide)

theorem length_genesisRecord_le :
    (jsonSerde.record (nextRecord edgeCrypto jsonSerde edgeLedger {} genesisEvent)).length ≤
      maxAuditRecordBytes := by
  apply length_record_le
  apply plain_nextRecord admitted_genesisEvent
  show (0 : Nat) + 1 < 2 ^ 64
  decide

/-- The first line of the log. -/
def genesisLine : List UInt8 :=
  jsonSerde.record (nextRecord edgeCrypto jsonSerde edgeLedger {} genesisEvent) ++ [newline]

/-- The line of the intent. -/
def intentLine : List UInt8 :=
  nextLine edgeCrypto jsonSerde edgeLedger (verifiedOf edgeCrypto jsonSerde [genesisEvent])
    execIntent

/-- The generation is started. -/
theorem edge_starts : ∃ ms cfg checkpoint, edgePool.run (idle ⟨none, none⟩) ms = some cfg ∧
    cfg.threads () = some (.ret (edgeStart, .ok checkpoint)) ∧
    AtHead edgeCrypto jsonSerde edgeLedger cfg.world checkpoint genesisLine [genesisEvent] := by
  have hold : validateTransitionName "edge" "old profile name" = .ok () := rfl
  have hnew : validateTransitionName "edge" "new profile name" = .ok () := rfl
  have hat : (0 : UInt64) < 1700000000000 := by decide
  obtain ⟨checkpoint, w, hsteady, hhead⟩ :=
    steady_initializeGeneration jsonSerde_lawful hat hold hnew length_genesisRecord_le
  have hsteady' : steady auditSystem .none (serve edgeCrypto jsonSerde edgeLedger edgeStart) ()
      ⟨none, none⟩ = some ((.ok checkpoint, ()), w) := hsteady
  obtain ⟨ms, cfg, hrun, hworld, hret⟩ := run_call_idle hsteady'
  subst hworld
  exact ⟨ms, cfg, checkpoint, hrun, hret, hhead⟩

/-- The intent is appended. -/
theorem edge_appends {r : LedgerReply} (hret : cfg.threads () = some (.ret r))
    (hhead : AtHead edgeCrypto jsonSerde edgeLedger cfg.world checkpoint genesisLine
      [genesisEvent]) :
    ∃ ms cfg' checkpoint',
      edgePool.run cfg ms = some cfg' ∧
      cfg'.threads () = some (.ret (.append execIntent, .ok checkpoint')) ∧
      AtHead edgeCrypto jsonSerde edgeLedger cfg'.world checkpoint' (genesisLine ++ intentLine)
        [genesisEvent, execIntent] := by
  have hon : OnChain edgeCrypto jsonSerde edgeLedger cfg.world
      (verifiedOf edgeCrypto jsonSerde [genesisEvent]) := ⟨checkpoint, hhead.stored, hhead.onChain⟩
  obtain ⟨checkpoint', w, events, hsteady, hhead', hevents⟩ :=
    steady_append jsonSerde_lawful hhead.log hhead.verified hon
      (takes_after_first admitted_genesisEvent admitted_execIntent rfl rfl
        fun _ hplain => length_record_le hplain)
  cases hevents.symm.trans hhead.carried
  have hsteady' : steady auditSystem .none (serve edgeCrypto jsonSerde edgeLedger
      (.append execIntent)) () cfg.world = some ((.ok checkpoint', ()), w) := hsteady
  obtain ⟨ms, cfg', hrun, hworld, hret'⟩ := run_call (.inr ⟨r, hret⟩) hsteady'
  subst hworld
  exact ⟨ms, cfg', checkpoint', hrun, hret', hhead'⟩

/-- The append of the intent returns.  Wherever the daemon is stopped on the way to that, also
    between the new line of the log and the new checkpoint, reconciliation repairs the ledger. -/
theorem edge_ledger_stays_sealed : ∃ ms₀ ms₁ cfg₀ cfg₁ checkpoint₀ checkpoint₁ old events,
    edgePool.run (Pool.idle ⟨none, none⟩) ms₀ = some cfg₀ ∧
    cfg₀.threads () = some (.ret (edgeStart, .ok checkpoint₀)) ∧
    edgePool.run cfg₀ ms₁ = some cfg₁ ∧
    cfg₁.threads () = some (.ret (.append execIntent, .ok checkpoint₁)) ∧
    VerifiesAs edgeCrypto jsonSerde edgeLedger cfg₁.world checkpoint₁ ∧
    AtHead edgeCrypto jsonSerde edgeLedger cfg₁.world checkpoint₁ old events ∧
    events.getLast? = some execIntent ∧
    ∀ k, ∃ stopped checkpoint w old events,
      edgePool.run cfg₀ (ms₁.take k ++ [.crash .none]) = some stopped ∧
      stopped.threads () = none ∧
      steady auditSystem .none (reconcile edgeCrypto jsonSerde edgeLedger) () stopped.world =
        some ((.ok checkpoint, ()), w) ∧
      AtHead edgeCrypto jsonSerde edgeLedger w checkpoint old events ∧
      VerifiesAs edgeCrypto jsonSerde edgeLedger w checkpoint := by
  obtain ⟨ms₀, cfg₀, checkpoint₀, hrun0, hret0, hhead0⟩ := edge_starts
  obtain ⟨ms₁, cfg₁, checkpoint₁, hrun1, hret1, -⟩ := edge_appends hret0 hhead0
  have hstay : edgePool.run cfg₁ [] = some cfg₁ := rfl
  obtain ⟨-, -, -, hreturned, -, -⟩ :=
    ledger_runs_stay_sealed jsonSerde_lawful hrun0 hret0 hrun1 hstay
  obtain ⟨hverifies, old, events, hhead, hlast⟩ := hreturned _ _ hret1
  refine ⟨ms₀, ms₁, cfg₀, cfg₁, checkpoint₀, checkpoint₁, old, events, hrun0, hret0, hrun1, hret1,
    hverifies, hhead, hlast execIntent rfl, ?_⟩
  intro k
  -- the first `k` moves are a run of their own, and the crash is one more move
  obtain ⟨cfg, hbefore, -⟩ : ∃ cfg, edgePool.run cfg₀ (ms₁.take k) = some cfg ∧
      edgePool.run cfg (ms₁.drop k) = some cfg₁ := by
    rw [← take_append_drop k ms₁, Pool.run_append] at hrun1
    exact Option.bind_eq_some_iff.mp hrun1
  have hstopped : edgePool.run cfg₀ (ms₁.take k ++ [.crash .none]) = some (idle cfg.world) := by
    rw [Pool.run_append, hbefore]
    rfl
  have hidle : edgePool.run (idle cfg.world) [] = some (idle cfg.world) := rfl
  obtain ⟨-, ⟨checkpoint, w, old', events', hreconciled, -, hhead', hverifies'⟩, -, -, -, -⟩ :=
    ledger_runs_stay_sealed jsonSerde_lawful hrun0 hret0 hstopped hidle
  exact ⟨idle cfg.world, checkpoint, w, old', events', hstopped, rfl, hreconciled, hhead',
    hverifies'⟩

/-- An earlier head is accepted as an anchor as long as the log starts with its events. -/
theorem verifyExternalAnchor_of_atHead {w1 w2 : Files} {anchor : AuditCheckpoint}
    {old1 old2 : List UInt8} {events1 events2 : List AuditEvent}
    (h1 : AtHead c s l w1 anchor old1 events1) (h2 : AtHead c s l w2 checkpoint old2 events2)
    (hstarts : events1 <+: events2) :
    verifyExternalAnchor c s l (verifiedOf c s events2) checkpoint (some anchor) = .ok () := by
  have hon1 := h1.onChain
  have hon2 := h2.onChain
  simp only [ensureOnChain, check_eq_ok] at hon1 hon2
  have hid1 := hon1.1
  have hid2 := hon2.1
  simp only [verifyCheckpointMac, check_eq_ok, ensure_eq_ok] at hid1 hid2
  have hle : events1.length ≤ events2.length := hstarts.length_le
  simp only [verifyExternalAnchor, check_eq_ok, ensure_eq_ok, sequence_verifiedOf]
  refine ⟨hon1.1, ⟨?_, ?_⟩, ?_, ?_⟩
  · rw [hid1.2.1.1, hid2.2.1.1]
  · rw [hid1.2.1.2, hid2.2.1.2]
  · rw [h1.sequence]
    exact hle
  · rw [h1.recordHash, h1.sequence, headAt_verifiedOf c s events2 _ hle,
      ← prefix_iff_eq_take.mp hstarts]

/-- **Anchoring.**  A checkpoint was returned by some call of the ledger.  Whatever files are there
    later, if verification against that checkpoint succeeds, the log starts with exactly the events
    that it had when the checkpoint was returned. -/
theorem anchored_log_keeps_events (hs : s.Lawful) {w₁ w₂ : Files}
    {ms₁ ms₂ : List (Pool.Move Unit LedgerCall Fault)}
    {cfg₁ cfg₂ : Pool.Config Unit Files FileOp FileAns LedgerReply}
    {call : LedgerCall} {anchor checkpoint : AuditCheckpoint} {requireComplete : Bool}
    (h₁ : (ledgerPool c s l).run (Pool.idle w₁) ms₁ = some cfg₁)
    (hreturned : cfg₁.threads () = some (.ret (call, .ok anchor)))
    (h₂ : (ledgerPool c s l).run (Pool.idle w₂) ms₂ = some cfg₂)
    (hverified : cfg₂.threads () =
      some (.ret (.verify (some anchor) requireComplete, .ok checkpoint)))
    (hfree : ∀ old₁ events₁ old₂ events₂, cfg₁.world.log = some old₁ →
      logEvents s old₁ = some events₁ → cfg₂.world.log = some old₂ →
      logEvents s old₂ = some events₂ →
      HashChain.CollisionFreeOn c.sha256 (messages (auditChain c s) events₁ ++
        messages (auditChain c s) events₂)) :
    ∃ old₁ events₁ old₂ events₂, cfg₁.world.log = some old₁ ∧ logEvents s old₁ = some events₁ ∧
      cfg₂.world.log = some old₂ ∧ logEvents s old₂ = some events₂ ∧
      anchor.sequence = events₁.length ∧ events₂.take anchor.sequence = events₁ := by
  have hgood1 := (ledgerPool_sound (c := c) (l := l) hs).run_good h₁ (good_idle trivial)
  have hgood2 := (ledgerPool_sound (c := c) (l := l) hs).run_good h₂ (good_idle trivial)
  obtain ⟨old₁, events₁, hhead1, -⟩ := hgood1.post_of_ret hreturned anchor rfl
  obtain ⟨old₂, events₂, hhead2, hanchor⟩ := hgood2.post_of_ret hverified checkpoint rfl
  -- the anchor was compared with the head at its own position
  simp only [verifyExternalAnchor, check_eq_ok, ensure_eq_ok, sequence_verifiedOf] at hanchor
  obtain ⟨-, -, hle, hhash⟩ := hanchor
  have hsame : (verifiedOf c s events₂).headAt events₁.length =
      (verifiedOf c s events₁).recordHash := by
    rw [hhead1.recordHash, hhead1.sequence] at hhash
    rw [recordHash_verifiedOf]
    exact Subtype.ext (Text.hexEncode_injective hhash)
  obtain ⟨events1', hevents1, -, hadmitted1⟩ := verifyLog_spec hhead1.verified
  obtain ⟨events2', hevents2, -, hadmitted2⟩ := verifyLog_spec hhead2.verified
  cases hevents1.symm.trans hhead1.carried
  cases hevents2.symm.trans hhead2.carried
  rw [hhead1.sequence] at hle
  have hstarts := events_prefix_of_head hs hadmitted1 hadmitted2
    (hfree old₁ events₁ old₂ events₂ hhead1.log hevents1 hhead2.log hevents2) hle hsame
  refine ⟨old₁, events₁, old₂, events₂, hhead1.log, hevents1, hhead2.log, hevents2,
    hhead1.sequence, ?_⟩
  rw [hhead1.sequence]
  exact (prefix_iff_eq_take.mp hstarts).symm

/-- The two records of `edge` have different hashes. -/
theorem edge_hashes_differ :
    edgeCrypto.sha256 (recordMessage jsonSerde 1 zeroHash genesisEvent) ≠
      edgeCrypto.sha256 (recordMessage jsonSerde 2
        (edgeCrypto.sha256 (recordMessage jsonSerde 1 zeroHash genesisEvent)) execIntent) := by
  decide +kernel

theorem edge_collisionFree : HashChain.CollisionFreeOn edgeCrypto.sha256
    (messages (auditChain edgeCrypto jsonSerde) [genesisEvent] ++
      messages (auditChain edgeCrypto jsonSerde) [genesisEvent, execIntent]) := by
  intro m hm m' hm' hsame
  have hdiffer := edge_hashes_differ
  simp only [messages, messagesFrom, auditChain, mem_append,
    mem_cons, not_mem_nil, or_false, or_self_left] at hm hm'
  rcases hm with rfl | rfl <;> rcases hm' with rfl | rfl
  · rfl
  · exact absurd hsame hdiffer
  · exact absurd hsame.symm hdiffer
  · rfl

theorem edge_anchor_keeps_events : ∃ ms₁ ms₂ cfg₁ cfg₂ anchor checkpoint w₂ old₂ events₂,
    edgePool.run (Pool.idle ⟨none, none⟩) ms₁ = some cfg₁ ∧
    cfg₁.threads () = some (.ret (edgeStart, .ok anchor)) ∧
    edgePool.run (Pool.idle w₂) ms₂ = some cfg₂ ∧
    cfg₂.threads () = some (.ret (.verify (some anchor) false, .ok checkpoint)) ∧
    cfg₂.world.log = some old₂ ∧ logEvents jsonSerde old₂ = some events₂ ∧
    events₂.length = 2 ∧ events₂.take anchor.sequence = [genesisEvent] := by
  obtain ⟨ms₁, cfg₁, anchor, hrun1, hret1, hhead1⟩ := edge_starts
  obtain ⟨-, cfg₂, checkpoint, -, -, hhead2⟩ := edge_appends hret1 hhead1
  have hanchor := verifyExternalAnchor_of_atHead hhead1 hhead2 (by simp)
  have hcomplete : ensureComplete (verifiedOf edgeCrypto jsonSerde [genesisEvent, execIntent])
      false = .ok () := rfl
  have hverify := steady_verify hhead2 hanchor hcomplete
  obtain ⟨ms3, cfg3, hrun3, hworld3, hret3⟩ := run_call_idle hverify
  have hlog3 : cfg3.world.log = some (genesisLine ++ intentLine) := by
    rw [hworld3]
    exact hhead2.log
  obtain ⟨old1', events1', old2', events2', hlog1', hevents1', hlog2', hevents2', -, htake⟩ :=
    anchored_log_keeps_events jsonSerde_lawful hrun1 hret1 hrun3 hret3 (by
      intro old1 events1 old events hlog1 hevents1 hlog hevents
      cases hhead1.log.symm.trans hlog1
      cases hhead1.carried.symm.trans hevents1
      cases hlog3.symm.trans hlog
      cases hhead2.carried.symm.trans hevents
      exact edge_collisionFree)
  cases hhead1.log.symm.trans hlog1'
  cases hhead1.carried.symm.trans hevents1'
  cases hlog3.symm.trans hlog2'
  cases hhead2.carried.symm.trans hevents2'
  exact ⟨ms₁, ms3, cfg₁, cfg3, anchor, checkpoint, cfg₂.world, _, _, hrun1, hret1, hrun3, hret3,
    hlog3, hevents2', rfl, htake⟩

end Serctl.Audit
