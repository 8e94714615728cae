import Serctl.Audit.LogSpec

/-!
# The steps of a ledger

What the ledger's calls can do to the two files, whatever fails and wherever they are stopped:
a verified record is put at the end of a verified log, the checkpoint is replaced by the head of
the log, or a missing file is created.  The first two happen only where the stored checkpoint is on
the chain of the log, or is missing or still empty for a log that is being started.
-/

namespace Serctl.Audit

open Lib Lib.Act Lib.Guard List

variable (c : Crypto) (s : Serde) (l : AuditLedger)

/-- The stored checkpoint is on the chain of the log. -/
def OnChain (w : Files) (v : VerifiedLog) : Prop :=
  ∃ checkpoint, parseCheckpoint s w.checkpoint = .ok (some checkpoint) ∧
    ensureOnChain c s l v checkpoint = .ok ()

/-- One change of the files. -/
inductive LedgerStep (w : Files) : Files → Prop where
  /-- A record is written at the end of the log. -/
  | record (old line : List UInt8) (v : VerifiedLog) (e : AuditEvent) (hlog : w.log = some old)
      (hold : verifyLog c s l old = .ok v) (hstored : OnChain c s l w v ∨ w.checkpoint = none)
      (hnew : verifyLog c s l (old ++ line) = .ok (v.advance c s e)) :
      LedgerStep w { w with log := some (old ++ line) }
  /-- The head of the log is stored. -/
  | head (old : List UInt8) (v : VerifiedLog) (hlog : w.log = some old)
      (hold : verifyLog c s l old = .ok v)
      (hstored : OnChain c s l w v ∨ w.checkpoint = none ∨ w.checkpoint = some []) :
      LedgerStep w { w with
        checkpoint := some (s.checkpoint (makeCheckpoint c s l v.sequence v.recordHash)) }
  /-- A missing log is created. -/
  | create (hlog : w.log = none) : LedgerStep w { w with log := some [] }
  /-- A missing checkpoint is created, as an empty file. -/
  | reserve (hstored : w.checkpoint = none) : LedgerStep w { w with checkpoint := some [] }

/-- The log carries the events, and the checkpoint is stored and is its head. -/
structure AtHead (w : Files) (checkpoint : AuditCheckpoint) (old : List UInt8)
    (events : List AuditEvent) : Prop where
  log : w.log = some old
  verified : verifyLog c s l old = .ok (verifiedOf c s events)
  carried : logEvents s old = some events
  stored : parseCheckpoint s w.checkpoint = .ok (some checkpoint)
  onChain : ensureOnChain c s l (verifiedOf c s events) checkpoint = .ok ()
  sequence : checkpoint.sequence = events.length
  recordHash : checkpoint.recordHash =
    Text.hexEncode (HashChain.head (auditChain c s) events).val

/-- The checkpoint is stored and is the head of the log. -/
def Headed (checkpoint : AuditCheckpoint) (w : Files) : Prop :=
  ∃ old events, AtHead c s l w checkpoint old events

/-- The event was put behind those of the log, where it may stand, and the new head stored. -/
def Follows (w : Files) (e : AuditEvent) (checkpoint : AuditCheckpoint) (w' : Files) : Prop :=
  ∃ old line events, w.log = some old ∧ verifyLog c s l old = .ok (verifiedOf c s events) ∧
    logEvents s old = some events ∧
    (verifiedOf c s events).ensurePhase e "audit Intent request id was already used" = .ok () ∧
    AtHead c s l w' checkpoint (old ++ line) (events ++ [e])

/-- The terms on which the calls run: nobody else changes the files, and every change is a
    step. -/
def ledgerContract : Contract Files FileOp where
  inv _ := True
  rely := Eq
  guar w w' := w' = w ∨ LedgerStep c s l w w'
  ok _ _ := True
  rely_refl _ := rfl
  rely_trans := Eq.trans

/-! ## Checkpoints that the ledger makes -/

variable {c s l}

variable {v : VerifiedLog} {old : List UInt8}

theorem headAt_sequence (h : verifyLog c s l old = .ok v) : v.headAt v.sequence = v.recordHash := by
  obtain ⟨events, -, rfl, -⟩ := verifyLog_spec h
  rw [headAt_verifiedOf c s events _ (by simp), sequence_verifiedOf, take_length,
    recordHash_verifiedOf]

variable {e : AuditEvent}

/-- Earlier heads stay. -/
theorem headAt_advance {k : Nat} (h : verifyLog c s l old = .ok v) (hk : k ≤ v.sequence) :
    (v.advance c s e).headAt k = v.headAt k := by
  obtain ⟨events, -, rfl, -⟩ := verifyLog_spec h
  rw [sequence_verifiedOf] at hk
  rw [← verifiedOf_concat, headAt_verifiedOf c s (events ++ [e]) k (by simp; omega),
    headAt_verifiedOf c s events k hk, take_append_of_le_length hk]

theorem verifyCheckpointMac_makeCheckpoint (sequence : Nat) (hash : Bytes 32) :
    verifyCheckpointMac c s l (makeCheckpoint c s l sequence hash) = .ok () := by
  simp only [verifyCheckpointMac, check_eq_ok, ensure_eq_ok, validateDigest]
  refine ⟨rfl, ⟨rfl, rfl⟩, isLowerHex_bytes hash, ?_⟩
  exact verifyMac_self _ _ _ _

theorem plain_makeCheckpoint {sequence : Nat} (hash : Bytes 32) (h : sequence < 2 ^ 64) :
    (makeCheckpoint c s l sequence hash).Plain where
  schemaVersion := show (1 : Nat) < 2 ^ 16 by decide
  profileId := isLowerHex_bytes l.profileId
  sequence := h
  recordHash := isLowerHex_bytes hash
  mac := isLowerHex_bytes _

theorem parseCheckpoint_makeCheckpoint (hs : s.Lawful) {sequence : Nat} (hash : Bytes 32)
    (h : sequence < 2 ^ 64) :
    parseCheckpoint s (some (s.checkpoint (makeCheckpoint c s l sequence hash))) =
      .ok (some (makeCheckpoint c s l sequence hash)) := by
  have hplain := plain_makeCheckpoint (c := c) (s := s) (l := l) hash h
  simp only [parseCheckpoint, check_eq_ok, ensure_eq_ok, hs.parse_checkpoint _ hplain]
  exact ⟨hs.checkpoint_length _ hplain, trivial⟩

/-- A checkpoint of the head of a log is on its chain. -/
theorem ensureOnChain_makeCheckpoint {k : Nat} (hk : k ≤ v.sequence) :
    ensureOnChain c s l v (makeCheckpoint c s l k (v.headAt k)) = .ok () := by
  simp only [ensureOnChain, check_eq_ok, ensure_eq_ok]
  exact ⟨verifyCheckpointMac_makeCheckpoint _ _, hk, rfl⟩

variable {checkpoint : AuditCheckpoint}

theorem ensureOnChain_advance (h : verifyLog c s l old = .ok v)
    (hon : ensureOnChain c s l v checkpoint = .ok ()) :
    ensureOnChain c s l (v.advance c s e) checkpoint = .ok () := by
  simp only [ensureOnChain, check_eq_ok, ensure_eq_ok] at hon ⊢
  obtain ⟨hmac, hle, hhash⟩ := hon
  refine ⟨hmac, Nat.le_succ_of_le hle, ?_⟩
  rw [headAt_advance h hle]
  exact hhash

/-! ## Rules for the file operations

Errors carry no obligation: a call that fails may leave the files after any of its steps. -/

variable {w' : Files} {createNew : Bool}

section Rules

variable {α : Type} {w : Files}

/-- The program makes only steps of the ledger, and returns only where `Q` holds. -/
def Keeps (c : Crypto) (s : Serde) (l : AuditLedger) (x : LedgerIo α) (Q : α → Files → Prop)
    (w : Files) : Prop :=
  wp auditSystem (ledgerContract c s l) x (fun a _ w' => Q a w') (fun _ _ _ => True) () w

variable {Q : α → Files → Prop}

theorem keeps_pure {a : α} (h : Q a w) : Keeps c s l (pure a) Q w := h

theorem keeps_lift {r : Except Error α} (h : ∀ a, r = .ok a → Q a w) :
    Keeps c s l (lift r) Q w := by
  simp only [Keeps, lift, wp_orElseFail]
  exact ⟨h, fun _ _ => trivial⟩

variable {β : Type}

section

variable {x : LedgerIo α} {f : α → LedgerIo β} {R : α → Files → Prop}

theorem keeps_bind {Q : β → Files → Prop} (hx : Keeps c s l x R w)
    (hf : ∀ a w', R a w' → Keeps c s l (f a) Q w') : Keeps c s l (x >>= f) Q w := by
  simp only [Keeps, wp_bind]
  exact wp_mono hx (fun a _ w' h => hf a w' h) (fun _ _ _ _ => trivial)

theorem Keeps.imp (hx : Keeps c s l x R w) (h : ∀ a w', R a w' → Q a w') : Keeps c s l x Q w :=
  wp_mono hx (fun a _ w' => h a w') (fun _ _ _ _ => trivial)

/-- A check at the head of a program. -/
theorem keeps_check {r : Except Error α} {Q : β → Files → Prop}
    (hf : ∀ a, r = .ok a → Keeps c s l (f a) Q w) : Keeps c s l (lift r >>= f) Q w := by
  have hcheck : Keeps c s l (lift r) (fun a w' => r = .ok a ∧ w' = w) w :=
    keeps_lift fun a ha => ⟨ha, rfl⟩
  apply keeps_bind hcheck
  rintro a _ ⟨ha, rfl⟩
  exact hf a ha

end

variable {m : String} {op : FileOp}

theorem keeps_io {Q : FileVal op → Files → Prop}
    (h : ∀ fault a w', fileExec w op fault = some (a, w') →
      (w' = w ∨ LedgerStep c s l w w') ∧ ∀ v, a = .ok v → Q v w') :
    Keeps c s l (io op m) Q w := by
  simp only [Keeps, io, wp_bind, wp_call, wp_orElseFail]
  rintro _ rfl -
  refine ⟨trivial, fun fault a w' hexec => ⟨trivial, (h fault a w' hexec).1, ?_⟩⟩
  exact ⟨(h fault a w' hexec).2, fun _ _ => trivial⟩

theorem perform_eq_some {v : α} {w1 w' : Files} {fault : Fault} {a : Except String α}
    (h : perform w v w1 fault = some (a, w')) :
    (w' = w ∨ w' = w1) ∧ ∀ u, a = .ok u → u = v ∧ w' = w1 := by
  cases fault <;> simp only [perform, Option.some.injEq, Prod.mk.injEq] at h <;>
    obtain ⟨rfl, rfl⟩ := h <;> simp

theorem refuse_eq_some {fault : Fault} {a : Except String α}
    (h : refuse w fault = some (a, w')) : w' = w ∧ ∀ u, a ≠ .ok u := by
  cases fault <;> simp [refuse] at h
  obtain ⟨rfl, rfl⟩ := h
  simp

section

variable {v : FileVal op} (hexec : ∀ fault, fileExec w op fault = perform w v w fault)

include hexec

/-- An operation that only looks. -/
theorem keeps_look {Q : FileVal op → Files → Prop} (h : Q v w) : Keeps c s l (io op m) Q w := by
  apply keeps_io
  intro fault a w' hw'
  rw [hexec] at hw'
  obtain ⟨hsame, hvalue⟩ := perform_eq_some hw'
  have heq : w' = w := by simpa using hsame
  subst heq
  refine ⟨.inl rfl, fun u hu => ?_⟩
  rw [(hvalue u hu).1]
  exact h

/-- An operation that only looks, and what comes after it. -/
theorem keeps_skip {f : FileVal op → LedgerIo β} {Q : β → Files → Prop}
    (hf : Keeps c s l (f v) Q w) :
    Keeps c s l (io op m >>= f) Q w := by
  have hlook : Keeps c s l (io op m) (fun a w' => a = v ∧ w' = w) w := keeps_look hexec ⟨rfl, rfl⟩
  apply keeps_bind hlook
  rintro _ _ ⟨rfl, rfl⟩
  exact hf

/-- An operation that only looks, whether or not it fails. -/
theorem keeps_attempt_look :
    Keeps c s l (attempt (io op m)) (fun _ w' => w' = w) w := by
  simp only [Keeps, io, wp_attempt, wp_bind, wp_call, wp_orElseFail]
  intro w1 hw1 _
  have hw1' : w = w1 := hw1
  subst hw1'
  refine ⟨trivial, fun fault a w' hw' => ?_⟩
  have hw'' : perform w v w fault = some (a, w') := (hexec fault).symm.trans hw'
  have heq : w' = w := by simpa using (perform_eq_some hw'').1
  exact ⟨trivial, .inl heq, fun _ _ => heq, fun _ _ => heq⟩

end

/-- Reading the log yields a verified one. -/
theorem keeps_readLog :
    Keeps c s l (readLog c s l) (fun v w' => w' = w ∧
      ∃ old, w.log = some old ∧ verifyLog c s l old = .ok v) w := by
  unfold readLog
  have hread : Keeps c s l (io .readLog "read audit log")
      (fun old w' => w' = w ∧ w.log = some old) w := by
    cases hlog : w.log with
    | some old => exact keeps_look (fun fault => by simp [fileExec, hlog]) ⟨rfl, rfl⟩
    | none =>
      apply keeps_io
      intro fault a w' hw'
      simp only [fileExec, hlog] at hw'
      obtain ⟨hsame, hfail⟩ := refuse_eq_some hw'
      exact ⟨.inl hsame, fun v hv => absurd hv (hfail v)⟩
  apply keeps_bind hread
  rintro old _ ⟨rfl, hold⟩
  exact keeps_lift fun v hv => ⟨rfl, old, hold, hv⟩

/-- Reading the log, and what comes after it. -/
theorem keeps_reading {f : VerifiedLog → LedgerIo β} {Q : β → Files → Prop}
    (hf : ∀ v old, w.log = some old → verifyLog c s l old = .ok v → Keeps c s l (f v) Q w) :
    Keeps c s l (readLog c s l >>= f) Q w := by
  apply keeps_bind keeps_readLog
  rintro v _ ⟨rfl, old, hlog, hold⟩
  exact hf v old hlog hold

theorem keeps_readCheckpoint :
    Keeps c s l (readCheckpoint s)
      (fun stored w' => w' = w ∧ parseCheckpoint s w.checkpoint = .ok stored) w := by
  unfold readCheckpoint
  apply keeps_skip fun _ => rfl
  exact keeps_lift fun stored h => ⟨rfl, h⟩

theorem keeps_verifyCheckpointAgainstLog {allowLagging : Bool} :
    Keeps c s l (verifyCheckpointAgainstLog c s l v allowLagging)
      (fun checkpoint w' => w' = w ∧ parseCheckpoint s w.checkpoint = .ok (some checkpoint) ∧
        ensureOnChain c s l v checkpoint = .ok () ∧
        (allowLagging = false → checkpoint.sequence = v.sequence ∧
          checkpoint.recordHash = Text.hexEncode v.recordHash.val)) w := by
  unfold verifyCheckpointAgainstLog
  apply keeps_bind keeps_readCheckpoint
  rintro stored _ ⟨rfl, hstored⟩
  apply keeps_lift
  intro checkpoint hcheckpoint
  cases stored with
  | none => cases hcheckpoint
  | some found =>
    simp only [ensureCheckpoint, check_eq_ok, pure_eq_ok] at hcheckpoint
    obtain ⟨hon, hlag, rfl⟩ := hcheckpoint
    refine ⟨rfl, hstored, hon, fun hallow => ?_⟩
    simpa [ensureNotLagging, hallow] using hlag

/-- The lock and the unlock change nothing. -/
theorem keeps_underLock {m' : String} {body : LedgerIo α}
    (h : Keeps c s l body Q w) : Keeps c s l (underLock m m' body) Q w := by
  unfold underLock
  apply keeps_skip fun _ => rfl
  have hbody : Keeps c s l (attempt body) (fun r w' => ∀ a, r = .ok a → Q a w') w := by
    simp only [Keeps, wp_attempt]
    refine wp_mono h (fun a _ w' ha b hb => ?_) (fun e _ w' _ b hb => by cases hb)
    cases hb
    exact ha
  apply keeps_bind hbody
  intro result w' hresult
  have hunlock : Keeps c s l (attempt (io .unlockLog m')) (fun _ w'' => w'' = w') w' :=
    keeps_attempt_look fun _ => rfl
  apply keeps_bind hunlock
  rintro unlock _ rfl
  apply keeps_lift
  intro a ha
  cases result with
  | error e => cases ha
  | ok b =>
    cases unlock with
    | error e => cases ha
    | ok u =>
      cases ha
      exact hresult a rfl

theorem keeps_withLog {m1 m2 m3 m4 : String} {body : LedgerIo α}
    (h : Keeps c s l body Q w) : Keeps c s l (withLog m1 m2 m3 m4 body) Q w := by
  unfold withLog
  apply keeps_skip fun _ => rfl
  apply keeps_check
  intro _ _
  exact keeps_underLock h

/-- An operation that stores the head of the log. -/
theorem keeps_storeHead {v : FileVal op} {u : VerifiedLog}
    (hlog : w.log = some old) (hold : verifyLog c s l old = .ok u)
    (hstored : OnChain c s l w u ∨ w.checkpoint = none ∨ w.checkpoint = some [])
    (hexec : ∀ fault, fileExec w op fault = perform w v { w with
      checkpoint := some (s.checkpoint (makeCheckpoint c s l u.sequence u.recordHash)) } fault) :
    Keeps c s l (io op m) (fun _ w' => w' = { w with
      checkpoint := some (s.checkpoint (makeCheckpoint c s l u.sequence u.recordHash)) }) w := by
  apply keeps_io
  intro fault a w' hw'
  rw [hexec] at hw'
  obtain ⟨hsame, hvalue⟩ := perform_eq_some hw'
  refine ⟨?_, fun x hx => (hvalue x hx).2⟩
  rcases hsame with hsame | hdone
  · exact .inl hsame
  · rw [hdone]
    exact .inr (.head old u hlog hold hstored)

/-- Storing the head of the log, in place of a checkpoint on its chain or of none.  A new
    checkpoint is created empty and then written. -/
theorem keeps_persistCheckpoint (hlog : w.log = some old) (hold : verifyLog c s l old = .ok v)
    (hstored : createNew = false → OnChain c s l w v ∨ w.checkpoint = none) :
    Keeps c s l (persistCheckpoint s createNew (makeCheckpoint c s l v.sequence v.recordHash))
      (fun _ w' => w' = { w with
        checkpoint := some (s.checkpoint (makeCheckpoint c s l v.sequence v.recordHash)) }) w := by
  unfold persistCheckpoint
  cases createNew with
  | false =>
    apply keeps_storeHead hlog hold _ (fun _ => rfl)
    exact (hstored rfl).imp_right .inl
  | true =>
    simp only [if_true, persistCheckpointCreateNew]
    have hcreate : Keeps c s l (io .createCheckpoint "create new authenticated audit checkpoint")
        (fun _ w' => w' = { w with checkpoint := some [] }) w := by
      apply keeps_io
      intro fault a w' hw'
      simp only [fileExec] at hw'
      -- a checkpoint that is there already is not replaced
      split at hw'
      · rename_i hnone
        obtain ⟨hsame, hvalue⟩ := perform_eq_some hw'
        refine ⟨?_, fun x hx => (hvalue x hx).2⟩
        rcases hsame with hsame | hdone
        · exact .inl hsame
        · rw [hdone]
          exact .inr (.reserve hnone)
      · obtain ⟨hsame, hfail⟩ := refuse_eq_some hw'
        exact ⟨.inl hsame, fun u hu => absurd hu (hfail u)⟩
    apply keeps_bind hcreate
    intro _ w1 hw1
    have hlog1 : w1.log = some old := by
      rw [hw1]
      exact hlog
    have hempty : w1.checkpoint = some [] := by rw [hw1]
    apply keeps_bind (keeps_storeHead hlog1 hold (.inr (.inr hempty)) (fun _ => rfl))
    intro _ w2 hw2
    apply keeps_skip fun _ => rfl
    apply keeps_look fun _ => rfl
    rw [hw2, hw1]

/-- Only a missing file reads as no checkpoint. -/
theorem parseCheckpoint_eq_none {stored : Option (List UInt8)}
    (h : parseCheckpoint s stored = .ok none) : stored = none := by
  cases stored with
  | none => rfl
  | some encoded =>
    simp only [parseCheckpoint, check_eq_ok] at h
    split at h <;> simp at h

theorem keeps_checkStored :
    Keeps c s l (checkStored c s l v createNew)
      (fun _ w' => w' = w ∧ (OnChain c s l w v ∨ w.checkpoint = none)) w := by
  unfold checkStored
  cases createNew with
  | true =>
    simp only [if_true]
    apply keeps_check
    intro _ _
    apply keeps_bind keeps_readCheckpoint
    rintro stored w1 ⟨rfl, hstored⟩
    apply keeps_lift
    intro _ hnone
    rw [ensure_eq_ok] at hnone
    subst hnone
    exact ⟨rfl, .inr (parseCheckpoint_eq_none hstored)⟩
  | false =>
    simp only [Bool.false_eq_true, if_false]
    apply keeps_bind keeps_verifyCheckpointAgainstLog
    rintro checkpoint _ ⟨rfl, hparse, hon, -⟩
    exact keeps_pure ⟨rfl, .inl ⟨checkpoint, hparse, hon⟩⟩

end Rules

/-! ## The calls -/

section Calls

variable {w : Files}

/-- Where the head of a log has been stored. -/
theorem atHead_of_stored (hs : s.Lawful)
    (hlog : w.log = some old) (hold : verifyLog c s l old = .ok v) (hbound : v.sequence < 2 ^ 64)
    (hstored : w.checkpoint =
      some (s.checkpoint (makeCheckpoint c s l v.sequence v.recordHash))) :
    ∃ events, v = verifiedOf c s events ∧
      AtHead c s l w (makeCheckpoint c s l v.sequence v.recordHash) old events := by
  obtain ⟨events, hevents, rfl, -⟩ := verifyLog_spec hold
  have hon := ensureOnChain_makeCheckpoint (c := c) (s := s) (l := l)
    (Nat.le_refl (verifiedOf c s events).sequence)
  rw [headAt_sequence hold] at hon
  refine ⟨events, rfl, hlog, hold, hevents, ?_, hon, sequence_verifiedOf c s events, ?_⟩
  · rw [hstored]
    exact parseCheckpoint_makeCheckpoint hs _ hbound
  · rw [← recordHash_verifiedOf]
    rfl

/-- Writing the next record behind a verified log. -/
theorem keeps_writeRecord {line : List UInt8} {m : String}
    (hlog : w.log = some old) (hold : verifyLog c s l old = .ok v)
    (hstored : OnChain c s l w v ∨ w.checkpoint = none)
    (hnew : verifyLog c s l (old ++ line) = .ok (v.advance c s e)) :
    Keeps c s l (io (.appendLog line) m)
      (fun _ w' => w' = { w with log := some (old ++ line) }) w := by
  apply keeps_io
  intro fault a w' hw'
  simp only [fileExec, hlog] at hw'
  cases fault with
  | none =>
    cases hw'
    exact ⟨.inr (.record _ _ v e hlog hold hstored hnew), fun _ _ => rfl⟩
  | fail message =>
    obtain ⟨hsame, hfail⟩ := refuse_eq_some hw'
    exact ⟨.inl hsame, fun u hu => absurd hu (hfail u)⟩
  | late message =>
    obtain ⟨hsame, hfail⟩ := refuse_eq_some hw'
    exact ⟨.inl hsame, fun u hu => absurd hu (hfail u)⟩

/-- The events after the next record. -/
theorem atHead_of_appended (hs : s.Lawful)
    (hold : verifyLog c s l old = .ok v) (hadmitted : Admitted l e)
    (hbound : v.sequence + 1 < 2 ^ 64)
    (hlog : w.log = some (old ++ nextLine c s l v e))
    (hnew : verifyLog c s l (old ++ nextLine c s l v e) = .ok (v.advance c s e))
    (hstored : w.checkpoint = some (s.checkpoint
      (makeCheckpoint c s l (v.sequence + 1) (v.advance c s e).recordHash))) :
    ∃ events, AtHead c s l w
      (makeCheckpoint c s l (v.sequence + 1) (v.advance c s e).recordHash)
      (old ++ nextLine c s l v e) (events ++ [e]) ∧
      logEvents s old = some events := by
  obtain ⟨events', -, hhead⟩ := atHead_of_stored hs hlog hnew hbound hstored
  obtain ⟨events, hevents, -, -⟩ := verifyLog_spec hold
  -- the log carries the old events and then the new one
  have hplain : (nextRecord c s l v e).Plain := plain_nextRecord hadmitted hbound
  have hline := logEvents_line (hs.record_line _ hplain).2 (hs.parse_record _ hplain)
  have hcarried := logEvents_append (verifyLog_end hold) hevents hline
  have heq : events' = events ++ [e] := Option.some.inj (hhead.carried.symm.trans hcarried)
  subst heq
  exact ⟨events, hhead, hevents⟩

theorem Follows.atHead (h : Follows c s l w e checkpoint w') :
    ∃ old events, AtHead c s l w' checkpoint old (events ++ [e]) := by
  obtain ⟨old, line, events, -, -, -, -, hhead⟩ := h
  exact ⟨old ++ line, events, hhead⟩

theorem Follows.headed (h : Follows c s l w e checkpoint w') :
    Headed c s l checkpoint w' := by
  obtain ⟨old, events, hhead⟩ := h.atHead
  exact ⟨old, events ++ [e], hhead⟩

/-- **An append** returns only after its record was written and the new head stored. -/
theorem keeps_appendLocked (hs : s.Lawful) (hadmitted : Admitted l e) :
    Keeps c s l (appendLockedWithCheckpointMode c s l e createNew) (Follows c s l w e) w := by
  unfold appendLockedWithCheckpointMode
  apply keeps_reading
  intro v old hlog hold
  apply keeps_bind keeps_checkStored
  intro _ w2 hchecked
  obtain ⟨rfl, hstored⟩ := hchecked
  apply keeps_check
  intro _ hphase
  apply keeps_check
  intro _ hbound
  rw [ensure_eq_ok] at hbound
  apply keeps_check
  intro _ hrecord
  rw [ensure_eq_ok] at hrecord
  apply keeps_skip (v := old.length) fun fault => by simp [fileExec, hlog]
  apply keeps_check
  intro _ hlength
  rw [ensure_eq_ok] at hlength
  have hnew := verifyLog_append hs hold hadmitted hphase hbound hrecord hlength
  -- the record is written
  apply keeps_bind (keeps_writeRecord hlog hold hstored hnew)
  intro _ w4 hw4
  have hlog4 : w4.log = some (old ++ nextLine c s l v e) := by
    rw [hw4]
  have hstored4 : OnChain c s l w4 (v.advance c s e) ∨ w4.checkpoint = none := by
    rw [hw4]
    rcases hstored with ⟨checkpoint, hparse, hon⟩ | hnone
    · exact .inl ⟨checkpoint, hparse, ensureOnChain_advance hold hon⟩
    · exact .inr hnone
  apply keeps_skip fun _ => rfl
  have hparent : Keeps c s l (onlyIf (createNew = true)
      (io .syncParent "sync new authenticated audit log directory entry"))
      (fun _ w' => w' = w4) w4 := by
    cases createNew with
    | true => exact keeps_look (fun _ => rfl) rfl
    | false => exact keeps_pure rfl
  apply keeps_bind hparent
  intro _ w6 hw6
  subst hw6
  -- and the new head is stored
  apply keeps_bind (keeps_persistCheckpoint hlog4 hnew fun _ => hstored4)
  intro _ w7 hw7
  have hlog7 : w7.log = some (old ++ nextLine c s l v e) := by
    rw [hw7]
    exact hlog4
  obtain ⟨events, hhead, hevents⟩ :=
    atHead_of_appended hs hold hadmitted hbound hlog7 hnew (by rw [hw7]; rfl)
  obtain ⟨events', hevents', rfl, -⟩ := verifyLog_spec hold
  have hsame : events' = events := Option.some.inj (hevents'.symm.trans hevents)
  subst hsame
  exact keeps_pure ⟨old, _, events', hlog, hold, hevents, hphase, hhead⟩

theorem keeps_append (hs : s.Lawful) :
    Keeps c s l (append c s l e) (Follows c s l w e) w := by
  unfold append
  apply keeps_check
  intro _ hvalid
  apply keeps_check
  intro _ hidentity
  unfold ensureIdentity at hidentity
  rw [ensure_eq_ok] at hidentity
  exact keeps_withLog (keeps_appendLocked hs ⟨hvalid, hidentity⟩)

/-- A checkpoint that was checked against the whole log. -/
theorem atHead_of_checked (hlog : w.log = some old) (hold : verifyLog c s l old = .ok v)
    (hstored : parseCheckpoint s w.checkpoint = .ok (some checkpoint))
    (hon : ensureOnChain c s l v checkpoint = .ok ())
    (hhead : checkpoint.sequence = v.sequence ∧
      checkpoint.recordHash = Text.hexEncode v.recordHash.val) :
    ∃ events, v = verifiedOf c s events ∧ AtHead c s l w checkpoint old events := by
  obtain ⟨events, hevents, rfl, -⟩ := verifyLog_spec hold
  refine ⟨events, rfl, hlog, hold, hevents, hstored, hon, ?_, ?_⟩
  · rw [hhead.1, sequence_verifiedOf]
  · rw [hhead.2, recordHash_verifiedOf]

variable {atUnixMs : UInt64}

/-- The outcome that closes a pending intent is one the ledger may hold. -/
theorem admitted_resolvedEvent {events : List AuditEvent} (hevents : ∀ e ∈ events, Admitted l e)
    (hat : 0 < atUnixMs) {id : Bytes 16} {binding : PendingIntentBinding}
    (hpending : (id, binding) ∈ (verifiedOf c s events).pendingIntents) :
    Admitted l (resolvedEvent c l atUnixMs id binding) := by
  obtain ⟨e, he, rfl⟩ := mem_pendingIntents hpending
  have hvalid := (hevents e he).valid
  simp only [AuditEvent.validate, check_eq_ok, ensure_eq_ok] at hvalid
  obtain ⟨-, -, -, hkind, -, hpolicy, hintent, -, -⟩ := hvalid
  refine ⟨?_, rfl, rfl⟩
  simp only [AuditEvent.validate, check_eq_ok, ensure_eq_ok]
  have hreason : validateToken resolveUnknownReason maxReasonCodeBytes "reason code" = .ok () :=
    ensure_eq_ok.mpr (by decide)
  refine ⟨?_, l.generation_pos, hat, hkind, hreason, hpolicy, hintent, ?_, ?_⟩
  · simp [validateProfileId, resolvedEvent, isLowerHex_bytes]
  · simp [validateResultDigest, validateDigest, resolvedEvent, resolvedUnknownResultDigest,
      isLowerHex_bytes]
  · simp [AuditEvent.validatePhase, resolvedEvent]

variable {predecessor anchor : Option AuditCheckpoint}

/-- The first event of a generation is one the ledger may hold. -/
theorem admitted_generationTransitionEvent {oldName newName : String} (hat : 0 < atUnixMs) :
    Admitted l (generationTransitionEvent c s l predecessor oldName newName atUnixMs) := by
  refine ⟨?_, rfl, rfl⟩
  simp only [AuditEvent.validate, check_eq_ok, ensure_eq_ok]
  have hkind : validateToken "audit.generation" maxOperationKindBytes "operation kind" = .ok () :=
    ensure_eq_ok.mpr (by decide)
  refine ⟨?_, l.generation_pos, hat, hkind, ?_, ?_, ?_, ?_, ?_⟩
  · simp [validateProfileId, generationTransitionEvent, isLowerHex_bytes]
  · cases predecessor with
    | none =>
      show validateToken "generation.genesis" maxReasonCodeBytes "reason code" = .ok ()
      exact ensure_eq_ok.mpr (by decide)
    | some checkpoint =>
      show validateToken "generation.transition" maxReasonCodeBytes "reason code" = .ok ()
      exact ensure_eq_ok.mpr (by decide)
  · simp [validateDigest, generationTransitionEvent, isLowerHex_bytes]
  · simp [validateDigest, generationTransitionEvent, isLowerHex_bytes]
  · simp [validateResultDigest, validateDigest, generationTransitionEvent, isLowerHex_bytes]
  · simp [AuditEvent.validatePhase, generationTransitionEvent]

/-- Closing the pending intents: the head is stored after each of them. -/
theorem keeps_resolveEach (hs : s.Lawful) :
    ∀ {pending : List (Bytes 16 × PendingIntentBinding)} {checkpoint : AuditCheckpoint}
      {w : Files},
      (∀ entry ∈ pending, Admitted l (resolvedEvent c l atUnixMs entry.1 entry.2)) →
      Headed c s l checkpoint w →
      Keeps c s l (resolveEach c s l atUnixMs pending checkpoint)
        (Headed c s l) w := by
  intro pending
  induction pending with
  | nil =>
    intro checkpoint w _ hhead
    exact keeps_pure hhead
  | cons entry pending ih =>
    intro checkpoint w hadmitted _
    unfold resolveEach
    apply keeps_bind (keeps_appendLocked hs (hadmitted entry (by simp)))
    intro checkpoint' w' hfollows
    refine ih (fun entry' hentry' => ?_) hfollows.headed
    exact hadmitted entry' (by simp [hentry'])

theorem keeps_resolvePendingAsUnknown (hs : s.Lawful) :
    Keeps c s l (resolvePendingAsUnknown c s l atUnixMs anchor) (fun resolution w' =>
      Headed c s l resolution.checkpoint w') w := by
  unfold resolvePendingAsUnknown
  apply keeps_check
  intro _ hat
  rw [ensure_eq_ok] at hat
  apply keeps_withLog
  apply keeps_reading
  intro v old hlog hold
  apply keeps_bind keeps_verifyCheckpointAgainstLog
  intro current w2 hcurrent
  obtain ⟨rfl, hparse, hon, hnotLagging⟩ := hcurrent
  apply keeps_check
  intro _ _
  obtain ⟨events, rfl, hhead⟩ := atHead_of_checked hlog hold hparse hon (hnotLagging rfl)
  obtain ⟨events', -, hsame, hevents⟩ := verifyLog_spec hold
  have hadmitted : ∀ entry ∈ (verifiedOf c s events).pendingIntents.mergeSort (fun a b =>
      Bytes.le a.1.val b.1.val), Admitted l (resolvedEvent c l atUnixMs entry.1 entry.2) := by
    intro entry hentry
    rw [hsame, mem_mergeSort] at hentry
    exact admitted_resolvedEvent hevents hat hentry
  apply keeps_bind (keeps_resolveEach hs hadmitted ⟨old, events, hhead⟩)
  intro checkpoint w' hdone
  exact keeps_pure hdone

theorem keeps_verifyInternal {requireComplete : Bool} :
    Keeps c s l (verifyInternal c s l anchor requireComplete) (fun inspection w' =>
      w' = w ∧ ∃ old events, AtHead c s l w' inspection.checkpoint old events ∧
        verifyExternalAnchor c s l (verifiedOf c s events) inspection.checkpoint anchor =
          .ok ()) w := by
  unfold verifyInternal
  apply keeps_withLog
  apply keeps_reading
  intro v old hlog hold
  apply keeps_check
  intro _ _
  apply keeps_bind keeps_verifyCheckpointAgainstLog
  intro checkpoint w2 hcheckpoint
  obtain ⟨rfl, hparse, hon, hnotLagging⟩ := hcheckpoint
  apply keeps_check
  intro _ hanchor
  obtain ⟨events, rfl, hhead⟩ := atHead_of_checked hlog hold hparse hon (hnotLagging rfl)
  exact keeps_pure ⟨rfl, old, events, hhead, hanchor⟩

/-- What a repairable checkpoint is: on the chain of the log, or missing for an empty log. -/
theorem stored_of_ensureRepairable {prior : Option AuditCheckpoint}
    (hprior : parseCheckpoint s w.checkpoint = .ok prior)
    (h : ensureRepairable c s l v prior = .ok ()) : OnChain c s l w v ∨ w.checkpoint = none := by
  cases prior with
  | some checkpoint => exact .inl ⟨checkpoint, hprior, h⟩
  | none => exact .inr (parseCheckpoint_eq_none hprior)

theorem keeps_reconcile (hs : s.Lawful) :
    Keeps c s l (reconcile c s l)
      (Headed c s l) w := by
  unfold reconcile
  apply keeps_withLog
  apply keeps_reading
  intro v old hlog hold
  apply keeps_bind keeps_readCheckpoint
  intro prior w2 hprior
  obtain ⟨rfl, hprior⟩ := hprior
  apply keeps_check
  intro _ hrepairable
  apply keeps_bind (keeps_persistCheckpoint hlog hold fun _ =>
    stored_of_ensureRepairable hprior hrepairable)
  intro _ w3 hw3
  apply keeps_pure
  have hlog3 : w3.log = some old := by
    rw [hw3]
    exact hlog
  obtain ⟨events, -, hhead⟩ := atHead_of_stored hs hlog3 hold (verifyLog_bounded hold)
    (by rw [hw3])
  exact ⟨old, events, hhead⟩

theorem keeps_initializeCreateNew (hs : s.Lawful) :
    Keeps c s l (initializeCreateNew c s l e)
      (Headed c s l) w := by
  unfold initializeCreateNew
  apply keeps_check
  intro _ hvalid
  apply keeps_check
  intro _ hidentity
  unfold ensureIdentity at hidentity
  rw [ensure_eq_ok] at hidentity
  apply keeps_skip fun _ => rfl
  apply keeps_check
  intro _ _
  have hcreate : Keeps c s l (io .createLog "create new protected audit log")
      (fun _ _ => True) w := by
    apply keeps_io
    intro fault a w' hw'
    simp only [fileExec] at hw'
    split at hw'
    · rename_i hnone
      refine ⟨?_, fun _ _ => trivial⟩
      rcases (perform_eq_some hw').1 with hsame | hdone
      · exact .inl hsame
      · rw [hdone]
        exact .inr (.create hnone)
    · exact ⟨.inl (refuse_eq_some hw').1, fun _ _ => trivial⟩
  apply keeps_bind hcreate
  intro _ w2 _
  apply keeps_underLock
  exact (keeps_appendLocked hs ⟨hvalid, hidentity⟩).imp fun _ _ hfollows => hfollows.headed

theorem keeps_resumeGenerationInitialization (hs : s.Lawful) (hadmitted : Admitted l e) :
    Keeps c s l (resumeGenerationInitialization c s l e)
      (Headed c s l) w := by
  unfold resumeGenerationInitialization resumeLocked
  apply keeps_withLog
  apply keeps_reading
  intro v old hlog hold
  by_cases hempty : v.sequence = 0
  · -- nothing was written yet
    simp only [hempty, if_true]
    apply keeps_check
    intro _ _
    exact (keeps_appendLocked hs hadmitted).imp fun _ _ hfollows => hfollows.headed
  · -- the record is there, and only the checkpoint is missing
    simp only [hempty, if_false]
    apply keeps_check
    intro _ _
    apply keeps_check
    intro _ _
    apply keeps_bind (keeps_persistCheckpoint hlog hold (fun h => by cases h))
    intro _ w2 hw2
    apply keeps_pure
    have hlog2 : w2.log = some old := by
      rw [hw2]
      exact hlog
    obtain ⟨events, -, hhead⟩ := atHead_of_stored hs hlog2 hold (verifyLog_bounded hold)
      (by rw [hw2])
    exact ⟨old, events, hhead⟩

theorem keeps_verifySingleGenerationEvent :
    Keeps c s l (verifySingleGenerationEvent c s l e)
      (Headed c s l) w := by
  unfold verifySingleGenerationEvent
  apply keeps_withLog
  apply keeps_reading
  intro v old hlog hold
  apply keeps_check
  intro _ _
  apply keeps_bind keeps_verifyCheckpointAgainstLog
  intro checkpoint w2 hcheckpoint
  obtain ⟨rfl, hparse, hon, hnotLagging⟩ := hcheckpoint
  apply keeps_check
  intro _ _
  obtain ⟨events, -, hhead⟩ := atHead_of_checked hlog hold hparse hon (hnotLagging rfl)
  exact keeps_pure ⟨old, events, hhead⟩

theorem keeps_initializeGeneration (hs : s.Lawful) {oldName newName : String} :
    Keeps c s l (initializeGeneration c s l predecessor oldName newName atUnixMs)
      (Headed c s l) w := by
  unfold initializeGeneration
  apply keeps_check
  intro _ hat
  rw [ensure_eq_ok] at hat
  apply keeps_check
  intro _ _
  apply keeps_check
  intro _ _
  apply keeps_skip fun _ => rfl
  apply keeps_skip fun _ => rfl
  unfold initializeFrom
  split
  · exact keeps_initializeCreateNew hs
  · exact keeps_verifySingleGenerationEvent
  · exact keeps_resumeGenerationInitialization hs (admitted_generationTransitionEvent hat)
  · exact trivial

/-- What a call has established when it returns a checkpoint. -/
def Established (c : Crypto) (s : Serde) (l : AuditLedger) (call : LedgerCall)
    (checkpoint : AuditCheckpoint) (w : Files) : Prop :=
  ∃ old events, AtHead c s l w checkpoint old events ∧ match call with
    | .append e => events.getLast? = some e
    | .verify anchor _ =>
      verifyExternalAnchor c s l (verifiedOf c s events) checkpoint anchor = .ok ()
    | _ => True

/-- **Every call** makes only steps of the ledger, and returns a checkpoint only where it is
    stored and is the head of the log. -/
theorem keeps_serve (hs : s.Lawful) (call : LedgerCall) :
    Keeps c s l (serve c s l call) (Established c s l call) w := by
  cases call with
  | initializeGeneration predecessor oldName newName atUnixMs =>
    apply (keeps_initializeGeneration hs).imp
    rintro checkpoint w' ⟨old, events, hhead⟩
    exact ⟨old, events, hhead, trivial⟩
  | append e =>
    apply (keeps_append hs).imp
    intro checkpoint w' hfollows
    obtain ⟨old, events, hhead⟩ := hfollows.atHead
    exact ⟨old, _, hhead, by simp⟩
  | reconcile =>
    apply (keeps_reconcile hs).imp
    rintro checkpoint w' ⟨old, events, hhead⟩
    exact ⟨old, events, hhead, trivial⟩
  | resolvePendingAsUnknown atUnixMs anchor =>
    apply keeps_bind (keeps_resolvePendingAsUnknown hs)
    rintro resolution w' ⟨old, events, hhead⟩
    exact keeps_pure ⟨old, events, hhead, trivial⟩
  | verify anchor requireComplete =>
    apply keeps_bind keeps_verifyInternal
    intro inspection w' hhead
    obtain ⟨-, old, events, hhead, hanchor⟩ := hhead
    exact keeps_pure ⟨old, events, hhead, hanchor⟩

end Calls

/-! ## Every sequence of calls -/

/-- The reply of a call tells what it has established. -/
def Replied (c : Crypto) (s : Serde) (l : AuditLedger) (r : LedgerReply) (w : Files) : Prop :=
  ∀ checkpoint, r.2 = .ok checkpoint → Established c s l r.1 checkpoint w

/-- Every sequence of calls is sound, wherever the calls are stopped. -/
theorem ledgerPool_sound (hs : s.Lawful) :
    (ledgerPool c s l).Sound (fun _ => True) (fun _ => ledgerContract c s l)
      (fun _ => Replied c s l) where
  inv_iff _ _ := Iff.rfl
  stable := by
    intro _ r w w' hrely h
    have heq : w = w' := hrely
    exact heq ▸ h
  apart i j _ _ hne := absurd rfl hne
  env := by
    intro w fault w' h
    cases h
  crash _ _ _ _ _ := trivial
  launch := by
    intro _ call w p hp _
    cases hp
    apply Safe.bind_iff.mpr
    apply Safe.mono _ (keeps_serve hs call)
    intro ended w' h checkpoint hreply
    obtain ⟨result, u⟩ := ended
    have hok : result = .ok checkpoint := hreply
    subst hok
    exact h

end Serctl.Audit
