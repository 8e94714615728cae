import Serctl.Audit.Outcome
import Serctl.Daemon.ConnSafety

/-!
# Steps in time

The deadline that ends a request also ends the wait for its outcome: an outcome that is to be
recorded after the deadline is refused.  This module singles out the steps for which this does not
happen.  The clock stays before the deadline, and the append of the outcome finds room, meets no
fault and is not cut short.

What connections do at any time, they do in time; and the ledgers that they have written to have a
log that verifies and a checkpoint on its chain.
-/

namespace Serctl.Daemon

open Lib Lib.Task Lib.Guard Ipc List
open Audit (AuditEvent AuditRecord Chained Fault Files Serde journal outcomesFor)

variable {HW HOp : Type} {HAns : HOp → Type} {HC : Type}

/-! ## Steps in time -/

/-- The time that a request has. -/
structure Timing where
  /-- The connection that the request comes on. -/
  conn : Nat
  /-- While the connection runs, the clock stays before this instant. -/
  limit : Nat
  deriving DecidableEq, Repr

namespace Timing

variable (t : Timing)

/-- The append of the outcome. -/
def closes : ConnOp HOp → Bool
  | .append conn _ e => conn = t.conn ∧ e.phase = .outcome
  | _ => false

/-- The clock stays before the limit, the wall clock has been set, the deadline that the daemon has
    computed for the request is not before the limit, and the append of the outcome finds room and
    meets no fault. -/
def permits (w : World HW) (op : ConnOp HOp) (choice : ConnChoice HC) : Bool :=
  match op, choice with
  | .instantNow, .time now => now < t.limit
  | .unixNow, .time now => 0 < UInt64.ofNat now
  | .auditNew operation, _ => operation.conn ≠ t.conn ∨ t.limit ≤ operation.deadline
  | .append conn entry e, .faults faults =>
    !t.closes (.append conn entry e : ConnOp HOp) ||
      (faults.all (· = .none) && Audit.hasRoom (w.files entry.identity))
  | .append conn entry e, .panics _ => !t.closes (.append conn entry e : ConnOp HOp)
  | _, _ => true

end Timing

section Terms

variable (x : Platform) (s : Serde) (keys : ProfileIdentity → Bytes 32)

/-- The ledgers that have confirmed an event of the connection are chained. -/
def Logged (conn : Nat) (w : World HW) : Prop :=
  ∀ entry e, .appended entry e ∈ trace w.history conn →
    Chained x.toCrypto s (ledgerOf keys entry.identity) (w.files entry.identity)

/-- The terms of a connection in time. -/
def timelyTerms (t : Timing) (conn : Nat) : Contract (World HW) (ConnOp HOp) :=
  { connContract x s keys conn with inv := fun w => Inv x s w ∧ Logged x s keys t.conn w }

variable (H : AsyncSystem HW HOp HAns HC)

/-- The steps in time.  The append of the outcome is not cut short. -/
def timelySystem (t : Timing) :
    ConnSystem HW HAns HC :=
  (connSystem x s keys H).limit t.permits fun op => !t.closes op

/-- The connection's program keeps its terms in time. -/
def Meets {α : Type} (t : Timing) (conn : Nat) (task : ConnTask HAns α)
    (Q : α → World HW → Prop) (E : Error → World HW → Prop) (K : Nat → World HW → Prop) (n : Nat)
    (w : World HW) : Prop :=
  wp (timelySystem x s keys H t) (timelyTerms x s keys t conn) task Q E K n w

/-- Outside of all timers it ends where `Q` holds, however it ends. -/
def Ends {α : Type} (t : Timing) (conn : Nat) (task : ConnTask HAns α) (Q : World HW → Prop)
    (w : World HW) : Prop :=
  Meets x s keys H t conn task (fun _ => Q) (fun _ => Q) (fun _ => Q) 0 w

end Terms

variable {x : Platform} {s : Serde} {keys : ProfileIdentity → Bytes 32}
  {H : AsyncSystem HW HOp HAns HC} {t : Timing} {conn k n : Nat} {w w' : World HW} {α β : Type}

/-! ## Chained ledgers stay chained -/

section

variable (hw : Logged x s keys k w)

include hw

theorem Logged.same (hhistory : w'.history = w.history)
    (hfiles : w'.files = w.files) : Logged x s keys k w' := by
  intro entry e hmem
  rw [hhistory] at hmem
  rw [hfiles]
  exact hw entry e hmem

theorem Logged.calm (h : Calm w w') : Logged x s keys k w' :=
  hw.same h.history h.files

theorem Logged.setFiles {identity : ProfileIdentity} {files : Files}
    (h : Chained x.toCrypto s (ledgerOf keys identity) (w.files identity) →
      Chained x.toCrypto s (ledgerOf keys identity) files) :
    Logged x s keys k (w.setFiles identity files) := by
  intro entry e hmem
  have hold := hw entry e hmem
  by_cases hsame : entry.identity = identity
  · rw [hsame] at hold ⊢
    simpa [World.setFiles] using h hold
  · simpa [World.setFiles, hsame] using hold

theorem Logged.record {events : List Event} (h : ∀ entry e, .appended entry e ∈ events →
      Chained x.toCrypto s (ledgerOf keys entry.identity) (w.files entry.identity)) :
    Logged x s keys k (w.record conn events) := by
  intro entry e hmem
  by_cases hsame : k = conn
  · subst hsame
    rw [trace_record_self, mem_append] at hmem
    rcases hmem with hold | hnew
    · exact hw entry e hold
    · exact h entry e hnew
  · rw [trace_record_of_ne hsame] at hmem
    exact hw entry e hmem

end

/-- An append chains the ledger, or leaves it as it was in this respect. -/
theorem logged_append (hs : s.Lawful) {entry : ProfilePoolEntry} {e : AuditEvent}
    {faults : List Fault} {r : Except Error Unit}
    (h : appendExec x s keys w conn entry e faults = some (r, w')) (hw : Logged x s keys k w) :
    Logged x s keys k w' := by
  -- wherever it stops, an append is a call of the ledger
  have hserve : ∀ {p files}, Prog.follow Audit.auditSystem faults
      (Audit.append x.toCrypto s (ledgerOf keys entry.identity) e ()) (w.files entry.identity) =
        some (p, files) → Logged x s keys k (w.setFiles entry.identity files) := by
    intro p files hfollow
    have hcall : Prog.follow Audit.auditSystem faults
        (Audit.serve x.toCrypto s (ledgerOf keys entry.identity) (.append e) ())
        (w.files entry.identity) = some (p, files) := hfollow
    exact hw.setFiles fun hchained => Audit.chained_of_serve hs hchained hcall
  unfold appendExec at h
  split at h
  · rename_i checkpoint _ files hfollow
    cases h
    apply (hserve hfollow).record
    intro entry' e' hmem
    simp only [mem_cons, reduceCtorEq, Event.appended.injEq, not_mem_nil, or_false,
      false_or] at hmem
    obtain ⟨rfl, rfl⟩ := hmem
    simpa [World.setFiles] using Audit.chained_of_append hs hfollow
  · rename_i err _ files hfollow
    cases h
    exact (hserve hfollow).record (by simp)
  · cases h

variable {choice : ConnChoice HC} {op : ConnOp HOp}

section

variable (hw : Logged x s keys k w)

include hw

theorem logged_unlockWorker (hs : s.Lawful)
    {r : Except Error (Except Error (ProfileIdentity × Bytes 32))}
    (h : unlockWorkerExec x s keys w choice = some (r, w')) : Logged x s keys k w' := by
  obtain rfl | ⟨identity, faults, p, files, hfollow, rfl⟩ := unlockWorkerExec_cases h
  · exact hw
  · exact hw.setFiles fun hchained => Audit.chained_of_serve hs hchained hfollow

theorem logged_spend {record : GrantRecord} {current : Nat}
    {r : Except Nat Unit} (h : spendExec w conn record current choice = some (r, w')) :
    Logged x s keys k w' := by
  unfold spendExec at h
  split at h
  · split at h
    · cases h
      have hspent : Logged x s keys k (w.record conn [.spent record.index]) :=
        hw.record (by simp)
      exact hspent.same rfl rfl
    · cases h
  · cases h
    exact hw
  · cases h

/-- **No operation** undoes a chain. -/
theorem logged_exec (hs : s.Lawful) {a : ConnAns HAns op}
    (h : connExec x s keys H w op choice = some (a, w')) : Logged x s keys k w' := by
  cases op with
  | append conn entry e =>
    cases choice <;> simp only [connExec, reduceCtorEq] at h
    · cases h
      exact hw.record (by simp)
    · exact logged_append hs h hw
  | unlockWorker profile passphrase => exact logged_unlockWorker hw hs h
  | remainingCompareExchangeWeak conn record current => exact logged_spend hw h
  | dispatch conn request =>
    obtain ⟨-, rfl⟩ := plainly_eq_some h
    exact hw.record (by simp)
  | insertGrant grant entry now =>
    obtain ⟨-, rfl⟩ := plainly_eq_some h
    apply hw.same <;> unfold insertGrantExec <;> split <;> rfl
  | insertEntry identity profile callKey expiresAt =>
    obtain ⟨-, rfl⟩ := plainly_eq_some h
    exact hw.same rfl rfl
  | auditCompareExchange conn current new =>
    obtain ⟨-, rfl⟩ := plainly_eq_some h
    apply hw.same <;> unfold auditCompareExchangeExec <;> split <;> rfl
  | auditNew | auditStore | quarantinedStore =>
    obtain ⟨-, rfl⟩ := plainly_eq_some h
    exact hw.same rfl rfl
  | _ => exact hw.calm (calm_of_exec (by trivial) h)

theorem logged_drop (h : connDrop H w op choice = some w') : Logged x s keys k w' := by
  cases op with
  | append conn entry e =>
    cases choice <;> cases h
    exact hw.record (by simp)
  | unlockWorker profile passphrase =>
    cases choice <;> cases h
    exact hw
  | insertGrant | insertEntry | auditNew | auditCompareExchange | auditStore | quarantinedStore
  | remainingCompareExchangeWeak | dispatch => cases choice <;> cases h
  | _ => exact hw.calm (calm_of_drop (by trivial) h)

theorem logged_env (hs : s.Lawful) (h : connEnv x s keys H w choice = some w') :
    Logged x s keys k w' := by
  cases choice <;> simp only [connEnv, reduceCtorEq] at h
  · obtain ⟨⟨p, files⟩, hfollow, rfl⟩ := Option.map_eq_some_iff.mp h
    exact hw.setFiles fun hchained => Audit.chained_of_serve hs hchained hfollow
  · obtain ⟨handlers, -, rfl⟩ := Option.map_eq_some_iff.mp h
    exact hw.same rfl rfl

theorem logged_crash (h : connCrash H w choice = some w') : Logged x s keys k w' := by
  cases choice <;> simp only [connCrash, reduceCtorEq] at h
  obtain ⟨handlers, -, rfl⟩ := Option.map_eq_some_iff.mp h
  exact hw.same rfl rfl

end

/-! ## Rules for programs in time -/

/-- What a program does at any time, it does in time. -/
theorem safe_timely (hs : s.Lawful) {p : Prog (ConnOp HOp × Nat) (Timed (ConnAns HAns)) α}
    {Q : α → World HW → Prop}
    (h : Safe (connSystem x s keys H).inTimers (connContract x s keys conn).inTimers Q p w) :
    Safe (timelySystem x s keys H t).inTimers (timelyTerms x s keys t conn).inTimers Q p w := by
  apply Safe.strengthen_inTimers (C := connContract x s keys conn) _ _ _ h
  · exact fun w w' hrely => hrely
  · exact fun w hinv => hinv.1
  · intro w1 op hinv _
    refine ⟨trivial, fun c a w2 hexec => ?_, fun c w2 hdrop => ?_⟩
    · have hconn := (AsyncSystem.limit_exec.mp hexec).2
      exact ⟨hconn, fun hinv2 hguar => ⟨⟨hinv2, logged_exec hinv.2 hs hconn⟩, hguar⟩⟩
    · have hconn := (AsyncSystem.limit_drop.mp hdrop).2
      exact ⟨hconn, fun hinv2 hguar => ⟨⟨hinv2, logged_drop hinv.2 hconn⟩, hguar⟩⟩

section Rules

variable {Q : α → World HW → Prop} {E : Error → World HW → Prop} {K : Nat → World HW → Prop}

/-- **At any time** implies in time. -/
theorem Runs.meets (hs : s.Lawful) {task : ConnTask HAns α}
    (h : Runs x s keys H conn task Q E K n w) : Meets x s keys H t conn task Q E K n w :=
  safe_timely hs h

theorem Meets.mono {Q' : α → World HW → Prop} {E' : Error → World HW → Prop}
    {K' : Nat → World HW → Prop} {task : ConnTask HAns α}
    (h : Meets x s keys H t conn task Q E K n w) (hQ : ∀ a w', Q a w' → Q' a w')
    (hE : ∀ e w', E e w' → E' e w') (hK : ∀ timer w', K timer w' → K' timer w') :
    Meets x s keys H t conn task Q' E' K' n w :=
  wp_mono h hQ hE hK

variable {J : World HW → Prop} {f : ConnAns HAns op → ConnTask HAns β}

section

variable {Q : β → World HW → Prop}

/-- A calm operation, with what its answer says in time, and what is left if it is dropped. -/
theorem meets_calm (hs : s.Lawful) (hop : IsCalm op) (hJ : Stable x s keys conn J) (hw : J w)
    (hK : ∀ timer < n, ∀ w1 choice w2, connDrop H w1 op choice = some w2 → J w2 → K timer w2)
    (hf : ∀ w1 choice a w2, Inv x s w1 → t.permits w1 op choice = true →
      connExec x s keys H w1 op choice = some (a, w2) → Calm w1 w2 → J w2 →
      Meets x s keys H t conn (f a) Q E K n w2) :
    Meets x s keys H t conn (ask op >>= f) Q E K n w := by
  have hguar : ∀ {w1 w2 : World HW}, Calm w1 w2 →
      (connContract x s keys conn : Contract (World HW) (ConnOp HOp)).guar w1 w2 :=
    fun hcalm => hcalm.guar
  apply wp_seq
  apply (wp_call op).mpr
  intro w1 hrely hinv
  have hw1 : J w1 := hJ w w1 hrely.1 hrely.2.1 hrely.2.2 hw
  refine ⟨trivial, fun choice a w2 h => ?_, fun timer ht choice w2 h => ?_⟩
  · obtain ⟨hpermits, hexec⟩ := AsyncSystem.limit_exec.mp h
    have hcalm := calm_of_exec hop hexec
    exact ⟨⟨hinv.1.calm hcalm, logged_exec hinv.2 hs hexec⟩, hguar hcalm,
      hf w1 choice a w2 hinv.1 hpermits hexec hcalm (hcalm.stable hJ hw1)⟩
  · have hdrop := (AsyncSystem.limit_drop.mp h).2
    have hcalm := calm_of_drop hop hdrop
    exact ⟨⟨hinv.1.calm hcalm, logged_drop hinv.2 hdrop⟩, hguar hcalm,
      hK timer ht w1 choice w2 hdrop (hcalm.stable hJ hw1)⟩

/-- A calm operation whose answer does not matter. -/
theorem meets_skip (hs : s.Lawful) (hop : IsCalm op)
    (hJ : Stable x s keys conn J) (hw : J w) (hK : ∀ timer < n, ∀ w', J w' → K timer w')
    (hf : ∀ a w', J w' → Meets x s keys H t conn (f a) Q E K n w') :
    Meets x s keys H t conn (ask op >>= f) Q E K n w := by
  apply meets_calm hs hop hJ hw
  · exact fun timer ht _ _ w' _ hw' => hK timer ht w' hw'
  · exact fun _ _ a w' _ _ _ _ hw' => hf a w' hw'

/-- The clock is read in time, and at once. -/
theorem meets_instantNow (hs : s.Lawful)
    (hJ : Stable x s keys conn J) (hw : J w) {f : Nat → ConnTask HAns β}
    (hf : ∀ now w', now < t.limit → J w' →
      Meets x s keys H t conn (f now) Q E K n w') :
    Meets x s keys H t conn (ask .instantNow >>= f) Q E K n w := by
  apply meets_calm hs (by trivial) hJ hw
  · intro timer _ w1 choice w2 h
    cases choice <;> cases h
  · intro w1 choice now w2 _ hpermits hexec _ hw2
    cases choice <;> cases hexec
    simp only [Timing.permits, decide_eq_true_eq] at hpermits
    exact hf _ w1 hpermits hw2

/-- So is the wall clock. -/
theorem meets_unixNow (hs : s.Lawful)
    (hJ : Stable x s keys conn J) (hw : J w) {f : UInt64 → ConnTask HAns β}
    (hf : ∀ now w', 0 < now → J w' →
      Meets x s keys H t conn (f now) Q E K n w') :
    Meets x s keys H t conn (ask .unixNow >>= f) Q E K n w := by
  apply meets_calm hs (by trivial) hJ hw
  · intro timer _ w1 choice w2 h
    cases choice <;> cases h
  · intro w1 choice now w2 _ hpermits hexec _ hw2
    cases choice <;> cases hexec
    simp only [Timing.permits, decide_eq_true_eq] at hpermits
    exact hf _ w1 hpermits hw2

/-- The audit of the request begins, and its deadline is not before the limit. -/
theorem meets_auditNew (hs : s.Lawful) {operation : GrantAuditOperation}
    (hconn : operation.conn = t.conn) (hJ : Stable x s keys t.conn J) (hw : J w)
    {f : Unit → ConnTask HAns β}
    (hf : ∀ w', t.limit ≤ operation.deadline → J w' → Meets x s keys H t t.conn (f ()) Q E K n
      { w' with audit := Function.update w'.audit t.conn .pending }) :
    Meets x s keys H t t.conn (ask (.auditNew operation) >>= f) Q E K n w := by
  apply wp_seq
  apply (wp_call (ConnOp.auditNew operation : ConnOp HOp)).mpr
  intro w1 hrely hinv
  have hw1 : J w1 := hJ w w1 hrely.1 hrely.2.1 hrely.2.2 hw
  refine ⟨trivial, fun choice a w2 h => ?_, fun timer _ choice w2 h => ?_⟩
  · obtain ⟨hpermits, hexec⟩ := AsyncSystem.limit_exec.mp h
    have hlimit : t.limit ≤ operation.deadline := by
      simpa [Timing.permits, hconn] using hpermits
    have hstarted : connExec x s keys H w1 (.auditNew operation) choice = some (a, w2) := hexec
    have hlogged := logged_exec hinv.2 hs hstarted
    obtain ⟨-, rfl⟩ := plainly_eq_some hexec
    rw [hconn] at hlogged ⊢
    refine ⟨⟨hinv.1.setAudit, hlogged⟩, ⟨evolves_setAudit, fun other hother => ⟨rfl, ?_⟩⟩,
      hf w1 hlimit hw1⟩
    exact Function.update_of_ne hother _ _
  · have hdrop := (AsyncSystem.limit_drop.mp h).2
    cases choice <;> cases hdrop

end

end Rules

end Serctl.Daemon
