import Serctl.Daemon.GrantSafety

/-!
# Quarantine

A failed append to the ledger of a profile quarantines an entry of the pool, and a quarantined
entry serves only requests that change nothing.  The mark is on the entry that the failed request
was bound to.  Other entries of the same profile may be around: one in the pool, after the profile
was unlocked again, and others that grants are bound to.  The profile as a whole is sealed off
only if all of these are marked.
-/

namespace Serctl.Daemon

open Lib Lib.Task Lib.Guard Ipc Function List Option Lib.AsyncSystem IsStill
open Audit (AuditEvent Serde jsonSerde jsonSerde_lawful)

variable {HW HOp : Type} {HAns : HOp → Type} {HC : Type}

/-! ## Sealed profiles -/

/-- An entry that is in use, and that is marked if it belongs to the closed profile. -/
structure Barred (closed : Option ProfileIdentity) (entry : ProfilePoolEntry) (w : World HW) :
    Prop where
  used : entry.index < w.entries
  marked : closed = some entry.identity → w.quarantined entry.index = true

/-- Whatever entry a request can find is barred. -/
structure Sealed (closed : Option ProfileIdentity) (w : World HW) : Prop where
  pool : ∀ entry ∈ w.pool.entries, Barred closed entry.2 w
  live : ∀ record ∈ w.registry.live.entries, Barred closed record.2.entry w

/-- The history goes on.  What a connection goes on with is never the confirmation of an append:
    that comes in one step with the attempt. -/
def Onward (history history' : List (Nat × Event)) : Prop :=
  ∃ more, history' = history ++ more ∧
    ∀ conn entry e, (trace more conn).head? ≠ some (.appended entry e)

/-- Entries stay in use, marks stay, and the history goes on. -/
structure Grows (w w' : World HW) : Prop where
  entries : w.entries ≤ w'.entries
  quarantined : ∀ n < w.entries, w.quarantined n = true → w'.quarantined n = true
  history : Onward w.history w'.history

/-- Neither entries nor marks change, and tables only lose entries. -/
structure Slight (w w' : World HW) : Prop where
  pool : ∀ entry ∈ w'.pool.entries, entry ∈ w.pool.entries
  live : ∀ record ∈ w'.registry.live.entries, record ∈ w.registry.live.entries
  entries : w'.entries = w.entries
  quarantined : w'.quarantined = w.quarantined
  history : Onward w.history w'.history

variable {w w' : World HW} {closed : Option ProfileIdentity} {entry : ProfilePoolEntry}

theorem trace_append {history more : List (Nat × Event)} {conn : Nat} :
    trace (history ++ more) conn = trace history conn ++ trace more conn := by
  simp [trace]

theorem Onward.refl (history : List (Nat × Event)) : Onward history history :=
  ⟨[], by simp, by simp [trace]⟩

theorem Onward.trans {h1 h2 h3 : List (Nat × Event)} (h : Onward h1 h2) (h' : Onward h2 h3) :
    Onward h1 h3 := by
  obtain ⟨more, rfl, hmore⟩ := h
  obtain ⟨more', rfl, hmore'⟩ := h'
  refine ⟨more ++ more', append_assoc .., fun conn entry e => ?_⟩
  rw [trace_append, head?_append]
  cases hhead : (trace more conn).head? with
  | none => exact hmore' conn entry e
  | some event =>
    have hfirst := hmore conn entry e
    rwa [hhead] at hfirst

/-- What a step records begins with something else than a confirmation. -/
theorem onward_record {conn : Nat} {event : Event} {events : List Event}
    (h : ∀ entry e, event ≠ .appended entry e) :
    Onward w.history (w.record conn (event :: events)).history := by
  refine ⟨_, rfl, fun other entry e => ?_⟩
  by_cases hother : conn = other
  · subst hother
    simpa [trace] using h entry e
  · have hnone : trace ((event :: events).map fun event => (conn, event)) other = [] := by
      simp [trace, hother]
    simp only [hnone, head?_nil, reduceCtorEq, not_false_eq_true, ne_eq]

theorem Grows.refl (w : World HW) : Grows w w := ⟨le_rfl, fun _ _ h => h, .refl _⟩

theorem Grows.trans {w1 w2 w3 : World HW} (h : Grows w1 w2) (h' : Grows w2 w3) : Grows w1 w3 where
  entries := Nat.le_trans h.entries h'.entries
  quarantined n hn hmark :=
    h'.quarantined n (Nat.lt_of_lt_of_le hn h.entries) (h.quarantined n hn hmark)
  history := h.history.trans h'.history

theorem Barred.grows (h : Barred closed entry w) (hgrows : Grows w w') :
    Barred closed entry w' where
  used := Nat.lt_of_lt_of_le h.used hgrows.entries
  marked hclosed := hgrows.quarantined _ h.used (h.marked hclosed)

theorem Slight.refl (w : World HW) : Slight w w :=
  ⟨fun _ h => h, fun _ h => h, rfl, rfl, .refl _⟩

theorem Calm.slight (h : Calm w w') : Slight w w' :=
  ⟨h.pool, h.live, h.entries, h.quarantined, h.history ▸ .refl _⟩

theorem slight_record {conn : Nat} {event : Event} {events : List Event}
    (h : ∀ entry e, event ≠ .appended entry e) : Slight w (w.record conn (event :: events)) :=
  ⟨fun _ h => h, fun _ h => h, rfl, rfl, onward_record h⟩

theorem Slight.grows (h : Slight w w') : Grows w w' where
  entries := by rw [h.entries]
  quarantined n _ hmark := by rw [h.quarantined, hmark]
  history := h.history

theorem Sealed.slight (hw : Sealed closed w) (h : Slight w w') : Sealed closed w' where
  pool entry hentry := (hw.pool entry (h.pool entry hentry)).grows h.grows
  live record hrecord := (hw.live record (h.live record hrecord)).grows h.grows

/-- A grant on a barred entry. -/
theorem Sealed.insertGrant (hw : Sealed closed w) {grant : OperationGrant} {now : Nat}
    (hentry : Barred closed entry w) :
    Sealed closed (insertGrantExec w grant entry now).2 ∧
      Grows w (insertGrantExec w grant entry now).2 := by
  unfold insertGrantExec
  split
  · rename_i record registry hinsert
    have hgrows : Grows w { w with
        registry := registry
        issued := w.issued ++ [record]
        remaining := update w.remaining record.index grant.budget } :=
      ⟨le_rfl, fun _ _ hmark => hmark, .refl _⟩
    refine ⟨⟨fun other hother => (hw.pool other hother).grows hgrows, fun other hother => ?_⟩,
      hgrows⟩
    rcases GrantRegistryState.mem_live_insert hinsert hother with hnew | hold
    · rw [hnew, (GrantRegistryState.insert_record hinsert).2.2]
      exact hentry.grows hgrows
    · exact (hw.live other hold).grows hgrows
  · exact ⟨hw, Grows.refl w⟩

variable {identity : ProfileIdentity}

/-- An entry of another profile. -/
theorem Sealed.insertEntry (hw : Sealed closed w) {profile : String}
    {callKey : Bytes 32} {expiresAt : Nat} (hopen : closed ≠ some identity) :
    Sealed closed (unlockExec w identity profile callKey expiresAt) ∧
      Grows w (unlockExec w identity profile callKey expiresAt) := by
  -- the new entry has a name of its own, so no mark is lost
  have hgrows : Grows w (unlockExec w identity profile callKey expiresAt) := by
    refine ⟨Nat.le_succ _, fun n hn hmark => ?_, .refl _⟩
    simp only [unlockExec, update_of_ne (Nat.ne_of_lt hn)]
    exact hmark
  refine ⟨⟨fun other hother => ?_, fun other hother => ?_⟩, hgrows⟩
  · rcases Table.mem_insert hother with rfl | hold
    · exact ⟨Nat.lt_succ_self _, fun hclosed => absurd hclosed hopen⟩
    · exact (hw.pool other hold).grows hgrows
  · exact (hw.live other hother).grows hgrows

/-- One more mark. -/
theorem Sealed.quarantine (hw : Sealed closed w) :
    Sealed closed { w with quarantined := update w.quarantined entry.index true } ∧
      Grows w { w with quarantined := update w.quarantined entry.index true } := by
  have hgrows : Grows w { w with quarantined := update w.quarantined entry.index true } := by
    refine ⟨le_rfl, fun n _ hmark => ?_, .refl _⟩
    by_cases hn : n = entry.index
    · simp [hn]
    · simpa [update_of_ne hn] using hmark
  exact ⟨⟨fun other hother => (hw.pool other hother).grows hgrows,
    fun other hother => (hw.live other hother).grows hgrows⟩, hgrows⟩

/-! ## Steps -/

/-- No entry of the closed profile without a mark is put where later requests find it: no unlock
    publishes one, and no grant is issued on one. -/
def upholds (closed : Option ProfileIdentity) (w : World HW) (op : ConnOp HOp)
    (_ : ConnChoice HC) : Bool :=
  match op with
  | .insertEntry identity _ _ _ => closed ≠ some identity
  | .insertGrant _ entry _ => closed = some entry.identity → w.quarantined entry.index = true
  | _ => true

/-- The profile and the kind of a request that goes to its handler. -/
def dispatchedFor : ConnOp HOp → Option (ProfileIdentity × String)
  | .dispatch _ request => some (request.record.entry.identity, request.prelude.operationKind)
  | .dispatchProfile entry prelude _ => some (entry.identity, prelude.operationKind)
  | _ => none

variable {e : AuditEvent} {record : GrantRecord}

section Steps

variable {x : Platform} {s : Serde} {keys : ProfileIdentity → Bytes 32}
  {H : AsyncSystem HW HOp HAns HC} {op : ConnOp HOp} {choice : ConnChoice HC}

theorem slight_setFiles {files : Audit.Files} : Slight w (w.setFiles identity files) :=
  ⟨fun _ h => h, fun _ h => h, rfl, rfl, .refl _⟩

theorem Slight.recorded {conn : Nat} {event : Event} {events : List Event} (h : Slight w w')
    (hevent : ∀ entry e, event ≠ .appended entry e) :
    Slight w (w'.record conn (event :: events)) :=
  ⟨h.pool, h.live, h.entries, h.quarantined, h.history.trans (onward_record hevent)⟩

theorem slight_append {conn : Nat} {r : Except Error Unit}
    (h : connExec x s keys H w (.append conn entry e) choice = some (r, w')) : Slight w w' := by
  cases choice <;> simp only [connExec, reduceCtorEq] at h
  · cases h
    exact slight_record (by simp)
  · unfold appendExec at h
    split at h
    · cases h
      exact slight_setFiles.recorded (by simp)
    · cases h
      exact slight_setFiles.recorded (by simp)
    · cases h

theorem slight_unlockWorker {profile passphrase : String}
    {r : Except Error (Except Error (ProfileIdentity × Bytes 32))}
    (h : connExec x s keys H w (.unlockWorker profile passphrase) choice = some (r, w')) :
    Slight w w' := by
  obtain rfl | ⟨identity, faults, p, files, -, rfl⟩ := unlockWorkerExec_cases h
  · exact Slight.refl w'
  · exact slight_setFiles

theorem slight_spend {conn current : Nat} {r : Except Nat Unit}
    (h : spendExec w conn record current choice = some (r, w')) : Slight w w' := by
  cases choice with
  | flag swapped =>
    cases swapped with
    | true =>
      simp only [spendExec] at h
      split at h
      · cases h
        have hspent : Onward w.history (w.record conn [.spent record.index]).history :=
          onward_record (by simp)
        exact ⟨fun _ h => h, fun _ h => h, rfl, rfl, hspent⟩
      · cases h
    | false =>
      cases h
      exact Slight.refl w
  | _ => cases h

/-- **One step** next to a sealed profile. -/
theorem Sealed.exec (hw : Sealed closed w)
    (hused : ∀ grant entry now, op = .insertGrant grant entry now → entry.index < w.entries)
    (hupholds : upholds closed w op choice = true) {a : ConnAns HAns op}
    (h : connExec x s keys H w op choice = some (a, w')) : Sealed closed w' ∧ Grows w w' := by
  have hslight : Slight w w' → Sealed closed w' ∧ Grows w w' :=
    fun hslight => ⟨hw.slight hslight, hslight.grows⟩
  cases op with
  | insertGrant grant entry now =>
    obtain ⟨-, rfl⟩ := plainly_eq_some h
    simp only [upholds, decide_eq_true_eq] at hupholds
    exact hw.insertGrant ⟨hused grant entry now rfl, hupholds⟩
  | insertEntry identity profile callKey expiresAt =>
    obtain ⟨-, rfl⟩ := plainly_eq_some h
    simp only [upholds, ne_eq, decide_not, Bool.not_eq_true', decide_eq_false_iff_not] at hupholds
    exact hw.insertEntry hupholds
  | quarantinedStore entry =>
    obtain ⟨-, rfl⟩ := plainly_eq_some h
    exact hw.quarantine
  | unlockWorker profile passphrase => exact hslight (slight_unlockWorker h)
  | append conn entry e => exact hslight (slight_append h)
  | remainingCompareExchangeWeak conn record current => exact hslight (slight_spend h)
  | auditCompareExchange conn current new =>
    obtain ⟨-, rfl⟩ := plainly_eq_some h
    apply hslight
    unfold auditCompareExchangeExec
    split <;> exact ⟨fun _ h => h, fun _ h => h, rfl, rfl, .refl _⟩
  | auditNew | auditStore =>
    obtain ⟨-, rfl⟩ := plainly_eq_some h
    exact hslight ⟨fun _ h => h, fun _ h => h, rfl, rfl, .refl _⟩
  | dispatch conn request =>
    obtain ⟨-, rfl⟩ := plainly_eq_some h
    exact hslight (slight_record (by simp))
  | _ => exact hslight (calm_of_exec (by trivial) h).slight

end Steps

/-! ## The terms of a connection -/

/-- The terms next to a sealed profile.  What only `later` connections have to keep concerns the
    requests that go to their handlers. -/
def quarantineTerms (closed : Option ProfileIdentity) (later : Prop) :
    Contract (World HW) (ConnOp HOp) where
  inv := Sealed closed
  rely := Grows
  guar := Grows
  ok w op := (∀ grant entry now, op = .insertGrant grant entry now → entry.index < w.entries) ∧
    (later → ∀ identity kind, dispatchedFor op = some (identity, kind) → closed = some identity →
      operationAllowedWhileQuarantined kind = true)
  rely_refl := Grows.refl
  rely_trans := Grows.trans

/-- Operations that are permitted in every world. -/
def IsMild : ConnOp HOp → Prop
  | .insertGrant _ _ _ => False
  | .dispatch _ _ => False
  | .dispatchProfile _ _ _ => False
  | _ => True

theorem IsMild.ok {op : ConnOp HOp} (hop : IsMild op) {later : Prop} :
    (quarantineTerms closed later).ok w op := by
  cases op with
  | insertGrant | dispatch | dispatchProfile => exact hop.elim
  | _ => exact ⟨fun _ _ _ h => (by cases h), fun _ _ _ h => (by cases h)⟩

section Rules

variable (x : Platform) (s : Serde) (keys : ProfileIdentity → Bytes 32)
  (H : AsyncSystem HW HOp HAns HC)

variable {x s keys H} {later : Prop} {α β : Type} {n : Nat} {Q : β → World HW → Prop}
  {J : World HW → Prop}

variable {f : α → ConnTask HAns β} {task : ConnTask HAns α}

end Rules

/-! ## Mild programs -/

section Mild

variable {x : Platform} {op : GrantAuditOperation}

end Mild

/-! ## Connections -/

section Connections

variable {x : Platform} {s : Serde} {keys : ProfileIdentity → Bytes 32}
  {H : AsyncSystem HW HOp HAns HC} {handlers : HandlerContext → Frame → Handler HAns}
  {later : Prop} {fuel conn n : Nat} {prelude : V6RequestPrelude} {frame : Frame}

end Connections

/-! ## The daemon -/

section Daemon

variable (x : Platform) (handlers : HandlerContext → Frame → Handler HAns) (s : Serde)
  (keys : ProfileIdentity → Bytes 32) (H : AsyncSystem HW HOp HAns HC)

variable {x handlers s keys H} {later : Nat → Prop} {fuel : Nat}

theorem Barred.weaken (h : Barred closed entry w) : Barred none entry w :=
  ⟨h.used, fun hnone => by cases hnone⟩

theorem Sealed.weaken (h : Sealed closed w) : Sealed none w :=
  ⟨fun other hother => (h.pool other hother).weaken,
    fun other hother => (h.live other hother).weaken⟩

/-- Every attempt is confirmed at once. -/
def Followed (events : List Event) : Prop :=
  ∀ before entry e rest, events = before ++ .attempted entry e :: rest →
    rest.head? = some (.appended entry e)

theorem followed_nil : Followed [] := by
  intro before entry e rest h
  simp at h

theorem Followed.pair {entry : ProfilePoolEntry} {e : AuditEvent} {events : List Event}
    (h : Followed events) : Followed (.attempted entry e :: .appended entry e :: events) := by
  intro before entry' e' rest heq
  rcases before with _ | ⟨_, _ | ⟨_, before⟩⟩
  · cases heq
    rfl
  · cases heq
  · cases heq
    exact h before entry' e' rest rfl

theorem Followed.cons {event : Event} {events : List Event}
    (hevent : ∀ entry e, event ≠ .attempted entry e) (h : Followed events) :
    Followed (event :: events) := by
  intro before entry' e' rest heq
  cases before with
  | nil =>
    cases heq
    exact absurd rfl (hevent _ _)
  | cons _ before =>
    cases heq
    exact h before entry' e' rest rfl

theorem Told.followed {prelude : V6RequestPrelude} {told tail : List Event}
    (h : Told prelude entry e told) (htail : Followed tail) : Followed (told ++ tail) := by
  cases h with
  | denied => exact htail.pair
  | dispatched request _ _ => exact ((htail.cons (by simp)).cons (by simp)).pair

/-- **A connection whose append has failed** does not return without the mark. -/
theorem Accounted.marked {conn : Nat} {prelude : V6RequestPrelude}
    (h : Accounted x s keys conn prelude w) {before rest : List Event}
    (htrace : trace w.history conn = before ++ .attempted entry e :: rest)
    (hrest : ∀ other e', rest.head? ≠ some (.appended other e')) :
    w.quarantined entry.index = true := by
  have hattempted : .attempted entry e ∈ trace w.history conn := by
    rw [htrace]
    simp
  cases h with
  | untouched hempty => simp [hempty] at hattempted
  | unrecorded entry' e' _ hquarantined hsingle =>
    simp only [hsingle, mem_singleton, Event.attempted.injEq] at hattempted
    rw [hattempted.1]
    exact hquarantined
  | closed entry' e' _ _ told tail htold hsettled hclosing hclosed =>
    rcases hsettled with ⟨outcome, -, -, -, rfl⟩ | hquarantined
    · -- every append of a request with an outcome was confirmed
      have htail : Followed [.attempted entry' outcome, .appended entry' outcome] :=
        followed_nil.pair
      have hfollowed := htold.followed htail
      exact absurd (hfollowed before entry e rest (hclosed.symm.trans htrace)) (hrest entry e)
    · -- all that a request tries to append goes to its own entry
      have hentry : entry = entry' := by
        rw [hclosed, mem_append] at hattempted
        rcases hattempted with htold' | htail
        · cases htold <;> simp at htold' <;> exact htold'.1
        · exact (hclosing _ htail).1
      rw [hentry]
      exact hquarantined

section

variable
  {P : DaemonPool HW HAns HC}
  {cfg cfg' : DaemonConfig HW HAns}
  {conn n : Nat} {p : Prog (ConnOp HOp × Nat) (Timed (ConnAns HAns)) ConnReply}

end

end Daemon

/-! ## A run to a mark, and a run that the theorem does not cover

The grant is issued on the first entry of the profile.  The request under it cannot open the
ledger. -/

end Serctl.Daemon
