import Mathlib.Data.List.Nodup
import Serctl.Audit.Journal
import Serctl.Daemon.Conn

/-!
# What connections keep

The invariant of the daemon: what was spent and what is left of a budget add up; the intents that
the ledgers confirmed belong to different connections and name different requests; and every
request that was dispatched had its intent confirmed, has spent a unit of its grant, and was
authorized by it.
-/

namespace Serctl.Daemon

open Lib Lib.Guard Ipc Function List
open Audit (AuditEvent Files Serde journal Intact intentsFor outcomesFor)

/-! ## The history -/

/-- An event that appends an intent. -/
def intentOf : Nat × Event → Option (Nat × ProfileIdentity × Bytes 16)
  | (conn, .appended entry e) =>
    if e.phase = .intent then some (conn, entry.identity, e.requestId) else none
  | _ => none

/-- An event that spends a unit. -/
def spendOf : Nat × Event → Option (Nat × Nat)
  | (conn, .spent record) => some (conn, record)
  | _ => none

/-- An event that dispatches a request. -/
def dispatchOf : Nat × Event → Option (Nat × Dispatch)
  | (conn, .dispatched request) => some (conn, request)
  | _ => none

/-- The intents that a ledger has confirmed. -/
def intents (history : List (Nat × Event)) : List (Nat × ProfileIdentity × Bytes 16) :=
  history.filterMap intentOf

/-- The units that were spent, with the grants they belong to. -/
def spends (history : List (Nat × Event)) : List (Nat × Nat) := history.filterMap spendOf

/-- All dispatches. -/
def dispatches (history : List (Nat × Event)) : List (Nat × Dispatch) :=
  history.filterMap dispatchOf

/-- How many of these units belong to a grant. -/
def spentOn (spends : List (Nat × Nat)) (record : Nat) : Nat :=
  (spends.filter fun spend => spend.2 = record).length

variable {HW HOp : Type} {HAns : HOp → Type} {HC : Type} {w w' : World HW} {conn : Nat}
  {history : List (Nat × Event)} {event : Event}

theorem mem_trace : event ∈ trace history conn ↔ (conn, event) ∈ history := by
  simp [trace]

variable {identity : ProfileIdentity}

theorem mem_intents {id : Bytes 16} :
    (conn, identity, id) ∈ intents history ↔
      ∃ entry e, .appended entry e ∈ trace history conn ∧ e.phase = .intent ∧
        entry.identity = identity ∧ e.requestId = id := by
  simp only [intents, mem_filterMap, mem_trace]
  constructor
  · rintro ⟨⟨conn', event⟩, hmem, hof⟩
    cases event with
    | appended entry e =>
      by_cases hphase : e.phase = .intent
      · simp only [intentOf, hphase, if_true, Option.some.injEq, Prod.mk.injEq] at hof
        obtain ⟨rfl, rfl, rfl⟩ := hof
        exact ⟨entry, e, hmem, hphase, rfl, rfl⟩
      · simp [intentOf, hphase] at hof
    | attempted => cases hof
    | spent => cases hof
    | dispatched => cases hof
  · rintro ⟨entry, e, hmem, hphase, rfl, rfl⟩
    exact ⟨_, hmem, by simp [intentOf, hphase]⟩

theorem mem_spends {record : Nat} :
    (conn, record) ∈ spends history ↔ .spent record ∈ trace history conn := by
  simp only [spends, mem_filterMap, mem_trace]
  constructor
  · rintro ⟨⟨conn', event⟩, hmem, hof⟩
    cases event <;> cases hof
    exact hmem
  · exact fun hmem => ⟨_, hmem, rfl⟩

theorem mem_dispatches {request : Dispatch} :
    (conn, request) ∈ dispatches history ↔ .dispatched request ∈ trace history conn := by
  simp only [dispatches, mem_filterMap, mem_trace]
  constructor
  · rintro ⟨⟨conn', event⟩, hmem, hof⟩
    cases event <;> cases hof
    exact hmem
  · exact fun hmem => ⟨_, hmem, rfl⟩

variable (events : List Event)

@[simp] theorem trace_record_self :
    trace (w.record conn events).history conn = trace w.history conn ++ events := by
  have hown : (events.map fun event => (conn, event)).filter (fun step => step.1 = conn) =
      events.map fun event => (conn, event) := by
    simp [filter_eq_self]
  simp only [trace, World.record, filter_append, hown, map_append, map_map]
  simp [comp_def]

theorem trace_record_of_ne {other : Nat} (hne : other ≠ conn) (events : List Event) :
    trace (w.record conn events).history other = trace w.history other := by
  simp [trace, World.record, Ne.symm hne]

@[simp] theorem intents_record :
    intents (w.record conn events).history =
      intents w.history ++ events.filterMap fun event => intentOf (conn, event) := by
  simp [intents, World.record]

@[simp] theorem spends_record :
    spends (w.record conn events).history =
      spends w.history ++ events.filterMap fun event => spendOf (conn, event) := by
  simp [spends, World.record]

@[simp] theorem dispatches_record :
    dispatches (w.record conn events).history =
      dispatches w.history ++ events.filterMap fun event => dispatchOf (conn, event) := by
  simp [dispatches, World.record]

/-- Nothing that the invariant counts. -/
def Uncounted (event : Event) : Prop :=
  ∀ conn, intentOf (conn, event) = none ∧ spendOf (conn, event) = none ∧
    dispatchOf (conn, event) = none

variable {e : AuditEvent} {entry : ProfilePoolEntry} {r : GrantRecord}

theorem uncounted_attempted :
    Uncounted (.attempted entry e) :=
  fun _ => ⟨rfl, rfl, rfl⟩

theorem uncounted_appended (hphase : e.phase ≠ .intent) : Uncounted (.appended entry e) :=
  fun _ => ⟨by simp [intentOf, hphase], rfl, rfl⟩

/-! ## What is counted -/

section Counts

variable (x : Platform) (s : Serde)

/-- What has to hold of a request for its dispatch. -/
structure Authorized (request : Dispatch) : Prop where
  kind : frameKind request.frame = request.prelude.operationKind
  committed : x.sha256 (x.frameJson request.frame) = request.prelude.rootRequestHash
  covers : request.record.grant.covers request.prelude = true
  profile : request.record.grant.coversProfile request.prelude = true
  possession : ∃ signature, request.prelude.popSignature = some signature ∧
    verifyPreludePop x request.record.grant.holderKey signature request.prelude = .ok ()

/-- Intents, units and dispatches agree with each other, with the grants and with the ledgers. -/
structure Counts (issued : List GrantRecord) (remaining : Nat → Nat)
    (files : ProfileIdentity → Files) (intents : List (Nat × ProfileIdentity × Bytes 16))
    (spends : List (Nat × Nat)) (dispatches : List (Nat × Dispatch)) : Prop where
  spent : ∀ spend ∈ spends, spend.2 < issued.length
  budget : ∀ r ∈ issued, remaining r.index + spentOn spends r.index = r.grant.budget
  intentConns : (intents.map Prod.fst).Nodup
  intentIds : (intents.map Prod.snd).Nodup
  intentLogged : ∀ intent ∈ intents, intentsFor intent.2.2 (journal s (files intent.2.1)) ≠ []
  spendConns : (spends.map Prod.fst).Nodup
  dispatchConns : (dispatches.map Prod.fst).Nodup
  dispatched : ∀ d ∈ dispatches, d.2.record ∈ issued ∧ (d.1, d.2.record.index) ∈ spends ∧
    (d.1, d.2.record.entry.identity, d.2.prelude.requestId) ∈ intents ∧ Authorized x d.2

end Counts

variable {x : Platform} {s : Serde} {keys : ProfileIdentity → Bytes 32}

namespace Counts

variable {issued : List GrantRecord} {remaining : Nat → Nat}
  {files files' : ProfileIdentity → Files}
  {I : List (Nat × ProfileIdentity × Bytes 16)} {S : List (Nat × Nat)} {D : List (Nat × Dispatch)}

section

variable (h : Counts x s issued remaining files I S D)

include h

/-- Ledgers grow. -/
theorem grow (hgrows : ∀ identity, journal s (files identity) <+: journal s (files' identity)) :
    Counts x s issued remaining files' I S D :=
  { h with
    intentLogged := by
      intro intent hintent hnil
      have hmono : intentsFor intent.2.2 (journal s (files intent.2.1)) <+:
          intentsFor intent.2.2 (journal s (files' intent.2.1)) :=
        Audit.intentsFor_mono (hgrows intent.2.1)
      rw [hnil] at hmono
      exact h.intentLogged intent hintent (prefix_nil.mp hmono) }

/-- The ledger confirms an intent whose request it has not seen before. -/
theorem intent {identity : ProfileIdentity}
    {id : Bytes 16} (hconn : conn ∉ I.map Prod.fst) (hnew : (identity, id) ∉ I.map Prod.snd)
    (hlogged : intentsFor id (journal s (files identity)) ≠ []) :
    Counts x s issued remaining files (I ++ [(conn, identity, id)]) S D :=
  { h with
    intentConns := by
      rw [map_append]
      exact nodup_append_comm.mp (nodup_cons.mpr ⟨hconn, h.intentConns⟩)
    intentIds := by
      rw [map_append]
      exact nodup_append_comm.mp (nodup_cons.mpr ⟨hnew, h.intentIds⟩)
    intentLogged := by
      intro intent hintent
      rw [mem_append, mem_singleton] at hintent
      rcases hintent with hold | rfl
      · exact h.intentLogged intent hold
      · exact hlogged
    dispatched := by
      intro d hd
      obtain ⟨hissued, hspent, hintent, hauthorized⟩ := h.dispatched d hd
      exact ⟨hissued, hspent, mem_append_left _ hintent, hauthorized⟩ }

/-- A unit is spent by a connection that has spent none. -/
theorem spend (hissued : ∀ r ∈ issued, issued[r.index]? = some r) (hr : r ∈ issued)
    (hpos : remaining r.index ≠ 0) (hconn : conn ∉ S.map Prod.fst) :
    Counts x s issued (update remaining r.index (remaining r.index - 1)) files I
      (S ++ [(conn, r.index)]) D :=
  { h with
    spent := by
      intro spend hspend
      rw [mem_append, mem_singleton] at hspend
      rcases hspend with hold | rfl
      · exact h.spent spend hold
      · exact (List.getElem?_eq_some_iff.mp (hissued r hr)).1
    budget := by
      intro r' hr'
      have hold := h.budget r' hr'
      unfold spentOn at hold ⊢
      rw [filter_append, length_append]
      by_cases hsame : r'.index = r.index
      · rw [hsame] at hold ⊢
        simp only [update_self, filter_singleton, decide_true, cond_true, length_singleton]
        omega
      · simpa [update_of_ne hsame, Ne.symm hsame] using hold
    spendConns := by
      rw [map_append]
      exact nodup_append_comm.mp (nodup_cons.mpr ⟨hconn, h.spendConns⟩)
    dispatched := by
      intro d hd
      obtain ⟨hissued, hspent, hintent, hauthorized⟩ := h.dispatched d hd
      exact ⟨hissued, mem_append_left _ hspent, hintent, hauthorized⟩ }

/-- A request goes to its handler. -/
theorem dispatch {d : Dispatch} (hconn : conn ∉ D.map Prod.fst) (hissued : d.record ∈ issued)
    (hspent : (conn, d.record.index) ∈ S)
    (hintent : (conn, d.record.entry.identity, d.prelude.requestId) ∈ I)
    (hauthorized : Authorized x d) :
    Counts x s issued remaining files I S (D ++ [(conn, d)]) :=
  { h with
    dispatchConns := by
      rw [map_append]
      exact nodup_append_comm.mp (nodup_cons.mpr ⟨hconn, h.dispatchConns⟩)
    dispatched := by
      intro d' hd'
      rw [mem_append, mem_singleton] at hd'
      rcases hd' with hold | rfl
      · exact h.dispatched d' hold
      · exact ⟨hissued, hspent, hintent, hauthorized⟩ }

/-- A new grant, of which nothing was spent. -/
theorem issue
    (hissued : ∀ r ∈ issued, issued[r.index]? = some r) (hindex : r.index = issued.length) :
    Counts x s (issued ++ [r]) (update remaining r.index r.grant.budget) files I S D :=
  { h with
    spent := by
      intro spend hspend
      rw [length_append]
      exact Nat.lt_add_right _ (h.spent spend hspend)
    budget := by
      intro r' hr'
      rw [mem_append, mem_singleton] at hr'
      rcases hr' with hold | rfl
      · -- an older grant has an index of its own
        have hlt := (List.getElem?_eq_some_iff.mp (hissued r' hold)).1
        have hne : r'.index ≠ r.index := by omega
        rw [update_of_ne hne]
        exact h.budget r' hold
      · have hnone : spentOn S r'.index = 0 := by
          unfold spentOn
          rw [length_eq_zero_iff, filter_eq_nil_iff]
          intro spend hspend
          have hlt := h.spent spend hspend
          simp only [decide_eq_true_eq]
          omega
        rw [update_self, hnone, Nat.add_zero]
    dispatched := by
      intro d hd
      obtain ⟨hold, hspent, hintent, hauthorized⟩ := h.dispatched d hd
      exact ⟨mem_append_left _ hold, hspent, hintent, hauthorized⟩ }

end

end Counts

/-! ## The invariant -/

section Invariant

variable (x : Platform) (s : Serde) (keys : ProfileIdentity → Bytes 32)

/-- The invariant. -/
structure Inv (w : World HW) : Prop where
  pool : ∀ entry ∈ w.pool.entries, entry.2.index < w.entries
  unused : ∀ n, w.entries ≤ n → w.quarantined n = false
  live : ∀ entry ∈ w.registry.live.entries, entry.2 ∈ w.issued
  issued : ∀ r ∈ w.issued, w.issued[r.index]? = some r
  bound : ∀ r ∈ w.issued, r.entry.index < w.entries
  counts : Counts x s w.issued w.remaining w.files (intents w.history) (spends w.history)
    (dispatches w.history)

/-- What never goes back. -/
structure Evolves (w w' : World HW) : Prop where
  intact : ∀ identity, Intact x.toCrypto s (ledgerOf keys identity) (w.files identity) →
    Intact x.toCrypto s (ledgerOf keys identity) (w'.files identity)
  grows : ∀ identity, journal s (w.files identity) <+: journal s (w'.files identity)
  entries : w.entries ≤ w'.entries
  quarantined : ∀ n, w.quarantined n = true → w'.quarantined n = true
  issued : w.issued <+: w'.issued

end Invariant

theorem Evolves.refl (w : World HW) : Evolves x s keys w w where
  intact _ h := h
  grows _ := prefix_refl _
  entries := le_rfl
  quarantined _ h := h
  issued := prefix_refl _

theorem Evolves.trans {w1 w2 w3 : World HW} (h : Evolves x s keys w1 w2)
    (h' : Evolves x s keys w2 w3) :
    Evolves x s keys w1 w3 where
  intact identity hw := h'.intact identity (h.intact identity hw)
  grows identity := (h.grows identity).trans (h'.grows identity)
  entries := Nat.le_trans h.entries h'.entries
  quarantined n hn := h'.quarantined n (h.quarantined n hn)
  issued := h.issued.trans h'.issued

/-! ## Calm changes -/

/-- Tables may lose entries, and handlers may do as they like. -/
structure Calm (w w' : World HW) : Prop where
  history : w'.history = w.history
  files : w'.files = w.files
  pool : ∀ entry ∈ w'.pool.entries, entry ∈ w.pool.entries
  entries : w'.entries = w.entries
  quarantined : w'.quarantined = w.quarantined
  live : ∀ entry ∈ w'.registry.live.entries, entry ∈ w.registry.live.entries
  issued : w'.issued = w.issued
  remaining : w'.remaining = w.remaining
  audit : w'.audit = w.audit

theorem Calm.refl (w : World HW) : Calm w w where
  history := rfl
  files := rfl
  pool _ h := h
  entries := rfl
  quarantined := rfl
  live _ h := h
  issued := rfl
  remaining := rfl
  audit := rfl

theorem Calm.evolves (h : Calm w w') : Evolves x s keys w w' where
  intact _ hw := by rwa [h.files]
  grows _ := by rw [h.files]
  entries := by rw [h.entries]
  quarantined n hn := by rw [h.quarantined, hn]
  issued := by rw [h.issued]

theorem Inv.calm (hw : Inv x s w) (h : Calm w w') : Inv x s w' where
  pool entry hentry := by simpa only [h.entries] using hw.pool entry (h.pool entry hentry)
  unused := by simpa only [h.entries, h.quarantined] using hw.unused
  live entry hentry := by simpa only [h.issued] using hw.live entry (h.live entry hentry)
  issued := by simpa only [h.issued] using hw.issued
  bound := by simpa only [h.issued, h.entries] using hw.bound
  counts := by simpa only [h.issued, h.remaining, h.files, h.history] using hw.counts

/-! ## Ledgers -/

theorem evolves_setFiles {files : Files}
    (hintact : Intact x.toCrypto s (ledgerOf keys identity) (w.files identity) →
      Intact x.toCrypto s (ledgerOf keys identity) files)
    (hgrows : journal s (w.files identity) <+: journal s files) :
    Evolves x s keys w (w.setFiles identity files) where
  intact other := by
    by_cases hother : other = identity
    · subst hother
      simpa [World.setFiles] using hintact
    · simp [World.setFiles, hother]
  grows other := by
    by_cases hother : other = identity
    · subst hother
      simpa [World.setFiles] using hgrows
    · simp [World.setFiles, hother]
  entries := le_rfl
  quarantined _ h := h
  issued := prefix_refl _

/-- A ledger grows. -/
theorem Inv.setFiles (hw : Inv x s w) {files : Files}
    (hevolves : Evolves x s keys w (w.setFiles identity files)) :
    Inv x s (w.setFiles identity files) :=
  { hw with counts := hw.counts.grow hevolves.grows }

/-! ## The history grows -/

theorem evolves_record : Evolves x s keys w (w.record conn events) :=
  ⟨fun _ h => h, fun _ => prefix_refl _, le_rfl, fun _ h => h, prefix_refl _⟩

section

variable (hw : Inv x s w)

include hw

/-- Events that are not counted. -/
theorem Inv.recordUncounted {events : List Event}
    (hevents : ∀ event ∈ events, Uncounted event) : Inv x s (w.record conn events) := by
  have hintents : intents (w.record conn events).history = intents w.history := by
    simpa using fun event hevent => (hevents event hevent conn).1
  have hspends : spends (w.record conn events).history = spends w.history := by
    simpa using fun event hevent => (hevents event hevent conn).2.1
  have hdispatches : dispatches (w.record conn events).history = dispatches w.history := by
    simpa using fun event hevent => (hevents event hevent conn).2.2
  have hcounts := hw.counts
  rw [← hintents, ← hspends, ← hdispatches] at hcounts
  exact { hw with counts := hcounts }

/-- The ledger confirms an intent whose request it has not seen before. -/
theorem Inv.recordIntent (hphase : e.phase = .intent)
    (hconn : ∀ entry' e', .appended entry' e' ∉ trace w.history conn)
    (hnew : (entry.identity, e.requestId) ∉ (intents w.history).map Prod.snd)
    (hlogged : intentsFor e.requestId (journal s (w.files entry.identity)) ≠ []) :
    Inv x s (w.record conn [.appended entry e]) := by
  have hfresh : conn ∉ (intents w.history).map Prod.fst := by
    intro hfirst
    obtain ⟨⟨_, identity, id⟩, hmem, rfl⟩ := mem_map.mp hfirst
    obtain ⟨entry', e', happended, -⟩ := mem_intents.mp hmem
    exact hconn entry' e' happended
  have hcounts := hw.counts.intent hfresh hnew hlogged
  have hrecorded : Counts x s w.issued w.remaining w.files
      (intents (w.record conn [.appended entry e]).history)
      (spends (w.record conn [.appended entry e]).history)
      (dispatches (w.record conn [.appended entry e]).history) := by
    simpa [intentOf, spendOf, dispatchOf, hphase] using hcounts
  exact { hw with counts := hrecorded }

/-- A unit is spent by a connection that has spent none. -/
theorem Inv.recordSpent (hr : r ∈ w.issued)
    (hpos : w.remaining r.index ≠ 0) (hconn : ∀ i, .spent i ∉ trace w.history conn) :
    Inv x s { w.record conn [.spent r.index] with
      remaining := update w.remaining r.index (w.remaining r.index - 1) } := by
  have hfresh : conn ∉ (spends w.history).map Prod.fst := by
    intro hfirst
    obtain ⟨⟨_, i⟩, hmem, rfl⟩ := mem_map.mp hfirst
    exact hconn i (mem_spends.mp hmem)
  have hcounts := hw.counts.spend hw.issued hr hpos hfresh
  have hrecorded : Counts x s w.issued
      (update w.remaining r.index (w.remaining r.index - 1)) w.files
      (intents (w.record conn [.spent r.index]).history)
      (spends (w.record conn [.spent r.index]).history)
      (dispatches (w.record conn [.spent r.index]).history) := by
    simpa [intentOf, spendOf, dispatchOf] using hcounts
  exact { hw with counts := hrecorded }

/-- A request goes to its handler. -/
theorem Inv.recordDispatched {d : Dispatch} (hissued : d.record ∈ w.issued)
    (hconn : ∀ d', .dispatched d' ∉ trace w.history conn)
    (hspent : .spent d.record.index ∈ trace w.history conn)
    (hintent : (conn, d.record.entry.identity, d.prelude.requestId) ∈ intents w.history)
    (hauthorized : Authorized x d) : Inv x s (w.record conn [.dispatched d]) := by
  have hfresh : conn ∉ (dispatches w.history).map Prod.fst := by
    intro hfirst
    obtain ⟨⟨_, d'⟩, hmem, rfl⟩ := mem_map.mp hfirst
    exact hconn d' (mem_dispatches.mp hmem)
  have hcounts := hw.counts.dispatch hfresh hissued (mem_spends.mpr hspent) hintent hauthorized
  have hrecorded : Counts x s w.issued w.remaining w.files
      (intents (w.record conn [.dispatched d]).history)
      (spends (w.record conn [.dispatched d]).history)
      (dispatches (w.record conn [.dispatched d]).history) := by
    simpa [intentOf, spendOf, dispatchOf] using hcounts
  exact { hw with counts := hrecorded }

/-! ## Tables and cells -/

/-- A grant is issued for an entry that is in use. -/
theorem Inv.insertGrant {grant : OperationGrant} {now : Nat} (hentry : entry.index < w.entries) :
    Inv x s (insertGrantExec w grant entry now).2 ∧
      Evolves x s keys w (insertGrantExec w grant entry now).2 := by
  unfold insertGrantExec
  split
  · rename_i record registry hinsert
    obtain ⟨hindex, hgrant, hrecord⟩ := GrantRegistryState.insert_record hinsert
    have hcounts := hw.counts.issue hw.issued hindex
    rw [hgrant] at hcounts
    refine ⟨{ hw with
      counts := hcounts
      live := ?_
      issued := ?_
      bound := ?_ }, ⟨fun _ h => h, fun _ => prefix_refl _, le_rfl, fun _ h => h,
        prefix_append _ _⟩⟩
    · intro live hlive
      rw [mem_append, mem_singleton]
      rcases GrantRegistryState.mem_live_insert hinsert hlive with heq | hold
      · exact .inr heq
      · exact .inl (hw.live live hold)
    · intro r hr
      rw [mem_append, mem_singleton] at hr
      rcases hr with hold | rfl
      · rw [getElem?_append_left (List.getElem?_eq_some_iff.mp (hw.issued r hold)).1]
        exact hw.issued r hold
      · rw [hindex]
        simp
    · intro r hr
      rw [mem_append, mem_singleton] at hr
      rcases hr with hold | rfl
      · exact hw.bound r hold
      · rw [hrecord]
        exact hentry
  · exact ⟨hw, Evolves.refl w⟩

/-- A new entry takes a name that was not in use. -/
theorem Inv.unlock {profile : String} {callKey : Bytes 32} {expiresAt : Nat} :
    Inv x s (unlockExec w identity profile callKey expiresAt) ∧
      Evolves x s keys w (unlockExec w identity profile callKey expiresAt) := by
  -- the name was not quarantined, so nothing changes about the others
  have hcells : update w.quarantined w.entries false = w.quarantined := by
    rw [update_eq_self_iff]
    exact (hw.unused w.entries le_rfl).symm
  refine ⟨{ hw with
    pool := ?_
    unused := ?_
    bound := ?_ }, ⟨fun _ h => h, fun _ => prefix_refl _, Nat.le_succ _, ?_, prefix_refl _⟩⟩
  · intro entry hentry
    rcases Table.mem_insert hentry with rfl | hold
    · exact Nat.lt_succ_self _
    · exact Nat.lt_succ_of_lt (hw.pool entry hold)
  · intro n hn
    show update w.quarantined w.entries false n = false
    rw [hcells]
    exact hw.unused n (Nat.le_of_succ_le hn)
  · intro r hr
    exact Nat.lt_succ_of_lt (hw.bound r hr)
  · intro n hn
    show update w.quarantined w.entries false n = true
    rw [hcells]
    exact hn

/-- An entry that is in use is quarantined. -/
theorem Inv.quarantine (hentry : entry.index < w.entries) :
    Inv x s { w with quarantined := update w.quarantined entry.index true } :=
  { hw with
    unused := by
      intro n hn
      have hne : n ≠ entry.index := by
        have hn' : w.entries ≤ n := hn
        omega
      show update w.quarantined entry.index true n = false
      rw [update_of_ne hne]
      exact hw.unused n hn }

end

theorem evolves_quarantine :
    Evolves x s keys w { w with quarantined := update w.quarantined entry.index true } where
  intact _ h := h
  grows _ := prefix_refl _
  entries := le_rfl
  quarantined n hn := by
    show update w.quarantined entry.index true n = true
    by_cases hsame : n = entry.index
    · rw [hsame, update_self]
    · rw [update_of_ne hsame]
      exact hn
  issued := prefix_refl _

/-- How far an outcome has come is not part of the invariant. -/
theorem Inv.setAudit (hw : Inv x s w) {audit : Nat → AuditState} :
    Inv x s { w with audit := audit } :=
  { hw with }

theorem evolves_setAudit {audit : Nat → AuditState} :
    Evolves x s keys w { w with audit := audit } :=
  ⟨fun _ h => h, fun _ => prefix_refl _, le_rfl, fun _ h => h, prefix_refl _⟩

end Serctl.Daemon
