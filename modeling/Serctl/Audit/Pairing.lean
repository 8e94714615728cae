import Serctl.Audit.Journal
import Serctl.Audit.LedgerSafety

/-!
# Intents and their outcomes

The verification of a log goes over its records with a set of the requests it has seen and a table
of those that wait for their outcome.  This module says without any state what it verifies: each
request has at most one intent, and each outcome has one intent before it that it agrees with and
is the only outcome of its request.

The check of an append looks at the state only, and agrees with this.
-/

namespace Serctl.Audit

open Lib Lib.Act Lib.Guard List VerifiedLog

/-! ## What a log looks like -/

/-- The outcome agrees with the intent. -/
structure Binds (intent outcome : AuditEvent) : Prop where
  operationKind : outcome.operationKind = intent.operationKind
  policyDigest : outcome.policyDigest = intent.policyDigest
  intentDigest : outcome.intentDigest = intent.intentDigest

/-- No request has two intents, and every outcome has exactly one intent before it, with which it
    agrees, and no other outcome beside it. -/
structure Paired (events : List AuditEvent) : Prop where
  intents : ∀ id, (intentsFor id events).length ≤ 1
  outcomes : ∀ before outcome later, events = before ++ outcome :: later →
    outcome.phase = .outcome →
    (∃ intent, intentsFor outcome.requestId before = [intent] ∧ Binds intent outcome) ∧
      outcomesFor outcome.requestId events = [outcome]

/-- The intents without an outcome, by their requests. -/
def pendingOf (events : List AuditEvent) : List (Bytes 16 × PendingIntentBinding) :=
  (events.filter fun e => e.phase = .intent ∧ outcomesFor e.requestId events = []).map
    fun e => (e.requestId, .fromIntent e)

/-- The records of a log. -/
def logRecords (s : Serde) (encoded : List UInt8) : Option (List AuditRecord) :=
  (splitInclusive encoded).mapM fun line => s.parseRecord line.dropLast

/-- What an event must fulfil to follow the others. -/
def MayFollow (events : List AuditEvent) (e : AuditEvent) : Prop :=
  match e.phase with
  | .intent => intentsFor e.requestId events = []
  | .outcome => (∃ intent, intentsFor e.requestId events = [intent] ∧ Binds intent e) ∧
      outcomesFor e.requestId events = []
  | .administrative => True

variable {c : Crypto} {s : Serde} {l : AuditLedger} {events : List AuditEvent} {e : AuditEvent}

theorem mem_intentsFor {id : Bytes 16} :
    e ∈ intentsFor id events ↔ e ∈ events ∧ e.phase = .intent ∧ e.requestId = id := by
  simp [intentsFor]

/-- A longer log has the property exactly if the shorter one has it and the event may follow. -/
theorem paired_concat : Paired (events ++ [e]) ↔ Paired events ∧ MayFollow events e := by
  constructor
  · intro h
    constructor
    · constructor
      · intro id
        have hle := h.intents id
        rw [intentsFor_concat, length_append] at hle
        omega
      · intro before outcome later hsplit hphase
        obtain ⟨hintent, honly⟩ := h.outcomes before outcome (later ++ [e]) (by simp [hsplit])
          hphase
        refine ⟨hintent, ?_⟩
        -- the outcome is there already, so the new event is not another one
        have hmem : outcome ∈ outcomesFor outcome.requestId events := by
          simp [outcomesFor, hsplit, hphase]
        rw [outcomesFor_concat] at honly
        obtain ⟨x, hx⟩ := exists_cons_of_ne_nil (ne_nil_of_mem hmem)
        obtain ⟨rest, hrest⟩ := hx
        rw [hrest, cons_append, List.cons.injEq] at honly
        rw [hrest, honly.1, (append_eq_nil_iff.mp honly.2).1]
    · unfold MayFollow
      cases hphase : e.phase with
      | intent =>
        have hle := h.intents e.requestId
        simp only [intentsFor_concat, hphase, and_self, if_true, length_append,
          length_singleton] at hle
        exact eq_nil_of_length_eq_zero (by omega)
      | outcome =>
        obtain ⟨hintent, honly⟩ := h.outcomes events e [] rfl hphase
        refine ⟨hintent, ?_⟩
        simp only [outcomesFor_concat, hphase, and_self, if_true] at honly
        exact append_left_eq_self.mp honly
      | administrative => trivial
  · rintro ⟨h, hfollows⟩
    constructor
    · intro id
      have hle := h.intents id
      rw [intentsFor_concat]
      split
      · next hnew =>
        rw [MayFollow, hnew.1, hnew.2] at hfollows
        simp [hfollows]
      · simpa using hle
    · intro before outcome later hsplit hphase
      rcases eq_nil_or_concat' later with rfl | ⟨later', last, rfl⟩
      · -- it is the new event
        obtain ⟨rfl, hlast⟩ := append_inj' hsplit rfl
        cases hlast
        rw [MayFollow, hphase] at hfollows
        refine ⟨hfollows.1, ?_⟩
        simp [outcomesFor_concat, hphase, hfollows.2]
      · have hsplit' : events ++ [e] = (before ++ outcome :: later') ++ [last] := by
          simpa using hsplit
        obtain ⟨hevents, hlast⟩ := append_inj' hsplit' rfl
        cases hlast
        obtain ⟨hintent, honly⟩ := h.outcomes before outcome later' hevents hphase
        refine ⟨hintent, ?_⟩
        rw [outcomesFor_concat, honly]
        split
        · -- a second outcome may not follow
          next hnew =>
          rw [MayFollow, hnew.1, hnew.2] at hfollows
          rw [hfollows.2] at honly
          cases honly
        · rfl

/-! ## The state and the events -/

/-- An outcome takes the intents of its request away. -/
theorem pendingOf_concat_outcome (hkind : e.phase = .outcome) : pendingOf (events ++ [e]) =
    (pendingOf events).filter fun entry => entry.1 ≠ e.requestId := by
  have hlast : ¬(e.phase = .intent ∧ outcomesFor e.requestId (events ++ [e]) = []) := by
    simp [hkind]
  unfold pendingOf
  rw [filter_append, filter_singleton, decide_eq_false hlast, cond_false,
    append_nil, filter_map, filter_filter]
  congr 1
  apply filter_congr
  intro x _
  by_cases hid : e.requestId = x.requestId
  · simp [hkind, hid]
  · simp [hkind, hid, Ne.symm hid]

/-- **The reported intents** are those without an outcome. -/
theorem pendingIntents_verifiedOf (h : Orderly c s events) :
    (verifiedOf c s events).pendingIntents = pendingOf events := by
  induction h with
  | nil => rfl
  | @concat events e m horderly hphase ih =>
    rw [verifiedOf_concat]
    cases hkind : e.phase with
    | intent =>
      simp only [ensurePhase, hkind, ensure_eq_ok] at hphase
      have htally := horderly.tally e.requestId
      have hnone : intentsFor e.requestId events = [] := by
        by_contra hne
        exact hphase (htally.seen.mpr hne)
      have hanswer : outcomesFor e.requestId events = [] := by
        by_contra hne
        exact htally.answered hne hnone
      simp [advance, track, hkind, ih, pendingOf, hanswer]
    | outcome =>
      rw [pendingOf_concat_outcome hkind, ← ih]
      simp only [advance, track, hkind]
    | administrative =>
      simp [advance, track, hkind, ih, pendingOf]

theorem ensureMatchesOutcome_eq_ok {intent : AuditEvent} :
    (PendingIntentBinding.fromIntent intent).ensureMatchesOutcome e = .ok () ↔ Binds intent e := by
  simp only [PendingIntentBinding.ensureMatchesOutcome, check_eq_ok, ensure_eq_ok]
  constructor
  · rintro ⟨hkind, hpolicy, hintent⟩
    exact ⟨hkind, hpolicy, hintent⟩
  · rintro ⟨hkind, hpolicy, hintent⟩
    exact ⟨hkind, hpolicy, hintent⟩

/-- The one intent of a request waits for its outcome. -/
theorem mem_pendingOf {id : Bytes 16} {binding : PendingIntentBinding} :
    (id, binding) ∈ pendingOf events ↔ ∃ intent ∈ intentsFor id events,
      outcomesFor id events = [] ∧ binding = .fromIntent intent := by
  simp only [pendingOf, mem_map, mem_filter, decide_eq_true_eq, Prod.mk.injEq, mem_intentsFor]
  constructor
  · rintro ⟨intent, ⟨hmem, hphase, hnone⟩, rfl, rfl⟩
    exact ⟨intent, ⟨hmem, hphase, rfl⟩, hnone, rfl⟩
  · rintro ⟨intent, ⟨hmem, hphase, rfl⟩, hnone, rfl⟩
    exact ⟨intent, ⟨hmem, hphase, hnone⟩, rfl, rfl⟩

/-- **The check on the state** is the property of the event. -/
theorem ensurePhase_eq_ok (h : Orderly c s events) {m : String} :
    (verifiedOf c s events).ensurePhase e m = .ok () ↔ MayFollow events e := by
  have htally := h.tally e.requestId
  have hpending := pendingIntents_verifiedOf h
  unfold ensurePhase MayFollow
  cases e.phase with
  | intent =>
    rw [ensure_eq_ok, htally.seen, not_not]
  | administrative => simp
  | outcome =>
    have hunique : ∀ intent ∈ intentsFor e.requestId events,
        intentsFor e.requestId events = [intent] := by
      intro intent hmem
      have hle := htally.intents
      obtain ⟨x, hx⟩ := length_eq_one_iff.mp
        (Nat.le_antisymm hle (length_pos_of_mem hmem))
      rw [hx, mem_singleton] at hmem
      rw [hx, hmem]
    simp only [ensurePending, hpending]
    constructor
    · intro hensured
      split at hensured
      · cases hensured
      · next binding hlookup =>
        obtain ⟨before, after, heq, -⟩ := lookup_eq_some_iff.mp hlookup
        have hmem : (e.requestId, binding) ∈ pendingOf events := by simp [heq]
        obtain ⟨intent, hintent, hnone, rfl⟩ := mem_pendingOf.mp hmem
        exact ⟨⟨intent, hunique intent hintent, ensureMatchesOutcome_eq_ok.mp hensured⟩, hnone⟩
    · rintro ⟨⟨intent, hintent, hbinds⟩, hnone⟩
      have hmem : (e.requestId, .fromIntent intent) ∈ pendingOf events :=
        mem_pendingOf.mpr ⟨intent, by simp [hintent], hnone, rfl⟩
      split
      · next hlookup =>
        have habsent := lookup_eq_none_iff.mp hlookup _ hmem
        simp at habsent
      · next binding hlookup =>
        -- the entry that is found belongs to the only intent
        obtain ⟨before, after, heq, -⟩ := lookup_eq_some_iff.mp hlookup
        have hfound : (e.requestId, binding) ∈ pendingOf events := by simp [heq]
        obtain ⟨other, hother, -, rfl⟩ := mem_pendingOf.mp hfound
        rw [hintent, mem_singleton] at hother
        rw [hother]
        exact ensureMatchesOutcome_eq_ok.mpr hbinds

/-- **The incremental check** is the declarative property. -/
theorem orderly_iff_paired : Orderly c s events ↔ Paired events := by
  induction events using reverseRecOn with
  | nil =>
    constructor
    · intro _
      constructor
      · intro id
        exact Nat.zero_le 1
      · intro before outcome later hsplit
        simp at hsplit
    · intro _
      exact .nil
  | append_singleton events e ih =>
    rw [paired_concat, ← ih]
    constructor
    · intro h
      generalize hall : events ++ [e] = all at h
      cases h with
      | nil => simp at hall
      | @concat events' e' m horderly hphase =>
        obtain ⟨rfl, hlast⟩ := append_inj' hall rfl
        cases hlast
        exact ⟨horderly, (ensurePhase_eq_ok horderly).mp hphase⟩
    · rintro ⟨horderly, hfollows⟩
      exact .concat (m := "") horderly ((ensurePhase_eq_ok horderly).mpr hfollows)

/-! ## Records -/

/-- The records of verified lines are numbered. -/
theorem foldlM_verifyLine_records {lines : List (List UInt8)} :
    ∀ {v v' : VerifiedLog}, lines.foldlM (verifyLine c s l) v = .ok v' →
      ∃ records, lines.mapM (fun line => s.parseRecord line.dropLast) = some records ∧
        v'.sequence = v.sequence + records.length ∧
        ∀ (i : Nat) (r : AuditRecord), records[i]? = some r → r.sequence = v.sequence + i + 1 := by
  induction lines with
  | nil =>
    intro v v' h
    simp only [foldlM_nil, pure_eq_ok] at h
    subst h
    exact ⟨[], rfl, rfl, by simp⟩
  | cons line lines ih =>
    intro v v' h
    simp only [foldlM_cons, bind_eq_ok] at h
    obtain ⟨v1, hline, hlines⟩ := h
    obtain ⟨-, -, -, r, hparse, hfits, rfl⟩ := verifyLine_eq_ok.mp hline
    obtain ⟨records, hmap, hlast, hnumbers⟩ := ih hlines
    have hnext : (v.advance c s r.event).sequence = v.sequence + 1 := rfl
    rw [hnext] at hlast hnumbers
    refine ⟨r :: records, by simp [hparse, hmap], ?_, ?_⟩
    · rw [hlast, length_cons]
      omega
    · intro i r' hi
      cases i with
      | zero =>
        cases hi
        exact hfits.sequence
      | succ i =>
        rw [getElem?_cons_succ] at hi
        have hnumber := hnumbers i r' hi
        omega

/-- The events of a log are those of its records. -/
theorem logEvents_of_logRecords {encoded : List UInt8} {records : List AuditRecord}
    (h : logRecords s encoded = some records) :
    logEvents s encoded = some (records.map AuditRecord.event) := by
  unfold logRecords at h
  unfold logEvents
  generalize splitInclusive encoded = lines at h
  induction lines generalizing records with
  | nil =>
    simp only [mapM_nil, Option.pure_def, Option.some.injEq] at h
    subst h
    rfl
  | cons line lines ih =>
    simp only [mapM_cons, Option.pure_def, Option.bind_eq_bind, Option.bind_eq_some_iff,
      Option.some.injEq] at h
    obtain ⟨r, hparse, rest, hrest, rfl⟩ := h
    simp [hparse, ih hrest]

/-- No line is empty, so there are no more lines than bytes. -/
theorem length_splitInclusive_le (text : List UInt8) :
    (splitInclusive text).length ≤ text.length := by
  induction text with
  | nil => exact Nat.le_refl 0
  | cons b text ih =>
    simp only [splitInclusive]
    split
    · simpa using ih
    · split
      · simp
      · next line lines hlines =>
        rw [hlines] at ih
        simp only [length_cons] at ih ⊢
        omega

theorem length_of_mapM {α β : Type} {f : α → Option β} {as : List α} :
    ∀ {bs : List β}, as.mapM f = some bs → bs.length = as.length := by
  induction as with
  | nil =>
    intro bs h
    simp only [mapM_nil, Option.pure_def, Option.some.injEq] at h
    subst h
    rfl
  | cons a as ih =>
    intro bs h
    simp only [mapM_cons, Option.pure_def, Option.bind_eq_bind, Option.bind_eq_some_iff,
      Option.some.injEq] at h
    obtain ⟨b, -, rest, hrest, rfl⟩ := h
    rw [length_cons, length_cons, ih hrest]

/-- The events of a verified log are numbered, and the log is far too short for the numbers to run
    out. -/
theorem sequence_lt_of_verifyLog {old : List UInt8} {v : VerifiedLog}
    (hold : verifyLog c s l old = .ok v) : v.sequence + 1 < 2 ^ 64 := by
  simp only [verifyLog, check_eq_ok, ensure_eq_ok] at hold
  obtain ⟨records, hrecords, hlast, -⟩ := foldlM_verifyLine_records hold.2
  have hlines := length_splitInclusive_le old
  have hcount := length_of_mapM hrecords
  have hlimit : maxAuditLogBytes = 67108864 := rfl
  have hzero : ({} : VerifiedLog).sequence = 0 := rfl
  omega

/-- There is room for one more record. -/
structure HasRoom (c : Crypto) (s : Serde) (l : AuditLedger) (v : VerifiedLog)
    (encoded : List UInt8) (e : AuditEvent) : Prop where
  record : (s.record (nextRecord c s l v e)).length ≤ maxAuditRecordBytes
  log : encoded.length + ((s.record (nextRecord c s l v e)).length + 1) ≤ maxAuditLogBytes

/-- **Verified logs.**  The records of a verified log are numbered without gaps, intents and
    outcomes are paired, and the intents that are reported as pending are those without an outcome.
    Where the checkpoint is intact and there is room, an append of a valid event succeeds exactly
    if the log with this event is paired as well. -/
theorem verified_log_paired (c : Crypto) (s : Serde) (hs : s.Lawful) (l : AuditLedger)
    (encoded : List UInt8) (v : VerifiedLog) (h : verifyLog c s l encoded = .ok v) :
    ∃ records, logRecords s encoded = some records ∧ v.sequence = records.length ∧
      (∀ (i : Nat) (r : AuditRecord), records[i]? = some r → r.sequence = i + 1) ∧
      Paired (records.map AuditRecord.event) ∧
      v.pendingIntents = pendingOf (records.map AuditRecord.event) ∧
      ∀ (w : Files) (e : AuditEvent), w.log = some encoded → OnChain c s l w v → Admitted l e →
        HasRoom c s l v encoded e →
        ((∃ checkpoint w', steady auditSystem .none (append c s l e) () w =
            some ((.ok checkpoint, ()), w')) ↔
          Paired (records.map AuditRecord.event ++ [e])) := by
  obtain ⟨events, hevents, rfl, -⟩ := verifyLog_spec h
  have horderly : Orderly c s events := by
    obtain ⟨events', hevents', horderly⟩ := orderly_of_verifyLog h
    cases hevents.symm.trans hevents'
    exact horderly
  -- the records, as the lines were read
  have hfold := h
  simp only [verifyLog, check_eq_ok, ensure_eq_ok] at hfold
  obtain ⟨records, hrecords, hlast, hnumbers⟩ := foldlM_verifyLine_records hfold.2
  cases hevents.symm.trans (logEvents_of_logRecords hrecords)
  refine ⟨records, hrecords, by simp, ?_, orderly_iff_paired.mp horderly,
    pendingIntents_verifiedOf horderly, ?_⟩
  · intro i r hi
    have hnumber := hnumbers i r hi
    simpa using hnumber
  · intro w e hlog hchain hadmitted hroom
    rw [paired_concat]
    constructor
    · rintro ⟨checkpoint, w', hrun⟩
      obtain ⟨n, hfollow⟩ := Prog.follow_of_steadily auditSystem hrun
      obtain ⟨-, -, m, hphase⟩ := follow_append hs hfollow
      rw [journal_of_log hlog hevents] at hphase
      exact ⟨orderly_iff_paired.mp horderly, (ensurePhase_eq_ok horderly).mp hphase⟩
    · rintro ⟨-, hfollows⟩
      have hbounded := sequence_lt_of_verifyLog h
      obtain ⟨checkpoint, w', -, hrun, -⟩ := steady_append hs hlog h hchain
        ⟨hadmitted, (ensurePhase_eq_ok horderly).mpr hfollows, hbounded, hroom.record, hroom.log⟩
      exact ⟨checkpoint, w', hrun⟩

/-- The outcome of the command of `execIntent`. -/
def execOutcome : AuditEvent := { execIntent with
  atUnixMs := 1700000002000
  phase := .outcome
  decision := .allowed
  resultDigest := some "3333333333333333333333333333333333333333333333333333333333333333"
  reasonCode := "grant.completed" }

theorem admitted_execOutcome : Admitted edgeLedger execOutcome := by
  have hvalid : execOutcome.validate = .ok () := rfl
  have hidentity : execOutcome.profileId = Text.hexEncode edgeLedger.profileId.val ∧
      execOutcome.profileGeneration = edgeLedger.profileGeneration := by decide
  exact ⟨hvalid, hidentity⟩

/-- Behind two records there is room for a third one. -/
theorem edge_hasRoom (he : Admitted edgeLedger e) :
    HasRoom edgeCrypto jsonSerde edgeLedger
      (verifiedOf edgeCrypto jsonSerde [genesisEvent, execIntent]) (genesisLine ++ intentLine)
      e := by
  have hsize : ∀ {v : VerifiedLog} {e : AuditEvent}, Admitted edgeLedger e →
      v.sequence + 1 < 2 ^ 64 →
      (jsonSerde.record (nextRecord edgeCrypto jsonSerde edgeLedger v e)).length ≤
        maxAuditRecordBytes :=
    fun he hbounded => length_record_le (plain_nextRecord he hbounded)
  have hrecord := hsize (v := verifiedOf edgeCrypto jsonSerde [genesisEvent, execIntent]) he
    (by simp)
  have hintent := hsize (v := verifiedOf edgeCrypto jsonSerde [genesisEvent]) admitted_execIntent
    (by simp)
  exact ⟨hrecord, third_line_fits (length_lines_le length_genesisRecord_le hintent) hrecord⟩

/-- The log of a new generation with an intent behind its first record.  The outcome of the intent
    is appended, and the same intent is not appended a second time. -/
theorem edge_log_paired : ∃ w encoded records v,
    verifyLog edgeCrypto jsonSerde edgeLedger encoded = .ok v ∧ w.log = some encoded ∧
    logRecords jsonSerde encoded = some records ∧
    records.map AuditRecord.event = [genesisEvent, execIntent] ∧
    Paired (records.map AuditRecord.event) ∧
    v.pendingIntents = pendingOf [genesisEvent, execIntent] ∧
    Paired [genesisEvent, execIntent, execOutcome] ∧
    (∃ checkpoint w', steady auditSystem .none
      (append edgeCrypto jsonSerde edgeLedger execOutcome) () w =
        some ((.ok checkpoint, ()), w')) ∧
    ¬ ∃ checkpoint w', steady auditSystem .none
      (append edgeCrypto jsonSerde edgeLedger execIntent) () w =
        some ((.ok checkpoint, ()), w') := by
  obtain ⟨-, cfg₀, checkpoint₀, -, hret0, hhead0⟩ := edge_starts
  obtain ⟨-, cfg, checkpoint, -, -, hhead⟩ := edge_appends hret0 hhead0
  have hon : OnChain edgeCrypto jsonSerde edgeLedger cfg.world
      (verifiedOf edgeCrypto jsonSerde [genesisEvent, execIntent]) :=
    ⟨checkpoint, hhead.stored, hhead.onChain⟩
  obtain ⟨records, hrecords, -, -, hpaired, hpending, haccepts⟩ := verified_log_paired edgeCrypto
    jsonSerde jsonSerde_lawful edgeLedger _ _ hhead.verified
  have hevents : records.map AuditRecord.event = [genesisEvent, execIntent] :=
    Option.some.inj ((logEvents_of_logRecords hrecords).symm.trans hhead.carried)
  have hintents : intentsFor execIntent.requestId [genesisEvent, execIntent] = [execIntent] := rfl
  have hfollows : MayFollow (records.map AuditRecord.event) execOutcome := by
    rw [hevents]
    exact ⟨⟨execIntent, hintents, rfl, rfl, rfl⟩, rfl⟩
  have hrepeated : ¬ MayFollow (records.map AuditRecord.event) execIntent := by
    rw [hevents]
    exact fun h => cons_ne_nil _ _ (hintents.symm.trans h)
  have houtcome := haccepts cfg.world execOutcome hhead.log hon admitted_execOutcome
    (edge_hasRoom admitted_execOutcome)
  have hintent := haccepts cfg.world execIntent hhead.log hon admitted_execIntent
    (edge_hasRoom admitted_execIntent)
  rw [paired_concat] at houtcome hintent
  refine ⟨cfg.world, _, records, _, hhead.verified, hhead.log, hrecords, hevents, hpaired,
    hevents ▸ hpending, ?_, houtcome.mpr ⟨hpaired, hfollows⟩,
    fun h => hrepeated (hintent.mp h).2⟩
  have hnext := paired_concat.mpr ⟨hpaired, hfollows⟩
  rw [hevents] at hnext
  exact hnext

end Serctl.Audit
