import Serctl.Audit.Ledger

/-!
# What a verified log is

A log that verifies is a hash chain over valid events: the state that the verification collects
is a fold over the events of its lines.  A record that the ledger makes itself verifies behind
any verified log.
-/

namespace Serctl.Audit

open Lib Lib.Guard List Lib.HashChain VerifiedLog

/-! ## Lines -/

variable {text : List UInt8}

theorem splitInclusive_ne_nil (h : text ≠ []) : splitInclusive text ≠ [] := by
  cases text with
  | nil => exact absurd rfl h
  | cons b rest =>
    simp only [splitInclusive]
    split
    · simp
    · split <;> simp

/-- A line in front. -/
theorem splitInclusive_line {line : List UInt8} (hline : newline ∉ line) (rest : List UInt8) :
    splitInclusive (line ++ newline :: rest) = (line ++ [newline]) :: splitInclusive rest := by
  induction line with
  | nil => simp [splitInclusive]
  | cons b line ih =>
    have hb : b ≠ newline := fun he => hline (by simp [he])
    have hrest : newline ∉ line := fun hm => hline (by simp [hm])
    simp only [cons_append, splitInclusive, if_neg hb, ih hrest]

/-- A text that ends with a newline can be split apart from what follows. -/
theorem splitInclusive_append (hend : text = [] ∨ text.getLast? = some newline)
    (rest : List UInt8) :
    splitInclusive (text ++ rest) = splitInclusive text ++ splitInclusive rest := by
  induction text with
  | nil => rfl
  | cons b text ih =>
    have hend' : text = [] ∨ text.getLast? = some newline := by
      cases text with
      | nil => exact .inl rfl
      | cons b' text => exact .inr (by simpa using hend)
    simp only [cons_append, splitInclusive, ih hend']
    by_cases hb : b = newline
    · simp [hb]
    · -- the line goes on, so there is a line to go on with
      have htext : text ≠ [] := by
        intro he
        subst he
        simp [hb] at hend
      obtain ⟨line, lines, hlines⟩ := exists_cons_of_ne_nil (splitInclusive_ne_nil htext)
      simp [hb, hlines]

/-- The last line ends as the text ends. -/
theorem getLast_splitInclusive (h : text ≠ []) :
    ∃ line ∈ splitInclusive text, line.getLast? = text.getLast? := by
  induction text with
  | nil => exact absurd rfl h
  | cons b text ih =>
    by_cases htext : text = []
    · subst htext
      refine ⟨[b], ?_, rfl⟩
      by_cases hb : b = newline <;> simp [splitInclusive, hb]
    · obtain ⟨line, hline, hlast⟩ := ih htext
      have hlast' : (b :: text).getLast? = text.getLast? := by
        cases text with
        | nil => exact absurd rfl htext
        | cons b' text => simp
      simp only [splitInclusive]
      by_cases hb : b = newline
      · refine ⟨line, ?_, hlast.trans hlast'.symm⟩
        simp [hb, hline]
      · obtain ⟨first, lines, hlines⟩ := exists_cons_of_ne_nil (splitInclusive_ne_nil htext)
        rw [hlines] at hline
        simp only [hb, if_false, hlines]
        rcases mem_cons.mp hline with hfirst | hlater
        · -- the first line gets longer at its front
          subst hfirst
          refine ⟨b :: line, by simp, ?_⟩
          rw [hlast', ← hlast, getLast?_cons]
          cases hl : line.getLast? with
          | none =>
            rw [hl] at hlast
            rw [getLast?_eq_none_iff.mp hlast.symm] at htext
            exact absurd rfl htext
          | some x => rfl
        · exact ⟨line, by simp [hlater], hlast.trans hlast'.symm⟩

section Chain

variable (c : Crypto) (s : Serde) (l : AuditLedger)

/-! ## The state of a list of events -/

/-- The state after the events. -/
def verifiedOf (events : List AuditEvent) : VerifiedLog :=
  events.foldl (fun v e => v.advance c s e) {}

section

variable (events : List AuditEvent)

theorem verifiedOf_concat (e : AuditEvent) :
    verifiedOf c s (events ++ [e]) = (verifiedOf c s events).advance c s e := by
  simp [verifiedOf]

@[simp] theorem sequence_verifiedOf : (verifiedOf c s events).sequence = events.length := by
  induction events using reverseRecOn with
  | nil => rfl
  | append_singleton events e ih =>
    rw [verifiedOf_concat]
    simp [advance, ih]

theorem recordHash_verifiedOf :
    (verifiedOf c s events).recordHash = head (auditChain c s) events := by
  induction events using reverseRecOn with
  | nil => rfl
  | append_singleton events e ih =>
    rw [verifiedOf_concat, head_concat]
    simp only [advance, sequence_verifiedOf, ih]
    rfl

theorem length_hashes_verifiedOf : (verifiedOf c s events).hashes.length = events.length := by
  induction events using reverseRecOn with
  | nil => rfl
  | append_singleton events e ih =>
    rw [verifiedOf_concat]
    simp [advance, ih]

/-- **The heads.**  The head at a position is that of the chain up to there. -/
theorem headAt_verifiedOf :
    ∀ k ≤ events.length, (verifiedOf c s events).headAt k =
      head (auditChain c s) (events.take k) := by
  induction events using reverseRecOn with
  | nil =>
    intro k hk
    have hzero : k = 0 := by simpa using hk
    subst hzero
    rfl
  | append_singleton events e ih =>
    intro k hk
    have hlength := length_hashes_verifiedOf c s events
    rcases Nat.lt_or_eq_of_le hk with hlt | heq
    · -- an earlier position
      have hk' : k ≤ events.length := by simpa [Nat.lt_succ_iff] using hlt
      rw [take_append_of_le_length hk', ← ih k hk', verifiedOf_concat]
      simp only [headAt, advance]
      split
      · rfl
      · rename_i hne
        simp only [getD_eq_getElem?_getD]
        rw [getElem?_append_left (by omega)]
    · -- the new position
      have htake : (events ++ [e]).take k = events ++ [e] := by
        rw [heq, take_length]
      rw [htake, ← recordHash_verifiedOf, verifiedOf_concat]
      have hpos : k = events.length + 1 := by simpa using heq
      simp only [headAt, advance, hpos, Nat.add_one_ne_zero, if_false,
        Nat.add_sub_cancel, getD_eq_getElem?_getD]
      rw [getElem?_append_right (by omega), hlength]
      simp

/-! ## Verified logs carry events -/

end

/-- An event that the ledger may hold. -/
structure Admitted (e : AuditEvent) : Prop where
  valid : e.validate = .ok ()
  identity : e.profileId = Text.hexEncode l.profileId.val ∧
    e.profileGeneration = l.profileGeneration

/-- What a verified record has established. -/
structure RecordFits (v : VerifiedLog) (r : AuditRecord) : Prop where
  schemaVersion : r.schemaVersion = auditSchemaVersion
  mac : verifyRecordMac c s l r = .ok ()
  admitted : Admitted l r.event
  phase : v.ensurePhase r.event "audit ledger contains a duplicate Intent request id" = .ok ()
  bounded : v.sequence + 1 < 2 ^ 64
  sequence : r.sequence = v.sequence + 1
  previousHash : r.previousHash = Text.hexEncode v.recordHash.val
  recordHash : r.recordHash =
    Text.hexEncode (calculateRecordHash c s r.sequence v.recordHash r.event).val

variable {c s l}

variable {v : VerifiedLog}

theorem verifyRecord_eq_ok {v' : VerifiedLog} {r : AuditRecord} :
    verifyRecord c s l v r = .ok v' ↔ RecordFits c s l v r ∧ v' = v.advance c s r.event := by
  simp only [verifyRecord, ensureIdentity, check_eq_ok, ensure_eq_ok, pure_eq_ok]
  refine ⟨?_, ?_⟩
  · intro h
    obtain ⟨hschema, hmac, hvalid, hid, hphase, hbound, hseq, hprev, hhash, hv⟩ := h
    exact ⟨⟨hschema, hmac, ⟨hvalid, hid⟩, hphase, hbound, hseq, hprev, hhash⟩, hv.symm⟩
  · intro h
    obtain ⟨hfits, hv⟩ := h
    exact ⟨hfits.schemaVersion, hfits.mac, hfits.admitted.valid, hfits.admitted.identity,
      hfits.phase, hfits.bounded, hfits.sequence, hfits.previousHash, hfits.recordHash, hv.symm⟩

/-- One line: it ends with a newline and carries a record that fits. -/
theorem verifyLine_eq_ok {v' : VerifiedLog} {rawLine : List UInt8} :
    verifyLine c s l v rawLine = .ok v' ↔ rawLine.getLast? = some newline ∧
      rawLine.dropLast ≠ [] ∧ rawLine.dropLast.length ≤ maxAuditRecordBytes ∧
      ∃ r, s.parseRecord rawLine.dropLast = some r ∧ RecordFits c s l v r ∧
        v' = v.advance c s r.event := by
  simp only [verifyLine, check_eq_ok, ensure_eq_ok]
  refine and_congr_right fun _ => and_congr_right fun _ => and_congr_right fun _ => ?_
  cases s.parseRecord rawLine.dropLast with
  | none => simp
  | some r => simp [verifyRecord_eq_ok]

theorem foldlM_verifyLine {lines : List (List UInt8)} :
    ∀ {v v' : VerifiedLog}, lines.foldlM (verifyLine c s l) v = .ok v' →
      ∃ events, lines.mapM (fun line => (s.parseRecord line.dropLast).map AuditRecord.event) =
          some events ∧
        v' = events.foldl (fun v e => v.advance c s e) v ∧ ∀ e ∈ events, Admitted l e := by
  induction lines with
  | nil =>
    intro v v' h
    simp only [foldlM_nil, pure_eq_ok] at h
    exact ⟨[], rfl, h.symm, by simp⟩
  | cons line lines ih =>
    intro v v' h
    simp only [foldlM_cons, bind_eq_ok] at h
    obtain ⟨v1, hline, hlines⟩ := h
    obtain ⟨-, -, -, r, hparse, hfits, hv1⟩ := verifyLine_eq_ok.mp hline
    obtain ⟨events, hmap, hv', hadmitted⟩ := ih hlines
    refine ⟨r.event :: events, ?_, ?_, ?_⟩
    · simp [hparse, hmap]
    · simp [hv', hv1]
    · simp only [forall_mem_cons]
      exact ⟨hfits.admitted, hadmitted⟩

variable {encoded : List UInt8}

/-- **A verified log** carries events of its ledger, and its state is theirs. -/
theorem verifyLog_spec (h : verifyLog c s l encoded = .ok v) :
    ∃ events, logEvents s encoded = some events ∧ v = verifiedOf c s events ∧
      ∀ e ∈ events, Admitted l e := by
  simp only [verifyLog, check_eq_ok] at h
  exact foldlM_verifyLine h.2

variable {events : List AuditEvent}

/-- A pending intent is one of the events. -/
theorem mem_pendingIntents {id : Bytes 16} {binding : PendingIntentBinding}
    (h : (id, binding) ∈ (verifiedOf c s events).pendingIntents) :
    ∃ e ∈ events, binding = .fromIntent e := by
  induction events using reverseRecOn with
  | nil => cases h
  | append_singleton events e ih =>
    have hearlier : (id, binding) ∈ (verifiedOf c s events).pendingIntents →
        ∃ e' ∈ events ++ [e], binding = .fromIntent e' := by
      intro hold
      obtain ⟨e', he', hbinding⟩ := ih hold
      exact ⟨e', mem_append_left _ he', hbinding⟩
    rw [verifiedOf_concat] at h
    simp only [advance, track] at h
    -- only an intent adds one
    cases hphase : e.phase with
    | intent =>
      simp only [hphase, mem_append, mem_singleton, Prod.mk.injEq] at h
      rcases h with hold | hnew
      · exact hearlier hold
      · exact ⟨e, by simp, hnew.2⟩
    | outcome =>
      simp only [hphase] at h
      exact hearlier (mem_of_mem_filter h)
    | administrative =>
      simp only [hphase] at h
      exact hearlier h

/-- Sequence numbers do not overflow. -/
theorem verifyLog_bounded (h : verifyLog c s l encoded = .ok v) : v.sequence < 2 ^ 64 := by
  simp only [verifyLog, check_eq_ok] at h
  apply foldlM_invariant (fun v : VerifiedLog => v.sequence < 2 ^ 64) _ _ _ _ _ h.2
  · intro v line v' _ hline
    obtain ⟨-, -, -, r, -, hfits, rfl⟩ := verifyLine_eq_ok.mp hline
    exact hfits.bounded
  · show (0 : Nat) < 2 ^ 64
    decide

theorem verifyLog_end
    (h : verifyLog c s l encoded = .ok v) : encoded = [] ∨ encoded.getLast? = some newline := by
  simp only [verifyLog, check_eq_ok] at h
  by_cases hempty : encoded = []
  · exact .inl hempty
  · right
    obtain ⟨line, hline, hlast⟩ := getLast_splitInclusive hempty
    have hall := foldlM_forall (fun line => line.getLast? = some newline)
      (fun _ _ _ h => (verifyLine_eq_ok.mp h).1) _ _ _ h.2 line hline
    rw [← hlast]
    exact hall

section

variable (hend : encoded = [] ∨ encoded.getLast? = some newline)
    (h : logEvents s encoded = some events)

include hend h

/-- The events of a longer log start with those of the shorter one. -/
theorem logEvents_append {rest : List UInt8} {more : List AuditEvent}
    (hrest : logEvents s rest = some more) :
    logEvents s (encoded ++ rest) = some (events ++ more) := by
  unfold logEvents at h hrest ⊢
  rw [splitInclusive_append hend, mapM_append, h, hrest]
  rfl

theorem logEvents_prefix {rest : List UInt8} {all : List AuditEvent}
    (hall : logEvents s (encoded ++ rest) = some all) :
    events <+: all := by
  cases hrest : logEvents s rest with
  | none =>
    unfold logEvents at h hrest hall
    rw [splitInclusive_append hend, mapM_append, h, hrest] at hall
    cases hall
  | some more =>
    rw [logEvents_append hend h hrest] at hall
    cases hall
    exact prefix_append _ _

end

theorem logEvents_line {line : List UInt8} {r : AuditRecord} (hline : newline ∉ line)
    (hparse : s.parseRecord line = some r) : logEvents s (line ++ [newline]) = some [r.event] := by
  unfold logEvents
  rw [splitInclusive_line hline]
  simp [splitInclusive, hparse]

/-! ## The next record -/

theorem verifyMac_self (mac : Bytes 32) (m1 m2 m3 : String) :
    verifyMac (Text.hexEncode mac.val) (Text.hexEncode mac.val) m1 m2 m3 = .ok () := by
  simp [verifyMac, mac.property]

variable {e : AuditEvent} {m : String}

theorem ensurePhase_message {m' : String}
    (h : v.ensurePhase e m = .ok ()) : v.ensurePhase e m' = .ok () := by
  unfold ensurePhase at h ⊢
  cases hphase : e.phase with
  | intent =>
    rw [hphase] at h
    simpa using h
  | outcome =>
    rw [hphase] at h
    exact h
  | administrative => rfl

/-- The ledger's own record fits. -/
theorem recordFits_nextRecord (hadmitted : Admitted l e) (hphase : v.ensurePhase e m = .ok ())
    (hbound : v.sequence + 1 < 2 ^ 64) :
    RecordFits c s l v (nextRecord c s l v e) where
  schemaVersion := rfl
  mac := verifyMac_self _ _ _ _
  admitted := hadmitted
  phase := ensurePhase_message hphase
  bounded := hbound
  sequence := rfl
  previousHash := rfl
  recordHash := rfl

theorem isLowerHex_bytes {n : Nat} (b : Bytes n) :
    Text.isLowerHex (Text.hexEncode b.val) n = true := by
  have h := Text.isLowerHex_hexEncode b.val
  rw [b.property] at h
  exact h

theorem plain_nextRecord (hadmitted : Admitted l e)
    (hbound : v.sequence + 1 < 2 ^ 64) : (nextRecord c s l v e).Plain where
  schemaVersion := show (1 : Nat) < 2 ^ 16 by decide
  sequence := hbound
  previousHash := isLowerHex_bytes v.recordHash
  event := hadmitted.valid
  recordHash := isLowerHex_bytes _
  recordMac := isLowerHex_bytes _

/-- **Appending.**  A verified log verifies with the ledger's next record at its end. -/
theorem verifyLog_append (hs : s.Lawful) (h : verifyLog c s l encoded = .ok v)
    (hadmitted : Admitted l e) (hphase : v.ensurePhase e m = .ok ())
    (hbound : v.sequence + 1 < 2 ^ 64)
    (hrecord : (s.record (nextRecord c s l v e)).length ≤ maxAuditRecordBytes)
    (hlength : encoded.length + ((s.record (nextRecord c s l v e)).length + 1) ≤
      maxAuditLogBytes) :
    verifyLog c s l (encoded ++ nextLine c s l v e) =
      .ok (v.advance c s e) := by
  have hplain : (nextRecord c s l v e).Plain := plain_nextRecord hadmitted hbound
  obtain ⟨hne, hline⟩ := hs.record_line _ hplain
  have hend := verifyLog_end h
  simp only [verifyLog, check_eq_ok, ensure_eq_ok] at h ⊢
  refine ⟨?_, ?_⟩
  · simp only [length_append, length_cons, length_nil]
    omega
  · -- the old lines as before, then the new one
    rw [splitInclusive_append hend, splitInclusive_line hline, foldlM_append]
    simp only [bind_eq_ok]
    refine ⟨v, h.2, ?_⟩
    simp only [splitInclusive, foldlM_cons, foldlM_nil, bind_eq_ok, pure_eq_ok]
    refine ⟨v.advance c s e, verifyLine_eq_ok.mpr ?_, rfl⟩
    refine ⟨by simp, by simpa using hne, by simpa using hrecord, ?_⟩
    refine ⟨nextRecord c s l v e, ?_, recordFits_nextRecord hadmitted hphase hbound, rfl⟩
    rw [dropLast_concat]
    exact hs.parse_record _ hplain

/-! ## Equal heads carry equal events -/

/-- A hashed message determines the digest and the event it is made from. -/
theorem recordMessage_injective (hs : s.Lawful) {n : Nat} {d d' : Bytes 32} {e' : AuditEvent}
    (hvalid : e.validate = .ok ()) (hvalid' : e'.validate = .ok ())
    (h : recordMessage s n d e = recordMessage s n d' e') : d = d' ∧ e = e' := by
  unfold recordMessage at h
  have hrest := append_cancel_left (append_cancel_left (append_cancel_left h))
  obtain ⟨hdigest, htail⟩ := Bytes.append_left_inj hrest
  obtain ⟨-, hevent⟩ := Bytes.append_left_inj htail
  exact ⟨hdigest, hs.event_injective e e' hvalid hvalid' hevent⟩

/-- **Anchoring.**  If the head of a log at the length of an earlier one is the earlier head, the
    log starts with the earlier events. -/
theorem events_prefix_of_head (hs : s.Lawful) {events1 events2 : List AuditEvent}
    (hadmitted1 : ∀ e ∈ events1, Admitted l e) (hadmitted2 : ∀ e ∈ events2, Admitted l e)
    (hfree : HashChain.CollisionFreeOn c.sha256
      (messages (auditChain c s) events1 ++ messages (auditChain c s) events2))
    (hle : events1.length ≤ events2.length)
    (hhead : (verifiedOf c s events2).headAt events1.length =
      (verifiedOf c s events1).recordHash) : events1 <+: events2 := by
  rw [headAt_verifiedOf c s events2 _ hle, recordHash_verifiedOf] at hhead
  have hlength : events1.length = (events2.take events1.length).length := by
    rw [length_take]
    omega
  have hsub : messages (auditChain c s) events1 ++
      messages (auditChain c s) (events2.take events1.length) ⊆
      messages (auditChain c s) events1 ++
        messages (auditChain c s) events2 := by
    apply append_subset.mpr
    refine ⟨subset_append_left _ _, ?_⟩
    have htake := messages_take_subset (auditChain c s) events2 events1.length
    exact Subset.trans htake (subset_append_right _ _)
  have heq : events1 = events2.take events1.length := by
    apply eq_of_head_eq hlength (hfree.mono hsub) _ hhead.symm
    intro n d d' a ha b hb hmessage
    exact recordMessage_injective hs (hadmitted1 a ha).valid
      (hadmitted2 b (mem_of_mem_take hb)).valid hmessage
  rw [heq]
  exact take_prefix _ _

end Chain

end Serctl.Audit
