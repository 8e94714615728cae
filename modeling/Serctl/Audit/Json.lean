import Serctl.Audit.Record
import Serctl.Lib.Codec

/-!
# The text of records and checkpoints

The compact JSON that the ledger writes for its records and checkpoints, field by field in the
order of their declarations, with a reader for it.  All texts in them are hexadecimal or tokens,
so none needs an escape.
-/

namespace Serctl.Audit

open Lib Lib.Codec Lib.Guard
open Text (utf8Bytes)

/-! ## Plain texts -/

theorem isPlainChar_of_isTokenChar {c : Char} (h : isTokenChar c = true) :
    isPlainChar c = true := by
  simp only [isTokenChar, Bool.or_eq_true, Bool.and_eq_true, decide_eq_true_eq, beq_iff_eq] at h
  have hcode : (97 ≤ c.toNat ∧ c.toNat ≤ 122) ∨ (48 ≤ c.toNat ∧ c.toNat ≤ 57) ∨ c.toNat = 46 ∨
      c.toNat = 45 ∨ c.toNat = 95 := by
    rcases h with (((hletter | hdigit) | rfl) | rfl) | rfl
    · exact .inl hletter
    · exact .inr (.inl hdigit)
    · exact .inr (.inr (.inl rfl))
    · exact .inr (.inr (.inr (.inl rfl)))
    · exact .inr (.inr (.inr (.inr rfl)))
  apply isPlainChar_of_toNat <;> omega

theorem plain_of_validateToken {value label : String} {max : Nat}
    (h : validateToken value max label = .ok ()) : value.toList.all isPlainChar = true := by
  simp only [validateToken, ensure_eq_ok] at h
  rw [List.all_eq_true] at h ⊢
  intro c hc
  exact isPlainChar_of_isTokenChar (h.2.2 c hc)

/-! ## Codecs -/

/-- A number below a bound, with the comma behind it. -/
def boundedField (bound : Nat) : Codec Nat :=
  convert (decimal 44 stop_comma) id (fun n => if n < bound then some n else none)
    (fun n => n < bound) (by
      intro n hn
      exact ⟨trivial, if_pos hn⟩)

/-- A word with the comma behind it. -/
def wordField : Codec UInt64 :=
  convert (boundedField (2 ^ 64)) UInt64.toNat (fun n => some (UInt64.ofNat n)) (fun _ => True) (by
    intro word _
    refine ⟨word.toNat_lt, ?_⟩
    simp)

/-- A byte with what stands behind it. -/
def byteField (stop : UInt8) (hstop : 32 ≤ stop ∧ ¬(48 ≤ stop ∧ stop ≤ 57)) : Codec UInt8 :=
  convert (decimal stop hstop) UInt8.toNat
    (fun n => if n < 2 ^ 8 then some (UInt8.ofNat n) else none) (fun _ => True) (by
      intro byte _
      refine ⟨trivial, ?_⟩
      rw [if_pos byte.toNat_lt]
      simp)

/-- The names of the phases. -/
def phaseName : AuditPhase → String
  | .intent => "intent"
  | .outcome => "outcome"
  | .administrative => "administrative"

/-- Phases, by name. -/
def phaseCodec : Codec AuditPhase :=
  named phaseName [.intent, .outcome, .administrative]
    (by intro p; cases p <;> decide) (by intro p; cases p <;> decide)

/-- The names of the decisions. -/
def decisionName : AuditDecision → String
  | .pending => "pending"
  | .allowed => "allowed"
  | .denied => "denied"
  | .succeeded => "succeeded"
  | .failed => "failed"
  | .unknown => "unknown"

/-- Decisions, by name. -/
def decisionCodec : Codec AuditDecision :=
  named decisionName [.pending, .allowed, .denied, .succeeded, .failed, .unknown]
    (by intro d; cases d <;> decide) (by intro d; cases d <;> decide)

/-- Fifteen numbers with a comma behind each, and one with the closing bracket. -/
def requestIdCodec : Codec (Bytes 16) :=
  convert (seq (times 15 (byteField 44 stop_comma)) (byteField 93 (by decide)))
    (fun id => (id.val.take 15, id.val.getD 15 0))
    (fun p => if h : (p.1 ++ [p.2]).length = 16 then some ⟨p.1 ++ [p.2], h⟩ else none)
    (fun _ => True) (by
      intro id _
      have hlength := id.property
      have hback : id.val.take 15 ++ [id.val.getD 15 0] = id.val := by
        have hlast : 15 < id.val.length := by omega
        rw [List.getD_eq_getElem?_getD, List.getElem?_eq_getElem hlast, Option.getD_some,
          ← List.take_succ_eq_append_getElem hlast]
        exact List.take_of_length_le (by omega)
      refine ⟨⟨⟨?_, fun _ _ => trivial⟩, trivial⟩, ?_⟩
      · rw [List.length_take]
        omega
      · have hfull : (id.val.take 15 ++ [id.val.getD 15 0]).length = 16 := by
          rw [hback]
          exact hlength
        rw [dif_pos hfull]
        exact congrArg some (Subtype.ext hback))

/-- The fields of an event in their order; the result digest is left out where there is none. -/
def eventFields : Codec (String × UInt64 × Bytes 16 × UInt64 × String × AuditPhase ×
    AuditDecision × String × String × Option String × String) :=
  seq (after "\x7b\"profile_id\":" quoted (by decide)) <|
  seq (after ",\"profile_generation\":" wordField (by decide)) <|
  seq (after "\"request_id\":[" requestIdCodec (by decide)) <|
  seq (after ",\"at_unix_ms\":" wordField (by decide)) <|
  seq (after "\"operation_kind\":" quoted (by decide)) <|
  seq (after ",\"phase\":" phaseCodec (by decide)) <|
  seq (after ",\"decision\":" decisionCodec (by decide)) <|
  seq (after ",\"policy_digest\":" quoted (by decide)) <|
  seq (after ",\"intent_digest\":" quoted (by decide)) <|
  optionally (after ",\"result_digest\":" quoted (by decide))
    (after ",\"reason_code\":" (before quoted "\x7d" isPrintable_brace) (by decide)) (by
      intro reason _ rest
      rfl)

/-- The JSON of an event. -/
def eventCodec : Codec AuditEvent :=
  convert eventFields
    (fun e => (e.profileId, e.profileGeneration, e.requestId, e.atUnixMs, e.operationKind, e.phase,
      e.decision, e.policyDigest, e.intentDigest, e.resultDigest, e.reasonCode))
    (fun (id, generation, request, at_, kind, phase, decision, policy, intent, result, reason) =>
      some ⟨id, generation, request, at_, kind, phase, decision, policy, intent, result, reason⟩)
    (fun e => e.validate = .ok ()) (by
      intro e he
      refine ⟨?_, rfl⟩
      simp only [AuditEvent.validate, check_eq_ok, ensure_eq_ok] at he
      obtain ⟨hid, -, -, hkind, hreason, hpolicy, hintent, hresult, -⟩ := he
      simp only [validateProfileId, validateDigest, ensure_eq_ok] at hid hpolicy hintent
      refine ⟨plain_of_isLowerHex hid, trivial, trivial, trivial, plain_of_validateToken hkind,
        trivial, trivial, plain_of_isLowerHex hpolicy, plain_of_isLowerHex hintent, ?_,
        plain_of_validateToken hreason⟩
      intro digest hdigest
      have hsome : e.resultDigest = some digest := hdigest
      rw [hsome] at hresult
      simp only [validateResultDigest, validateDigest, ensure_eq_ok] at hresult
      exact plain_of_isLowerHex hresult)

/-- The JSON of a record. -/
def recordCodec : Codec AuditRecord :=
  convert
    (seq (after "\x7b\"schema_version\":" (boundedField (2 ^ 16)) (by decide)) <|
     seq (after "\"sequence\":" (boundedField (2 ^ 64)) (by decide)) <|
     seq (after "\"previous_hash\":" quoted (by decide)) <|
     seq (after ",\"event\":" eventCodec (by decide)) <|
     seq (after ",\"record_hash\":" quoted (by decide))
       (after ",\"record_mac\":" (before quoted "\x7d" isPrintable_brace) (by decide)))
    (fun r => (r.schemaVersion, r.sequence, r.previousHash, r.event, r.recordHash, r.recordMac))
    (fun (schema, sequence, previous, event, hash, mac) =>
      some ⟨schema, sequence, previous, event, hash, mac⟩)
    (fun r => r.Plain) (by
      intro r hr
      exact ⟨⟨hr.schemaVersion, hr.sequence, plain_of_isLowerHex hr.previousHash, hr.event,
        plain_of_isLowerHex hr.recordHash, plain_of_isLowerHex hr.recordMac⟩, rfl⟩)

/-- The authenticated part of a record, as a tuple. -/
def recordBodyCodec : Codec (Nat × Nat × String × AuditEvent × String) :=
  seq (after "[" (boundedField (2 ^ 16)) (by decide)) <|
  seq (boundedField (2 ^ 64)) <|
  seq quoted <|
  seq (after "," eventCodec (by decide))
    (after "," (before quoted "]" (by decide)) (by decide))

/-- The JSON of a checkpoint. -/
def checkpointCodec : Codec AuditCheckpoint :=
  convert
    (seq (after "\x7b\"schema_version\":" (boundedField (2 ^ 16)) (by decide)) <|
     seq (after "\"profile_id\":" quoted (by decide)) <|
     seq (after ",\"profile_generation\":" wordField (by decide)) <|
     seq (after "\"sequence\":" (boundedField (2 ^ 64)) (by decide)) <|
     seq (after "\"record_hash\":" quoted (by decide))
       (after ",\"mac\":" (before quoted "\x7d" isPrintable_brace) (by decide)))
    (fun c => (c.schemaVersion, c.profileId, c.profileGeneration, c.sequence, c.recordHash, c.mac))
    (fun (schema, id, generation, sequence, hash, mac) =>
      some ⟨schema, id, generation, sequence, hash, mac⟩)
    (fun c => c.Plain) (by
      intro c hc
      exact ⟨⟨hc.schemaVersion, plain_of_isLowerHex hc.profileId, trivial, hc.sequence,
        plain_of_isLowerHex hc.recordHash, plain_of_isLowerHex hc.mac⟩, rfl⟩)

/-- The authenticated part of a checkpoint. -/
def unsignedCheckpointCodec : Codec (Nat × String × UInt64 × Nat × String) :=
  seq (after "\x7b\"schema_version\":" (boundedField (2 ^ 16)) (by decide)) <|
  seq (after "\"profile_id\":" quoted (by decide)) <|
  seq (after ",\"profile_generation\":" wordField (by decide)) <|
  seq (after "\"sequence\":" (boundedField (2 ^ 64)) (by decide))
    (after "\"record_hash\":" (before quoted "\x7d" isPrintable_brace) (by decide))

/-- The serializer of the ledger. -/
def jsonSerde : Serde where
  event := eventCodec.encode
  record := recordCodec.encode
  recordBody := recordBodyCodec.encode
  checkpoint := checkpointCodec.encode
  unsignedCheckpoint cp := unsignedCheckpointCodec.encode
    (cp.schemaVersion, cp.profileId, cp.profileGeneration, cp.sequence, cp.recordHash)
  parseRecord := recordCodec.parse
  parseCheckpoint := checkpointCodec.parse

/-! ## Its laws -/

theorem length_short {n : Nat} (h : n < 2 ^ 16) : (decimalDigits n).length ≤ 5 :=
  length_decimalDigits_le (lt_trans h (by decide)) (by decide)

theorem length_long {n : Nat} (h : n < 2 ^ 64) : (decimalDigits n).length ≤ 20 :=
  length_decimalDigits_le (lt_trans h (by decide)) (by decide)

/-- Every text but the numbers has a fixed length. -/
theorem length_checkpoint_le {c : AuditCheckpoint} (h : c.Plain) :
    (jsonSerde.checkpoint c).length ≤ maxAuditRecordBytes := by
  have hschema := length_short h.schemaVersion
  have hgeneration := length_long c.profileGeneration.toNat_lt
  have hsequence := length_long h.sequence
  have hid := length_of_isLowerHex h.profileId
  have hhash := length_of_isLowerHex h.recordHash
  have hmac := length_of_isLowerHex h.mac
  have hnames : (utf8Bytes "\x7b\"schema_version\":").length +
      (utf8Bytes "\"profile_id\":").length +
      (utf8Bytes ",\"profile_generation\":").length +
      (utf8Bytes "\"sequence\":").length + (utf8Bytes "\"record_hash\":").length +
      (utf8Bytes ",\"mac\":").length + (utf8Bytes "\x7d").length +
      (utf8Bytes "\"").length ≤ 200 := by decide
  simp only [jsonSerde, checkpointCodec, convert, seq, after, before, boundedField, wordField,
    decimal, upTo, quoted, List.length_append, id, List.length_cons, List.length_nil,
    maxAuditRecordBytes]
  omega

theorem length_of_validateToken {value label : String} {max : Nat}
    (h : validateToken value max label = .ok ()) : (utf8Bytes value).length ≤ max := by
  simp only [validateToken, ensure_eq_ok] at h
  rw [Text.length_utf8Bytes]
  exact h.2.1

theorem length_requestId_le (id : Bytes 16) : (requestIdCodec.encode id).length ≤ 64 := by
  have hbyte : ∀ b : UInt8, (decimalDigits b.toNat).length ≤ 3 := by
    intro b
    exact length_decimalDigits_le (lt_trans b.toNat_lt (by decide)) (by decide)
  have hrow : ∀ bytes : List UInt8,
      (bytes.flatMap fun b => decimalDigits b.toNat ++ [44]).length ≤ 4 * bytes.length := by
    intro bytes
    induction bytes with
    | nil => simp
    | cons b bytes ih =>
      have hb := hbyte b
      simp only [List.flatMap_cons, List.length_append, List.length_cons, List.length_nil]
      omega
  have hfirst := hrow (id.val.take 15)
  have hlast := hbyte (id.val.getD 15 0)
  have htake : (id.val.take 15).length = 15 := by
    rw [List.length_take, id.property]
    rfl
  simp only [requestIdCodec, convert, seq, times, byteField, decimal, upTo, List.length_append,
    List.length_cons, List.length_nil]
  omega

theorem length_event_le {e : AuditEvent} (h : e.validate = .ok ()) :
    (eventCodec.encode e).length ≤ 800 := by
  simp only [AuditEvent.validate, check_eq_ok, ensure_eq_ok] at h
  obtain ⟨hid, -, -, hkind, hreason, hpolicy, hintent, hresult, -⟩ := h
  simp only [validateProfileId, validateDigest, ensure_eq_ok] at hid hpolicy hintent
  have hid := length_of_isLowerHex hid
  have hpolicy := length_of_isLowerHex hpolicy
  have hintent := length_of_isLowerHex hintent
  have hkind : (utf8Bytes e.operationKind).length ≤ 64 := length_of_validateToken hkind
  have hreason : (utf8Bytes e.reasonCode).length ≤ 96 := length_of_validateToken hreason
  have hrequest := length_requestId_le e.requestId
  have hgeneration := length_long e.profileGeneration.toNat_lt
  have hat := length_long e.atUnixMs.toNat_lt
  have hphase : (utf8Bytes (phaseName e.phase)).length ≤ 14 := by
    cases e.phase <;> decide
  have hdecision : (utf8Bytes (decisionName e.decision)).length ≤ 9 := by
    cases e.decision <;> decide
  have hresult : (e.resultDigest.elim [] (after ",\"result_digest\":" quoted
      (by decide)).encode).length ≤ 90 := by
    cases hdigest : e.resultDigest with
    | none => simp
    | some digest =>
      rw [hdigest] at hresult
      simp only [validateResultDigest, validateDigest, ensure_eq_ok] at hresult
      have hlength := length_of_isLowerHex hresult
      have hname : (utf8Bytes ",\"result_digest\":").length +
          (utf8Bytes "\"").length = 18 := by decide
      simp only [Option.elim, after, quoted, convert, upTo, List.length_append, List.length_cons,
        List.length_nil]
      omega
  -- the names of the fields, and the quotation marks
  have hnames : (utf8Bytes "\x7b\"profile_id\":").length +
      (utf8Bytes ",\"profile_generation\":").length +
      (utf8Bytes "\"request_id\":[").length + (utf8Bytes ",\"at_unix_ms\":").length +
      (utf8Bytes "\"operation_kind\":").length + (utf8Bytes ",\"phase\":").length +
      (utf8Bytes ",\"decision\":").length + (utf8Bytes ",\"policy_digest\":").length +
      (utf8Bytes ",\"intent_digest\":").length +
      (utf8Bytes ",\"reason_code\":").length + (utf8Bytes "\x7d").length +
      7 * (utf8Bytes "\"").length ≤ 180 := by decide
  simp only [eventCodec, eventFields, convert, seq, after, before, optionally, boundedField,
    wordField, phaseCodec, decisionCodec, named, decimal, upTo, quoted, List.length_append, id,
    List.length_cons, List.length_nil] at hresult ⊢
  omega

/-- The size limit on records is never reached. -/
theorem length_record_le {r : AuditRecord} (h : r.Plain) :
    (jsonSerde.record r).length ≤ maxAuditRecordBytes := by
  have hschema := length_short h.schemaVersion
  have hsequence := length_long h.sequence
  have hprevious := length_of_isLowerHex h.previousHash
  have hhash := length_of_isLowerHex h.recordHash
  have hmac := length_of_isLowerHex h.recordMac
  have hevent := length_event_le h.event
  have hnames : (utf8Bytes "\x7b\"schema_version\":").length +
      (utf8Bytes "\"sequence\":").length + (utf8Bytes "\"previous_hash\":").length +
      (utf8Bytes ",\"event\":").length + (utf8Bytes ",\"record_hash\":").length +
      (utf8Bytes ",\"record_mac\":").length + (utf8Bytes "\x7d").length +
      3 * (utf8Bytes "\"").length ≤ 120 := by decide
  simp only [jsonSerde, recordCodec, convert, seq, after, before, boundedField, decimal, upTo,
    quoted, List.length_append, id, List.length_cons, List.length_nil, maxAuditRecordBytes]
  omega

/-- The JSON is what the ledger relies on. -/
theorem jsonSerde_lawful : jsonSerde.Lawful where
  parse_record r hr := recordCodec.parse_encode hr
  record_line := by
    intro r hr
    refine ⟨fun he => ?_, fun hmem => ?_⟩
    · have hread := recordCodec.parse_encode hr
      have hempty : recordCodec.encode r = [] := he
      rw [hempty] at hread
      cases hread
    · have hprintable := recordCodec.printable r hr newline hmem
      exact absurd hprintable (by decide)
  parse_checkpoint c hc := checkpointCodec.parse_encode hc
  checkpoint_length c hc := length_checkpoint_le hc
  parse_nil := rfl
  event_injective e e' he he' h := eventCodec.encode_injective he he' h

end Serctl.Audit
