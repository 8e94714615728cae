import Serctl.Lib.Json
import Serctl.Remote.Jobs

/-!
# The journal of a job

The record of a job moves on by five operations, and what is stored of it is one JSON object that
is checked when it is loaded.  No sequence of operations leads to a record that loading refuses,
and the counters of a record only grow.
-/

namespace Serctl.Remote

open Lib Lib.Codec Lib.Guard AuthenticatedReceipt
open Text (hexEncode utf8Bytes)

/-! ## Operations -/

/-- The operations on a journal. -/
inductive JobOperation where
  | markRunning (nowUnixMs : UInt64)
  | observeHeartbeat (heartbeat : HeartbeatFrame) (nowUnixMs : UInt64)
  | requestCancel (nowUnixMs : UInt64)
  | markUnknown (nowUnixMs : UInt64)
  | reconcile (receiptBytes : Option (List UInt8)) (token : Secret32) (nowUnixMs : UInt64)

/-- The operation is a reconciliation. -/
def JobOperation.isReconcile : JobOperation → Bool
  | .reconcile .. => true
  | _ => false

/-- The journal after a reconciliation. -/
def ReconcileOutcome.record : ReconcileOutcome → JobRecord
  | .unknown record => record
  | .recovered record _ => record

namespace JobRecord

/-- What an operation makes of a journal. -/
def apply (record : JobRecord) : JobOperation → Except String JobRecord
  | .markRunning now => record.markRunning now
  | .observeHeartbeat heartbeat now => record.observeHeartbeat heartbeat now
  | .requestCancel now => record.requestCancel now
  | .markUnknown now => record.markUnknown now
  | .reconcile receiptBytes token now =>
    (reconcile record receiptBytes token now).map ReconcileOutcome.record

/-- A refused operation leaves the record as it was. -/
def after (record : JobRecord) (op : JobOperation) : JobRecord :=
  match record.apply op with
  | .ok next => next
  | .error _ => record

/-- Operations one after the other; those that fail change nothing. -/
def run (record : JobRecord) (ops : List JobOperation) : JobRecord := ops.foldl after record

@[simp] theorem run_nil (record : JobRecord) : record.run [] = record := rfl

@[simp] theorem run_cons (record : JobRecord) (op : JobOperation) (ops : List JobOperation) :
    record.run (op :: ops) = (record.after op).run ops := rfl

/-! ## What operations do -/

/-- What one record has before another: the job is the same, and what is counted only grows. -/
structure Advances (record next : JobRecord) : Prop where
  identity : next.identity = record.identity
  deadlines : next.deadlines = record.deadlines
  runAsUid : next.runAsUid = record.runAsUid
  maxOutputBytes : next.maxOutputBytes = record.maxOutputBytes
  heartbeatOrdinal : record.heartbeatOrdinal ≤ next.heartbeatOrdinal
  elapsedMs : record.elapsedMs ≤ next.elapsedMs
  stdoutBytes : record.stdoutBytes ≤ next.stdoutBytes
  stderrBytes : record.stderrBytes ≤ next.stderrBytes

theorem Advances.refl (record : JobRecord) : Advances record record :=
  ⟨rfl, rfl, rfl, rfl, UInt64.le_refl _, UInt64.le_refl _, UInt64.le_refl _, UInt64.le_refl _⟩

theorem Advances.trans {a b c : JobRecord} (hab : Advances a b) (hbc : Advances b c) :
    Advances a c where
  identity := hbc.identity.trans hab.identity
  deadlines := hbc.deadlines.trans hab.deadlines
  runAsUid := hbc.runAsUid.trans hab.runAsUid
  maxOutputBytes := hbc.maxOutputBytes.trans hab.maxOutputBytes
  heartbeatOrdinal := UInt64.le_trans hab.heartbeatOrdinal hbc.heartbeatOrdinal
  elapsedMs := UInt64.le_trans hab.elapsedMs hbc.elapsedMs
  stdoutBytes := UInt64.le_trans hab.stdoutBytes hbc.stdoutBytes
  stderrBytes := UInt64.le_trans hab.stderrBytes hbc.stderrBytes

/-- The counters stay within the budget. -/
def WithinBudget (record : JobRecord) : Prop :=
  saturatingAdd record.stdoutBytes record.stderrBytes ≤ record.maxOutputBytes

/-- Only stage and time are set anew. -/
theorem advances_stage (record : JobRecord) (stage : JobStage) (now : UInt64) :
    Advances record { record with stage := stage, updatedUnixMs := now } := by
  have h := Advances.refl record
  exact ⟨rfl, rfl, rfl, rfl, h.heartbeatOrdinal, h.elapsedMs, h.stdoutBytes, h.stderrBytes⟩

variable {record next : JobRecord} {op : JobOperation}

/-- What a reconciliation does: without a receipt the job is unknown, with one it has ended as the
    receipt tells. -/
theorem apply_reconcile {receiptBytes : Option (List UInt8)} {token : Secret32} {now : UInt64}
    (h : record.apply (.reconcile receiptBytes token now) = .ok next) :
    (receiptBytes = none ∧ record.updatedUnixMs ≤ now ∧
      next = { record with stage := .unknown, updatedUnixMs := now }) ∨
    ∃ bytes receipt body, receiptBytes = some bytes ∧
      decode bytes = .ok receipt ∧
      receipt.verify record.identity record.deadlines record.runAsUid record.maxOutputBytes token
        now = .ok body ∧
      next = { record with
        stage := body.outcome.stage
        updatedUnixMs := body.completedUnixMs } := by
  cases receiptBytes with
  | none =>
    simp only [apply, reconcile, map_eq_ok, bind_eq_ok, rejectIf_eq_ok, pure_eq_ok, not_not] at h
    obtain ⟨_, ⟨-, hnow, rfl⟩, rfl⟩ := h
    exact .inl ⟨rfl, hnow, rfl⟩
  | some bytes =>
    simp only [apply, reconcile, map_eq_ok, bind_eq_ok, pure_eq_ok] at h
    obtain ⟨_, ⟨receipt, hread, body, hverify, rfl⟩, rfl⟩ := h
    exact .inr ⟨bytes, receipt, body, rfl, hread, hverify, rfl⟩

/-- **Every operation advances the record** and keeps its counters within the budget. -/
theorem advances_apply (h : record.apply op = .ok next) :
    Advances record next ∧ (record.WithinBudget → next.WithinBudget) := by
  cases op with
  | markRunning now =>
    simp only [apply, markRunning, bind_eq_ok, pure_eq_ok] at h
    obtain ⟨-, -, -, -, -, -, rfl⟩ := h
    exact ⟨advances_stage record _ _, id⟩
  | observeHeartbeat heartbeat now =>
    simp only [apply, observeHeartbeat, bind_eq_ok, rejectIf_eq_ok, pure_eq_ok, not_not] at h
    obtain ⟨-, -, -, -, -, hordinal, -, helapsed, -, hbytes, -, hbudget, -, -, rfl⟩ := h
    exact ⟨⟨rfl, rfl, rfl, rfl, UInt64.le_of_lt hordinal, helapsed, hbytes.1, hbytes.2⟩,
      fun _ => hbudget⟩
  | requestCancel now =>
    simp only [apply, requestCancel, bind_eq_ok, pure_eq_ok] at h
    obtain ⟨-, -, -, -, rfl⟩ := h
    exact ⟨advances_stage record _ _, id⟩
  | markUnknown now =>
    simp only [apply, markUnknown, bind_eq_ok, pure_eq_ok] at h
    obtain ⟨-, -, -, -, rfl⟩ := h
    exact ⟨advances_stage record _ _, id⟩
  | reconcile receiptBytes token now =>
    rcases apply_reconcile h with ⟨-, -, rfl⟩ | ⟨bytes, receipt, body, -, -, -, rfl⟩
    · exact ⟨advances_stage record _ _, id⟩
    · exact ⟨advances_stage record _ _, id⟩

/-- Only a reconciliation touches a job that has ended or sets the time back. -/
theorem steady_apply (h : record.apply op = .ok next) (hop : op.isReconcile = false) :
    record.stage.isTerminal = false ∧ record.updatedUnixMs ≤ next.updatedUnixMs := by
  cases op with
  | markRunning now =>
    simp only [apply, markRunning, bind_eq_ok, rejectIf_eq_ok, pure_eq_ok, not_not] at h
    obtain ⟨-, hstage, -, hnow, -, -, rfl⟩ := h
    exact ⟨by rw [hstage]; rfl, hnow⟩
  | observeHeartbeat heartbeat now =>
    simp only [apply, observeHeartbeat, bind_eq_ok, rejectIf_eq_ok, pure_eq_ok, not_not] at h
    obtain ⟨-, hstage, -, -, -, -, -, -, -, -, -, -, -, hnow, rfl⟩ := h
    refine ⟨?_, hnow⟩
    rcases hstage with hstage | hstage
    · rw [hstage]; rfl
    · rw [hstage]; rfl
  | requestCancel now =>
    simp only [apply, requestCancel, bind_eq_ok, rejectIf_eq_ok, pure_eq_ok, not_not] at h
    obtain ⟨-, hstage, -, hnow, rfl⟩ := h
    exact ⟨by rw [hstage]; rfl, hnow⟩
  | markUnknown now =>
    simp only [apply, markUnknown, bind_eq_ok, rejectIf_eq_ok, pure_eq_ok, not_not,
      Bool.not_eq_true] at h
    obtain ⟨-, hstage, -, hnow, rfl⟩ := h
    exact ⟨hstage, hnow⟩
  | reconcile receiptBytes token now => cases hop

/-! ## Sequences of operations -/

/-- An operation succeeds, or changes nothing. -/
theorem after_cases (record : JobRecord) (op : JobOperation) :
    record.apply op = .ok (record.after op) ∨ record.after op = record := by
  unfold after
  cases h : record.apply op with
  | ok next => exact .inl rfl
  | error message => exact .inr rfl

/-- What no operation takes back, no sequence of them takes back. -/
theorem run_induction (P : JobRecord → JobRecord → Prop) (allowed : JobOperation → Prop)
    (hrefl : ∀ record, P record record) (htrans : ∀ {a b c}, P a b → P b c → P a c)
    (hstep : ∀ {record op next}, allowed op → record.apply op = .ok next → P record next)
    (record : JobRecord) (ops : List JobOperation) (hops : ∀ op ∈ ops, allowed op) :
    P record (record.run ops) := by
  induction ops generalizing record with
  | nil => exact hrefl record
  | cons op ops ih =>
    have hlater := ih (record.after op) fun op' hop' => hops op' (List.mem_cons_of_mem op hop')
    rcases after_cases record op with happly | hsame
    · exact htrans (hstep (hops op List.mem_cons_self) happly) hlater
    · rw [hsame] at hlater
      rw [run_cons, hsame]
      exact hlater

/-- What sequences of operations do. -/
theorem advances_run (record : JobRecord) (ops : List JobOperation) :
    Advances record (record.run ops) ∧ (record.WithinBudget → (record.run ops).WithinBudget) :=
  run_induction (fun a b => Advances a b ∧ (a.WithinBudget → b.WithinBudget)) (fun _ => True)
    (fun record => ⟨Advances.refl record, id⟩)
    (fun hab hbc => ⟨hab.1.trans hbc.1, hbc.2 ∘ hab.2⟩) (fun _ h => advances_apply h) record ops
    (fun _ _ => trivial)

/-- Without reconciliation, a job that has ended stays as it is and time does not go back. -/
theorem steady_run (record : JobRecord) (ops : List JobOperation)
    (hops : ∀ op ∈ ops, op.isReconcile = false) :
    record.updatedUnixMs ≤ (record.run ops).updatedUnixMs ∧
      (record.stage.isTerminal = true → (record.run ops).stage = record.stage) := by
  apply run_induction (fun a b => a.updatedUnixMs ≤ b.updatedUnixMs ∧
    (a.stage.isTerminal = true → b.stage = a.stage)) (fun op => op.isReconcile = false)
    (fun record => ⟨UInt64.le_refl _, fun _ => rfl⟩)
  case hops => exact hops
  · intro a b c hab hbc
    refine ⟨UInt64.le_trans hab.1 hbc.1, fun ha => ?_⟩
    rw [← hab.2 ha]
    exact hbc.2 (by rw [hab.2 ha]; exact ha)
  · intro record op next hop h
    obtain ⟨hstage, hnow⟩ := steady_apply h hop
    refine ⟨hnow, fun hterminal => ?_⟩
    rw [hstage] at hterminal
    cases hterminal

end JobRecord

/-! ## What is stored -/

/-- A journal as it is stored. -/
structure DiskJobRecord where
  schemaVersion : UInt16
  jobId : String
  profileId : String
  profileGeneration : UInt64
  policyDigest : String
  inputDigest : String
  remoteDeadlineUnixMs : UInt64
  relayDeadlineUnixMs : UInt64
  resultRetentionUnixMs : UInt64
  runAsUid : UInt32
  stage : JobStage
  heartbeatOrdinal : UInt64
  elapsedMs : UInt64
  stdoutBytes : UInt64
  stderrBytes : UInt64
  maxOutputBytes : UInt64
  updatedUnixMs : UInt64
  deriving DecidableEq, Repr

def jobSchemaVersion : UInt16 := 1
def maxJournalBytes : Nat := 16 * 1024

/-- The names of the stages. -/
def JobStage.name : JobStage → String
  | .submitted => "submitted"
  | .running => "running"
  | .cancelling => "cancelling"
  | .unknown => "unknown"
  | .completed => "completed"
  | .failed => "failed"
  | .cancelled => "cancelled"

/-- Stages, by name. -/
def stageCodec : Codec JobStage :=
  named JobStage.name [.submitted, .running, .cancelling, .unknown, .completed, .failed, .cancelled]
    (by intro s; cases s <;> decide) (by intro s; cases s <;> decide)

/-- A word and the byte that ends it. -/
def wordCodec (stop : UInt8) (hstop : 32 ≤ stop ∧ ¬(48 ≤ stop ∧ stop ≤ 57)) : Codec UInt64 :=
  numeral UInt64.toNat UInt64.ofNat (2 ^ 64) UInt64.toNat_lt @UInt64.ofNat_toNat stop hstop

def uidCodec : Codec UInt32 :=
  numeral UInt32.toNat UInt32.ofNat (2 ^ 32) UInt32.toNat_lt @UInt32.ofNat_toNat 44 stop_comma

def schemaCodec : Codec UInt16 :=
  numeral UInt16.toNat UInt16.ofNat (2 ^ 16) UInt16.toNat_lt @UInt16.ofNat_toNat 44 stop_comma

theorem isPrintable_schemaVersion : IsPrintable "\x7b\"schema_version\":" := by decide

theorem isPrintable_profileGeneration : IsPrintable ",\"profile_generation\":" := by decide

theorem isPrintable_maxOutputBytes : IsPrintable "\"max_output_bytes\":" := by decide

/-- The names of the job and of what it is bound to. -/
def identityFields : Codec (UInt16 × String × String × UInt64 × String × String) :=
  seq (after "\x7b\"schema_version\":" schemaCodec isPrintable_schemaVersion) <|
  seq (after "\"job_id\":" Json.text (by decide)) <|
  seq (after ",\"profile_id\":" Json.text (by decide)) <|
  seq (after ",\"profile_generation\":" (wordCodec 44 stop_comma)
    isPrintable_profileGeneration) <|
  seq (after "\"policy_digest\":" Json.text (by decide))
    (after ",\"input_digest\":" Json.text (by decide))

/-- The limits of the job. -/
def limitFields : Codec (UInt64 × UInt64 × UInt64 × UInt32) :=
  seq (after ",\"remote_deadline_unix_ms\":" (wordCodec 44 stop_comma) (by decide)) <|
  seq (after "\"relay_deadline_unix_ms\":" (wordCodec 44 stop_comma) (by decide)) <|
  seq (after "\"result_retention_unix_ms\":" (wordCodec 44 stop_comma) (by decide))
    (after "\"run_as_uid\":" uidCodec (by decide))

/-- How far the job is. -/
def progressFields : Codec (JobStage × UInt64 × UInt64 × UInt64 × UInt64 × UInt64 × UInt64) :=
  seq (after "\"stage\":" stageCodec (by decide)) <|
  seq (after ",\"heartbeat_ordinal\":" (wordCodec 44 stop_comma) (by decide)) <|
  seq (after "\"elapsed_ms\":" (wordCodec 44 stop_comma) (by decide)) <|
  seq (after "\"stdout_bytes\":" (wordCodec 44 stop_comma) (by decide)) <|
  seq (after "\"stderr_bytes\":" (wordCodec 44 stop_comma) (by decide)) <|
  seq (after "\"max_output_bytes\":" (wordCodec 44 stop_comma) isPrintable_maxOutputBytes)
    (after "\"updated_unix_ms\":" (wordCodec 125 stop_brace) (by decide))

/-- The JSON of a journal. -/
def diskCodec : Codec DiskJobRecord :=
  convert (seq identityFields (seq limitFields progressFields))
    (fun d => ((d.schemaVersion, d.jobId, d.profileId, d.profileGeneration, d.policyDigest,
      d.inputDigest), (d.remoteDeadlineUnixMs, d.relayDeadlineUnixMs, d.resultRetentionUnixMs,
      d.runAsUid), d.stage, d.heartbeatOrdinal, d.elapsedMs, d.stdoutBytes, d.stderrBytes,
      d.maxOutputBytes, d.updatedUnixMs))
    (fun ((schema, jobId, profileId, generation, policy, input), (remote, relay, retention, uid),
        stage, ordinal, elapsed, stdout, stderr, output, updated) =>
      some ⟨schema, jobId, profileId, generation, policy, input, remote, relay, retention, uid,
        stage, ordinal, elapsed, stdout, stderr, output, updated⟩)
    (fun _ => True) (by
      intro d _
      exact ⟨⟨⟨trivial, trivial, trivial, trivial, trivial, trivial⟩,
        ⟨trivial, trivial, trivial, trivial⟩, trivial, trivial, trivial, trivial, trivial, trivial,
        trivial⟩, rfl⟩)

/-- What is stored of a record. -/
def JobRecord.disk (record : JobRecord) : DiskJobRecord where
  schemaVersion := jobSchemaVersion
  jobId := Text.hexEncode record.identity.jobId.val
  profileId := Text.hexEncode record.identity.profileId.val
  profileGeneration := record.identity.profileGeneration
  policyDigest := Text.hexEncode record.identity.policyDigest.val
  inputDigest := Text.hexEncode record.identity.inputDigest.val
  remoteDeadlineUnixMs := record.deadlines.remoteUnixMs
  relayDeadlineUnixMs := record.deadlines.relayUnixMs
  resultRetentionUnixMs := record.deadlines.resultRetentionUnixMs
  runAsUid := record.runAsUid
  stage := record.stage
  heartbeatOrdinal := record.heartbeatOrdinal
  elapsedMs := record.elapsedMs
  stdoutBytes := record.stdoutBytes
  stderrBytes := record.stderrBytes
  maxOutputBytes := record.maxOutputBytes
  updatedUnixMs := record.updatedUnixMs

/-- A journal as bytes. -/
def encodeJournal (record : JobRecord) : Except String (List UInt8) := do
  let bytes := diskCodec.encode record.disk
  rejectIf (¬bytes.length ≤ maxJournalBytes) "job journal exceeds size limit"
  return bytes

/-- Bytes in hexadecimal. -/
def decodeHexArray (n : Nat) (value field : String) : Except String (Bytes n) := do
  rejectIf (Text.byteLen value ≠ n * 2) (field ++ " has invalid length")
  match Text.hexDecode value with
  | none => .error ("decode " ++ field)
  | some bytes =>
    if h : bytes.length = n then .ok ⟨bytes, h⟩ else .error (field ++ " has invalid length")

/-- What is checked of a record that was stored. -/
def checkRecord (record : JobRecord) : Except String Unit := do
  rejectIf (record.runAsUid = 0) "journal execution UID is invalid"
  rejectIf (¬record.maxOutputBytes > 0) "journal output budget is invalid"
  rejectIf (¬saturatingAdd record.stdoutBytes record.stderrBytes ≤ record.maxOutputBytes)
    "journal output counters exceed budget"
  rejectIf (¬record.deadlines.ordered) "journal deadline ordering is invalid"

/-- The record that was stored. -/
def DiskJobRecord.record (disk : DiskJobRecord) : Except String JobRecord := do
  rejectIf (disk.schemaVersion ≠ jobSchemaVersion) "job journal schema is unsupported"
  let jobId ← decodeHexArray 16 disk.jobId "job_id"
  let profileId ← decodeHexArray 16 disk.profileId "profile_id"
  let policyDigest ← decodeHexArray 32 disk.policyDigest "policy_digest"
  let inputDigest ← decodeHexArray 32 disk.inputDigest "input_digest"
  let identity : JobIdentity :=
    ⟨jobId, profileId, disk.profileGeneration, policyDigest, inputDigest⟩
  identity.validate
  let record : JobRecord := {
    identity
    deadlines :=
      ⟨disk.remoteDeadlineUnixMs, disk.relayDeadlineUnixMs, disk.resultRetentionUnixMs⟩
    runAsUid := disk.runAsUid
    stage := disk.stage
    heartbeatOrdinal := disk.heartbeatOrdinal
    elapsedMs := disk.elapsedMs
    stdoutBytes := disk.stdoutBytes
    stderrBytes := disk.stderrBytes
    maxOutputBytes := disk.maxOutputBytes
    updatedUnixMs := disk.updatedUnixMs }
  checkRecord record
  return record

section Load

-- The parser of JSON objects.
variable (fromSlice : List UInt8 → Option DiskJobRecord)

/-- Bytes as a journal. -/
def decodeJournal (bytes : List UInt8) : Except String JobRecord := do
  rejectIf (¬(bytes.isEmpty = false ∧ bytes.length ≤ maxJournalBytes))
    "job journal size is invalid"
  let disk ← (fromSlice bytes).elim (.error "parse job journal") .ok
  disk.record

/-- The journal that is stored for a job. -/
def loadJournal (jobId : JobId) (bytes : List UInt8) : Except String JobRecord := do
  let record ← decodeJournal fromSlice bytes
  rejectIf (record.identity.jobId ≠ jobId) "journal job mismatch"
  return record

/-- The parser reads what the serializer writes. -/
def Lossless : Prop := ∀ disk, fromSlice (diskCodec.encode disk) = some disk

end Load

/-- What loading makes of a record that was stored. -/
def checkJournal (jobId : JobId) (record : JobRecord) : Except String Unit := do
  record.identity.validate
  checkRecord record
  rejectIf (record.identity.jobId ≠ jobId) "journal job mismatch"

/-! ## Loading -/

theorem length_word_le (word : UInt64) : (decimalDigits word.toNat).length ≤ 20 :=
  length_decimalDigits_le (lt_trans word.toNat_lt (by decide)) (by decide)

theorem byteLen_hexEncode (bytes : List UInt8) :
    Text.byteLen (hexEncode bytes) = 2 * bytes.length := by
  rw [← Text.length_utf8Bytes]
  exact length_of_isLowerHex (Text.isLowerHex_hexEncode bytes)

theorem length_text_hex_le {n : Nat} (bytes : Bytes n) :
    (Json.text.encode (hexEncode bytes.val)).length ≤ 12 * n + 2 := by
  have hlength := Json.length_text_le (hexEncode bytes.val)
  rw [byteLen_hexEncode, bytes.property] at hlength
  omega

/-- The identity is short. -/
theorem length_identityFields_le (record : JobRecord) :
    (identityFields.encode (jobSchemaVersion, record.disk.jobId, record.disk.profileId,
      record.disk.profileGeneration, record.disk.policyDigest, record.disk.inputDigest)).length ≤
      1500 := by
  have hjob := length_text_hex_le record.identity.jobId
  have hprofile := length_text_hex_le record.identity.profileId
  have hpolicy := length_text_hex_le record.identity.policyDigest
  have hinput := length_text_hex_le record.identity.inputDigest
  have hgeneration := length_word_le record.identity.profileGeneration
  have hschema : (decimalDigits jobSchemaVersion.toNat).length ≤ 5 :=
    length_decimalDigits_le (by decide) (by decide)
  have hnames : (utf8Bytes "\x7b\"schema_version\":").length +
      (utf8Bytes "\"job_id\":").length + (utf8Bytes ",\"profile_id\":").length +
      (utf8Bytes ",\"profile_generation\":").length +
      (utf8Bytes "\"policy_digest\":").length +
      (utf8Bytes ",\"input_digest\":").length ≤ 120 := by decide
  simp only [identityFields, seq, after, schemaCodec, wordCodec, numeral, convert, decimal, upTo,
    JobRecord.disk, List.length_append, List.length_cons, List.length_nil]
  omega

theorem length_limitFields_le (p : UInt64 × UInt64 × UInt64 × UInt32) :
    (limitFields.encode p).length ≤ 250 := by
  have hremote := length_word_le p.1
  have hrelay := length_word_le p.2.1
  have hretention := length_word_le p.2.2.1
  have huid : (decimalDigits p.2.2.2.toNat).length ≤ 20 :=
    length_decimalDigits_le (lt_trans p.2.2.2.toNat_lt (by decide)) (by decide)
  have hnames : (utf8Bytes ",\"remote_deadline_unix_ms\":").length +
      (utf8Bytes "\"relay_deadline_unix_ms\":").length +
      (utf8Bytes "\"result_retention_unix_ms\":").length +
      (utf8Bytes "\"run_as_uid\":").length ≤ 120 := by decide
  simp only [limitFields, seq, after, uidCodec, wordCodec, numeral, convert, decimal, upTo,
    List.length_append, List.length_cons, List.length_nil]
  omega

/-- The progress is short. -/
theorem length_progressFields_le
    (p : JobStage × UInt64 × UInt64 × UInt64 × UInt64 × UInt64 × UInt64) :
    (progressFields.encode p).length ≤ 320 := by
  have hordinal := length_word_le p.2.1
  have helapsed := length_word_le p.2.2.1
  have hstdout := length_word_le p.2.2.2.1
  have hstderr := length_word_le p.2.2.2.2.1
  have hbudget := length_word_le p.2.2.2.2.2.1
  have hupdated := length_word_le p.2.2.2.2.2.2
  have hstage : (utf8Bytes p.1.name).length ≤ 10 := by
    cases p.1 <;> decide
  have hnames : (utf8Bytes "\"stage\":").length +
      (utf8Bytes ",\"heartbeat_ordinal\":").length +
      (utf8Bytes "\"elapsed_ms\":").length + (utf8Bytes "\"stdout_bytes\":").length +
      (utf8Bytes "\"stderr_bytes\":").length +
      (utf8Bytes "\"max_output_bytes\":").length +
      (utf8Bytes "\"updated_unix_ms\":").length + (utf8Bytes "\"").length ≤ 130 := by
    decide
  simp only [progressFields, seq, after, stageCodec, named, quoted, wordCodec, numeral, convert,
    decimal, upTo, List.length_append, List.length_cons, List.length_nil]
  omega

/-- The size limit on journals is never reached. -/
theorem length_disk_le (record : JobRecord) :
    (diskCodec.encode record.disk).length ≤ maxJournalBytes := by
  have hidentity := length_identityFields_le record
  have hlimits := length_limitFields_le (record.deadlines.remoteUnixMs,
    record.deadlines.relayUnixMs, record.deadlines.resultRetentionUnixMs, record.runAsUid)
  have hprogress := length_progressFields_le (record.stage, record.heartbeatOrdinal,
    record.elapsedMs, record.stdoutBytes, record.stderrBytes, record.maxOutputBytes,
    record.updatedUnixMs)
  have hbound : 1500 + 250 + 320 ≤ maxJournalBytes := by decide
  simp only [diskCodec, convert, seq, JobRecord.disk, List.length_append] at hidentity ⊢
  omega

/-- No journal is too long to be stored. -/
theorem encodeJournal_eq (record : JobRecord) :
    encodeJournal record = .ok (diskCodec.encode record.disk) := by
  simp only [encodeJournal, bind_eq_ok, rejectIf_eq_ok, pure_eq_ok, not_not]
  exact ⟨(), length_disk_le record, trivial⟩

theorem encode_disk_ne_nil (disk : DiskJobRecord) : diskCodec.encode disk ≠ [] := by
  have hname : 0 < (utf8Bytes "\x7b\"schema_version\":").length := by decide
  apply List.ne_nil_of_length_pos
  simp only [diskCodec, convert, seq, identityFields, after, List.length_append]
  omega

@[simp] theorem decodeHexArray_hexEncode {n : Nat} (bytes : Bytes n) (field : String) :
    decodeHexArray n (hexEncode bytes.val) field = .ok bytes := by
  have hlength : ¬Text.byteLen (hexEncode bytes.val) ≠ n * 2 := by
    rw [byteLen_hexEncode, bytes.property, Nat.mul_comm]
    exact not_not.mpr rfl
  simp [decodeHexArray, rejectIf, hlength, bytes.property]

/-- A stored journal is checked when it is read. -/
theorem record_disk (record : JobRecord) : record.disk.record = (do
    record.identity.validate
    checkRecord record
    return record) := by
  simp only [DiskJobRecord.record, JobRecord.disk, decodeHexArray_hexEncode]
  rfl

/-- **A stored record is loaded again** when it passes the checks that a load makes. -/
theorem loadJournal_encode {fromSlice : List UInt8 → Option DiskJobRecord}
    (hlossless : Lossless fromSlice) (jobId : JobId) (record : JobRecord) :
    loadJournal fromSlice jobId (diskCodec.encode record.disk) =
      (checkJournal jobId record).map fun _ => record := by
  have hsize : ¬¬((diskCodec.encode record.disk).isEmpty = false ∧
      (diskCodec.encode record.disk).length ≤ maxJournalBytes) := by
    rw [not_not, List.isEmpty_eq_false_iff]
    exact ⟨encode_disk_ne_nil record.disk, length_disk_le record⟩
  have hdecode : decodeJournal fromSlice (diskCodec.encode record.disk) = record.disk.record := by
    rw [decodeJournal, rejectIf, if_neg hsize, hlossless record.disk]
    rfl
  rw [loadJournal, hdecode, record_disk, checkJournal]
  cases record.identity.validate with
  | error message => rfl
  | ok _ =>
    cases checkRecord record with
    | error message => rfl
    | ok _ =>
      show (do rejectIf (record.identity.jobId ≠ jobId) "journal job mismatch"; pure record) = _
      by_cases hjob : record.identity.jobId = jobId
      · simp [rejectIf, hjob]
        rfl
      · simp [rejectIf, hjob]
        rfl

/-- What the check asks for. -/
theorem checkJournal_eq_ok {jobId : JobId} {record : JobRecord} {u : Unit} :
    checkJournal jobId record = .ok u ↔ record.identity.validate = .ok () ∧ record.runAsUid ≠ 0 ∧
      0 < record.maxOutputBytes ∧ record.WithinBudget ∧ record.deadlines.ordered ∧
      record.identity.jobId = jobId := by
  simp only [checkJournal, checkRecord, check_eq_ok, rejectIf_eq_ok, not_not,
    JobRecord.WithinBudget, gt_iff_lt, and_assoc]

/-- A submitted record passes the checks of a load. -/
theorem checkJournal_submitted {identity : JobIdentity} {deadlines : JobDeadlines} {uid : UInt32}
    {budget now : UInt64} {record : JobRecord}
    (h : JobRecord.submitted identity deadlines uid budget now = .ok record) :
    checkJournal record.identity.jobId record = .ok () := by
  simp only [JobRecord.submitted, JobDeadlines.validateAt, check_eq_ok, rejectIf_eq_ok, pure_eq_ok,
    not_not] at h
  obtain ⟨hidentity, ⟨-, hrelay, hretention, -⟩, huid, hbudget, rfl⟩ := h
  exact checkJournal_eq_ok.mpr ⟨hidentity, huid, hbudget, UInt64.zero_le, ⟨hrelay, hretention⟩, rfl⟩

/-- No sequence of operations leads to a record that a load refuses. -/
theorem checkJournal_run {jobId : JobId} {record : JobRecord}
    (h : checkJournal jobId record = .ok ()) (ops : List JobOperation) :
    checkJournal jobId (record.run ops) = .ok () := by
  obtain ⟨hadvances, hwithin⟩ := JobRecord.advances_run record ops
  obtain ⟨hidentity, huid, hbudget, hcounters, hdeadlines, hjob⟩ := checkJournal_eq_ok.mp h
  rw [checkJournal_eq_ok, hadvances.identity, hadvances.runAsUid, hadvances.maxOutputBytes,
    hadvances.deadlines]
  exact ⟨hidentity, huid, hbudget, hwithin hcounters, hdeadlines, hjob⟩

/-- **Every reachable record is loaded again** as it was stored. -/
theorem reachable_journal_loads (fromSlice : List UInt8 → Option DiskJobRecord)
    (hlossless : Lossless fromSlice) (identity : JobIdentity) (deadlines : JobDeadlines)
    (uid : UInt32) (budget now : UInt64) (record : JobRecord)
    (h : JobRecord.submitted identity deadlines uid budget now = .ok record)
    (ops : List JobOperation) :
    ∃ bytes, encodeJournal (record.run ops) = .ok bytes ∧
      decodeJournal fromSlice bytes = .ok (record.run ops) ∧
      loadJournal fromSlice record.identity.jobId bytes = .ok (record.run ops) := by
  have hload : loadJournal fromSlice record.identity.jobId
      (diskCodec.encode (record.run ops).disk) =
      .ok (record.run ops) := by
    rw [loadJournal_encode hlossless, checkJournal_run (checkJournal_submitted h) ops]
    rfl
  refine ⟨_, encodeJournal_eq _, ?_, hload⟩
  simp only [loadJournal, bind_eq_ok, rejectIf_eq_ok, pure_eq_ok] at hload
  obtain ⟨loaded, hdecode, -, -, rfl⟩ := hload
  exact hdecode

theorem lossless_parse : Lossless diskCodec.parse := fun _ => diskCodec.parse_encode trivial


/-- The job that was stopped at its deadline, as it was submitted. -/
def stoppedJob : JobRecord where
  identity := stoppedBody.identity
  deadlines := stoppedBody.deadlines
  runAsUid := stoppedBody.runAsUid
  stage := .submitted
  heartbeatOrdinal := 0
  elapsedMs := 0
  stdoutBytes := 0
  stderrBytes := 0
  maxOutputBytes := stoppedBody.maxOutputBytes
  updatedUnixMs := 1000

theorem submitted_stoppedJob : JobRecord.submitted stoppedBody.identity stoppedBody.deadlines 1000
    100 1000 = .ok stoppedJob := rfl

/-- The job ran and was cancelled, and then its connection was lost. -/
def lostConnection : List JobOperation :=
  [.markRunning 1200, .requestCancel 1300, .reconcile none stoppedToken 1400]

theorem stopped_job_loads :
    (stoppedJob.run lostConnection).stage = .unknown ∧
      ∃ bytes, encodeJournal (stoppedJob.run lostConnection) = .ok bytes ∧
        decodeJournal diskCodec.parse bytes = .ok (stoppedJob.run lostConnection) ∧
        loadJournal diskCodec.parse stoppedJob.identity.jobId bytes =
          .ok (stoppedJob.run lostConnection) :=
  ⟨rfl, reachable_journal_loads diskCodec.parse lossless_parse _ _ _ _ _ _ submitted_stoppedJob
    lostConnection⟩

/-! ## What is never taken back -/

/-- **What no sequence of operations takes back**.  The counters never decrease.  A job that has
    ended stays as it is, and its time does not go back, but for a reconciliation: one without a
    receipt makes the job unknown, and one with a receipt sets stage and time as the receipt
    tells. -/
theorem job_record_monotone (record : JobRecord) (ops : List JobOperation) :
    (record.heartbeatOrdinal ≤ (record.run ops).heartbeatOrdinal ∧
      record.elapsedMs ≤ (record.run ops).elapsedMs ∧
      record.stdoutBytes ≤ (record.run ops).stdoutBytes ∧
      record.stderrBytes ≤ (record.run ops).stderrBytes) ∧
    ((∀ op ∈ ops, op.isReconcile = false) →
      record.updatedUnixMs ≤ (record.run ops).updatedUnixMs ∧
        (record.stage.isTerminal = true → (record.run ops).stage = record.stage)) ∧
    ∀ receiptBytes token now next,
      (record.run ops).apply (.reconcile receiptBytes token now) = .ok next →
        (receiptBytes = none ∧ next.stage = .unknown ∧
          (record.run ops).updatedUnixMs ≤ next.updatedUnixMs) ∨
        ∃ bytes receipt body, receiptBytes = some bytes ∧
          decode bytes = .ok receipt ∧
          receipt.verify record.identity record.deadlines record.runAsUid record.maxOutputBytes
            token now = .ok body ∧
          next.stage = body.outcome.stage ∧ next.updatedUnixMs = body.completedUnixMs := by
  have hadvances := (JobRecord.advances_run record ops).1
  refine ⟨⟨hadvances.heartbeatOrdinal, hadvances.elapsedMs, hadvances.stdoutBytes,
    hadvances.stderrBytes⟩, JobRecord.steady_run record ops, ?_⟩
  intro receiptBytes token now next happly
  rcases JobRecord.apply_reconcile happly with
    ⟨hnone, hnow, rfl⟩ | ⟨bytes, receipt, body, hsome, hread, hverify, rfl⟩
  · exact .inl ⟨hnone, rfl, hnow⟩
  · rw [hadvances.identity, hadvances.deadlines, hadvances.runAsUid, hadvances.maxOutputBytes]
      at hverify
    exact .inr ⟨bytes, receipt, body, hsome, hread, hverify, rfl, rfl⟩

/-- A heartbeat that comes after the job was stopped. -/
def lateHeartbeat : HeartbeatFrame where
  jobId := stoppedBody.identity.jobId
  ordinal := 1
  elapsedMs := 1000
  stdoutBytes := 0
  stderrBytes := 0

theorem reconcile_stopped {record : JobRecord} (hidentity : record.identity = stoppedBody.identity)
    (hdeadlines : record.deadlines = stoppedBody.deadlines)
    (huid : record.runAsUid = stoppedBody.runAsUid)
    (hbudget : record.maxOutputBytes = stoppedBody.maxOutputBytes) :
    record.after (.reconcile (some stoppedReceipt.encode) stoppedToken 2500) =
      { record with stage := .failed, updatedUnixMs := 2000 } := by
  have hverify := (verify_issue issue_stopped 2500).mpr
    ⟨by decide, by decide, by decide⟩
  have happly : record.apply (.reconcile (some stoppedReceipt.encode) stoppedToken 2500) =
      .ok { record with stage := .failed, updatedUnixMs := 2000 } := by
    simp only [JobRecord.apply, reconcile, map_eq_ok, bind_eq_ok, pure_eq_ok]
    refine ⟨_, ⟨_, decode_stoppedReceipt, stoppedBody, ?_, rfl⟩, rfl⟩
    rw [hidentity, hdeadlines, huid, hbudget]
    exact hverify
  rw [JobRecord.after, happly]

/-- The job as the heartbeat leaves it. -/
def lateJob : JobRecord :=
  { stoppedJob with
    stage := .running
    heartbeatOrdinal := 1
    elapsedMs := 1000
    updatedUnixMs := 2200 }

theorem run_lateJob :
    stoppedJob.run [.markRunning 1500, .observeHeartbeat lateHeartbeat 2200] = lateJob := rfl

/-- The receipt of a job sets its time back, and without the receipt the job that has failed is
    unknown again. -/
theorem failed_job_unknown_again :
    JobRecord.submitted stoppedBody.identity stoppedBody.deadlines 1000 100 1000 = .ok stoppedJob ∧
      stoppedJob.run [.markRunning 1500, .observeHeartbeat lateHeartbeat 2200] = lateJob ∧
      lateJob.run [.reconcile (some stoppedReceipt.encode) stoppedToken 2500] =
        { lateJob with stage := .failed, updatedUnixMs := 2000 } ∧
      lateJob.run [.reconcile (some stoppedReceipt.encode) stoppedToken 2500,
        .reconcile none stoppedToken 2600] =
        { lateJob with stage := .unknown, updatedUnixMs := 2600 } ∧
      (2000 : UInt64) < lateJob.updatedUnixMs ∧ JobStage.failed.isTerminal = true := by
  have hfailed : lateJob.after (.reconcile (some stoppedReceipt.encode) stoppedToken 2500) =
      { lateJob with stage := .failed, updatedUnixMs := 2000 } :=
    reconcile_stopped rfl rfl rfl rfl
  refine ⟨submitted_stoppedJob, run_lateJob, ?_, ?_, by decide, rfl⟩
  · rw [JobRecord.run_cons, JobRecord.run_nil, hfailed]
  · rw [JobRecord.run_cons, hfailed]
    rfl

theorem stopped_job_monotone :
    stoppedJob.updatedUnixMs ≤ (stoppedJob.run [.markRunning 1500]).updatedUnixMs :=
  ((job_record_monotone stoppedJob [.markRunning 1500]).2.1 (by simp [JobOperation.isReconcile])).1

end Serctl.Remote
