import Serctl.Remote.Frame

/-!
# Each frame has one form

Reading accepts exactly the bytes that writing produces: every field, every kind of payload and
the envelope as a whole.
-/

namespace Serctl.Remote

open Lib PayloadReader List Lib.Guard Lib.Text Lib.Bytes

variable {bytes rest : List UInt8}

/-! ## Numbers -/

variable {n : Nat}

@[simp] theorem array_eq_ok {b : Bytes n} :
    array n bytes = .ok (b, rest) ↔ bytes = b.val ++ rest :=
  Reader.take_eq_ok

@[simp] theorem jobId_eq_ok {b : JobId} : jobId bytes = .ok (b, rest) ↔ bytes = b.val ++ rest :=
  Reader.take_eq_ok

@[simp] theorem u8_eq_ok {v : UInt8} : u8 bytes = .ok (v, rest) ↔ bytes = v :: rest :=
  Reader.byte_eq_ok

@[simp] theorem u16_eq_ok {v : UInt16} :
    u16 bytes = .ok (v, rest) ↔ bytes = putU16 v ++ rest :=
  Reader.word_eq_ok (g := UInt16.toNat) (by simp) (by intro m hm; simp; omega)
    (fun v => v.toNat_lt)

@[simp] theorem u32_eq_ok {v : UInt32} :
    u32 bytes = .ok (v, rest) ↔ bytes = putU32 v ++ rest :=
  Reader.word_eq_ok (g := UInt32.toNat) (by simp) (by intro m hm; simp; omega)
    (fun v => v.toNat_lt)

@[simp] theorem u64_eq_ok {v : UInt64} :
    u64 bytes = .ok (v, rest) ↔ bytes = putU64 v ++ rest :=
  Reader.word_eq_ok (g := UInt64.toNat) (by simp) (by intro m hm; simp; omega)
    (fun v => v.toNat_lt)

@[simp] theorem i32_eq_ok {v : Int32} :
    i32 bytes = .ok (v, rest) ↔ bytes = putI32 v ++ rest := by
  simp only [i32, Reader.bind_eq_ok, u32_eq_ok, Reader.pure_eq_ok]
  constructor
  · rintro ⟨value, _, rfl, rfl, rfl⟩
    simp [putI32]
  · rintro rfl
    exact ⟨v.toUInt32, rest, rfl, by simp, rfl⟩

/-! ## Fields -/

variable {maximum minimum : Nat} {field : String}

@[simp] theorem validateRange_eq_ok {length : Nat} {u : Unit} :
    validateRange field length minimum maximum = .ok u ↔ minimum ≤ length ∧ length ≤ maximum := by
  simp only [validateRange, rejectIf_eq_ok, not_not]

@[simp] theorem bytesU32_eq_ok {value : List UInt8} :
    bytesU32 field minimum maximum bytes = .ok (value, rest) ↔
      (minimum ≤ value.length ∧ value.length ≤ maximum) ∧
        ∃ text, putBytesU32 value = .ok text ∧ bytes = text ++ rest := by
  simp only [bytesU32, Reader.bind_eq_ok, u32_eq_ok, Reader.check_eq_ok, validateRange_eq_ok,
    array_eq_ok, Reader.pure_eq_ok, putBytesU32, bind_eq_ok, rejectIf_eq_ok, not_not,
    pure_eq_ok]
  constructor
  · rintro ⟨length, _, rfl, _, _, ⟨hrange, rfl⟩, value, _, rfl, rfl, rfl⟩
    have hlen : value.val.length = length.toNat := value.property
    have hlt : length.toNat < 2 ^ 32 := length.toNat_lt
    refine ⟨by rwa [hlen], _, ⟨(), by rwa [hlen], rfl⟩, ?_⟩
    simp [hlen]
  · rintro ⟨hrange, _, ⟨_, hlt, rfl⟩, rfl⟩
    have hlen : (UInt32.ofNat value.length).toNat = value.length := by
      simp
      omega
    refine ⟨UInt32.ofNat value.length, value ++ rest, by simp, (), _, ⟨by rwa [hlen], rfl⟩,
      ⟨value, hlen.symm⟩, rest, rfl, rfl, rfl⟩

@[simp] theorem fromUtf8_eq_ok {text : List UInt8} {s : String} :
    fromUtf8 text = .ok s ↔ text = utf8Bytes s := by
  rw [← ofUtf8_eq_some]
  unfold fromUtf8
  split <;> rename_i h <;> simp [h]

/-- A text is read exactly as it is written. -/
theorem stringU16_exact (field : String) (minimum maximum : Nat) :
    Reader.Exact (fun _ => True) (putStringU16 field · minimum maximum)
      (stringU16 field minimum maximum) := by
  intro s bytes rest
  simp only [stringU16, Reader.bind_eq_ok, u16_eq_ok, Reader.check_eq_ok, validateRange_eq_ok,
    array_eq_ok, fromUtf8_eq_ok, Reader.pure_eq_ok, putStringU16, bind_eq_ok,
    rejectIf_eq_ok, not_not, pure_eq_ok, true_and]
  constructor
  · rintro ⟨length, _, rfl, _, _, ⟨-, rfl⟩, text, _, rfl, s, _, ⟨htext, rfl⟩, _, _, ⟨hvalid, rfl⟩,
      rfl, rfl⟩
    have hlen : byteLen s = length.toNat := by
      rw [← length_utf8Bytes, ← htext, text.property]
    have hlt : length.toNat < 2 ^ 16 := length.toNat_lt
    refine ⟨_, ⟨(), hvalid, (), by rwa [hlen], rfl⟩, ?_⟩
    simp [hlen, htext]
  · rintro ⟨_, ⟨_, hvalid, _, hlt, rfl⟩, rfl⟩
    have hlen : (UInt16.ofNat (byteLen s)).toNat = byteLen s := by
      simp
      omega
    have hrange : minimum ≤ byteLen s ∧ byteLen s ≤ maximum := by
      simp only [validateText, bind_eq_ok, validateRange_eq_ok] at hvalid
      obtain ⟨_, hrange, -⟩ := hvalid
      exact hrange
    have hbytes : (utf8Bytes s).length = (UInt16.ofNat (byteLen s)).toNat := by
      rw [hlen, length_utf8Bytes]
    refine ⟨UInt16.ofNat (byteLen s), utf8Bytes s ++ rest, by simp, (), _,
      ⟨by rwa [hlen], rfl⟩, ⟨utf8Bytes s, hbytes⟩, rest, rfl, s, rest, ⟨rfl, rfl⟩, (), rest,
      ⟨hvalid, rfl⟩, rfl, rfl⟩

@[simp] theorem stringU16_eq_ok {s : String} :
    stringU16 field minimum maximum bytes = .ok (s, rest) ↔
      ∃ text, putStringU16 field s minimum maximum = .ok text ∧ bytes = text ++ rest := by
  simpa using stringU16_exact field minimum maximum s bytes rest

@[simp] theorem finish_eq_ok {u : Unit} :
    finish bytes = .ok (u, rest) ↔ bytes = [] ∧ rest = [] := by
  simp only [finish, Reader.bind_eq_ok, Reader.left_eq_ok, Reader.check_eq_ok,
    rejectIf_eq_ok, not_not]
  constructor
  · rintro ⟨n, _, ⟨rfl, rfl⟩, hempty, rfl⟩
    have hnil := length_eq_zero_iff.mp hempty
    exact ⟨hnil, hnil⟩
  · rintro ⟨rfl, rfl⟩
    exact ⟨0, [], ⟨rfl, rfl⟩, rfl, rfl⟩

@[simp] theorem remainingBounded_eq_ok {data : List UInt8} :
    remainingBounded maximum bytes = .ok (data, rest) ↔
      data.length ≤ maximum ∧ bytes = data ∧ rest = [] := by
  simp only [remainingBounded, Reader.bind_eq_ok, Reader.left_eq_ok, Reader.check_eq_ok,
    validateRange_eq_ok, array_eq_ok, Reader.pure_eq_ok]
  constructor
  · rintro ⟨n, _, ⟨rfl, rfl⟩, _, _, ⟨hrange, rfl⟩, data, behind, hdata, rfl, rfl⟩
    -- all that is left is taken, so nothing stays behind
    have hlen := congrArg length hdata
    rw [length_append, data.property] at hlen
    have hnil : behind = [] := length_eq_zero_iff.mp (by omega)
    subst hnil
    rw [append_nil] at hdata
    rw [← hdata]
    exact ⟨hrange.2, rfl, rfl⟩
  · rintro ⟨hlen, rfl, rfl⟩
    exact ⟨bytes.length, bytes, ⟨rfl, rfl⟩, (), bytes, ⟨⟨Nat.zero_le _, hlen⟩, rfl⟩,
      ⟨bytes, rfl⟩, [], by simp, rfl, rfl⟩

/-! ## Records -/

/-- A variable is read exactly as it is written. -/
theorem decodeEnvEntry_exact :
    Reader.Exact (fun entry => containsChar entry.name '=' ≠ true) putEnvEntry
      decodeEnvEntry := by
  rintro ⟨name, value⟩ bytes rest
  simp only [decodeEnvEntry, Reader.bind_eq_ok, stringU16_eq_ok, Reader.check_eq_ok,
    rejectIf_eq_ok, Reader.pure_eq_ok, EnvEntry.mk.injEq, putEnvEntry, bind_eq_ok,
    pure_eq_ok]
  constructor
  · rintro ⟨name, _, ⟨text, hname, rfl⟩, _, _, ⟨hplain, rfl⟩, value, _, ⟨text', hvalue, rfl⟩,
      ⟨rfl, rfl⟩, rfl⟩
    refine ⟨hplain, text ++ text', ⟨text, hname, text', hvalue, rfl⟩, ?_⟩
    rw [append_assoc]
  · rintro ⟨hplain, _, ⟨text, hname, text', hvalue, rfl⟩, rfl⟩
    refine ⟨name, text' ++ rest, ⟨text, hname, ?_⟩, (), _, ⟨hplain, rfl⟩, value, rest,
      ⟨text', hvalue, rfl⟩, ⟨rfl, rfl⟩, rfl⟩
    rw [append_assoc]

/-- An optional value behind its presence byte. -/
theorem presence_eq_ok {α : Type} {field : PayloadReader α} {e : ProtocolError} {v : Option α} :
    (do
      let presence ← u8
      if presence = 0 then return none
      else if presence = 1 then do
        let value ← field
        return some value
      else Reader.check (.error e) : PayloadReader (Option α)) bytes = .ok (v, rest) ↔
    (v = none ∧ bytes = 0 :: rest) ∨
      ∃ value later, v = some value ∧ bytes = 1 :: later ∧ field later = .ok (value, rest) := by
  simp only [Reader.bind_eq_ok, u8_eq_ok]
  constructor
  · rintro ⟨presence, later, rfl, h⟩
    split_ifs at h with hzero hone
    · -- nothing follows the presence byte
      obtain ⟨rfl, rfl⟩ := Reader.pure_eq_ok.mp h
      exact .inl ⟨rfl, by rw [hzero]⟩
    · simp only [Reader.bind_eq_ok, Reader.pure_eq_ok] at h
      obtain ⟨value, _, hvalue, rfl, rfl⟩ := h
      exact .inr ⟨value, later, rfl, by rw [hone], hvalue⟩
    · simp at h
  · rintro (⟨rfl, rfl⟩ | ⟨value, later, rfl, rfl, hvalue⟩)
    · exact ⟨0, rest, rfl, Reader.pure_eq_ok.mpr ⟨rfl, rfl⟩⟩
    · refine ⟨1, later, rfl, Reader.bind_eq_ok.mpr ⟨value, rest, hvalue, ?_⟩⟩
      exact Reader.pure_eq_ok.mpr ⟨rfl, rfl⟩

@[simp] theorem decodeCwd_eq_ok {cwd : Option String} :
    decodeCwd bytes = .ok (cwd, rest) ↔ ∃ text, putCwd cwd = .ok text ∧ bytes = text ++ rest := by
  rw [decodeCwd, presence_eq_ok]
  cases cwd with
  | none => simp [putCwd]
  | some cwd => simp [putCwd, bind_eq_ok, -bind_pure_comp, and_comm]

/-- What a valid request promises to the reader of its bytes. -/
theorem StartFrame.validate_bounds {v : StartFrame} (h : v.validate = .ok ()) :
    v.argv.length ≤ maxArgCount ∧ argvBytes v.argv ≤ maxArgTotalBytes ∧
      v.env.length ≤ maxEnvCount ∧
      (∀ entry ∈ v.env, containsChar entry.name '=' ≠ true) ∧
      envBytes v.env ≤ maxEnvTotalBytes ∧
      (1 ≤ v.policyJson.length ∧ v.policyJson.length ≤ maxPolicyBytes) := by
  simp only [StartFrame.validate, bind_eq_ok, rejectIf_eq_ok, validateRange_eq_ok] at h
  obtain ⟨_, -, _, -, _, -, _, -, _, -, _, -, _, -, _, -, _, -, _, -, _, hargc, _, -, _, hargs, _,
    henvc, _, henv, _, henvs, _, -, hpolicy⟩ := h
  refine ⟨Nat.not_lt.mp hargc, Nat.not_lt.mp hargs, Nat.not_lt.mp henvc, ?_,
    Nat.not_lt.mp henvs, hpolicy⟩
  intro entry hentry
  obtain ⟨_, hvalid⟩ := collect_ok_of_mem henv hentry
  simp only [EnvEntry.validate, bind_eq_ok, rejectIf_eq_ok] at hvalid
  obtain ⟨_, -, _, -, hplain⟩ := hvalid
  exact hplain

/-- A count that is in range is written as it is. -/
theorem toNat_ofNat_count {limit : Nat} (hn : n ≤ limit) (hlimit : limit < 2 ^ 16) :
    (UInt16.ofNat n).toNat = n := by
  simp only [UInt16.toNat_ofNat', Nat.reducePow]
  omega

/-- A request is read exactly as it is written. -/
theorem decodeStart_exact : Reader.Exact (fun _ => True) encodeStart decodeStart := by
  intro v bytes rest
  simp only [decodeStart, Reader.bind_eq_ok, jobId_eq_ok, array_eq_ok, u64_eq_ok, u32_eq_ok,
    u16_eq_ok, stringU16_eq_ok, Reader.check_eq_ok, rejectIf_eq_ok,
    Reader.times_exact (stringU16_exact _ _ _), Reader.times_exact decodeEnvEntry_exact,
    decodeCwd_eq_ok, bytesU32_eq_ok, Reader.pure_eq_ok, encodeStart, bind_eq_ok,
    pure_eq_ok, true_and]
  constructor
  -- the fields, in the order in which they are written
  · rintro ⟨jobId, _, rfl, profileId, _, rfl, generation, _, rfl, policy, _, rfl, input, _, rfl, h⟩
    obtain ⟨remote, _, rfl, relay, _, rfl, retention, _, rfl, uid, _, rfl, output, _, rfl, h⟩ := h
    obtain ⟨program, _, ⟨programText, hprogram, rfl⟩, argc, _, rfl, _, _, ⟨-, rfl⟩, h⟩ := h
    obtain ⟨argv, _, ⟨hargv, -, argvTexts, hargvTexts, rfl⟩, _, _, ⟨-, rfl⟩, h⟩ := h
    obtain ⟨envc, _, rfl, _, _, ⟨-, rfl⟩, h⟩ := h
    obtain ⟨env, _, ⟨henv, -, envTexts, henvTexts, rfl⟩, _, _, ⟨-, rfl⟩, h⟩ := h
    obtain ⟨cwd, _, ⟨cwdText, hcwd, rfl⟩, json, _, ⟨-, jsonText, hjsonText, rfl⟩, h⟩ := h
    obtain ⟨token, _, rfl, _, _, ⟨hvalid, rfl⟩, rfl, rfl⟩ := h
    refine ⟨_, ⟨(), hvalid, programText, hprogram, argvTexts, hargvTexts, envTexts, henvTexts,
      cwdText, hcwd, jsonText, hjsonText, rfl⟩, ?_⟩
    simp [hargv, henv]
  · rintro ⟨_, ⟨_, hvalid, programText, hprogram, argvTexts, hargvTexts, envTexts, henvTexts,
      cwdText, hcwd, jsonText, hjsonText, rfl⟩, rfl⟩
    obtain ⟨hargc, hargvBytes, henvc, hplain, henvBytes, hjson⟩ := v.validate_bounds hvalid
    have hargv : (UInt16.ofNat v.argv.length).toNat = v.argv.length :=
      toNat_ofNat_count hargc (by decide)
    have henv : (UInt16.ofNat v.env.length).toNat = v.env.length :=
      toNat_ofNat_count henvc (by decide)
    simp only [append_assoc]
    refine ⟨_, _, rfl, _, _, rfl, _, _, rfl, _, _, rfl, _, _, rfl, _, _, rfl, _, _, rfl, _, _, rfl,
      _, _, rfl, _, _, rfl, v.program, _, ⟨programText, hprogram, rfl⟩, _, _, rfl, (), _, ⟨?_, rfl⟩,
      v.argv, _, ⟨hargv.symm, fun _ _ => trivial, argvTexts, hargvTexts, rfl⟩, (), _, ⟨?_, rfl⟩,
      _, _, rfl, (), _, ⟨?_, rfl⟩, v.env, _, ⟨henv.symm, hplain, envTexts, henvTexts, rfl⟩, (), _,
      ⟨?_, rfl⟩, v.cwd, _, ⟨cwdText, hcwd, rfl⟩, v.policyJson, _, ⟨hjson, jsonText, hjsonText, rfl⟩,
      v.receiptToken, rest, rfl, (), rest, ⟨hvalid, rfl⟩, rfl, rfl⟩
    · rw [hargv]
      exact Nat.not_lt.mpr hargc
    · exact Nat.not_lt.mpr hargvBytes
    · rw [henv]
      exact Nat.not_lt.mpr henvc
    · exact Nat.not_lt.mpr henvBytes

@[simp] theorem decodeStart_eq_ok {v : StartFrame} :
    decodeStart bytes = .ok (v, rest) ↔
      ∃ text, encodeStart v = .ok text ∧ bytes = text ++ rest := by
  simpa using decodeStart_exact v bytes rest

@[simp] theorem decodeOutput_eq_ok {v : OutputFrame} :
    decodeOutput bytes = .ok (v, rest) ↔ encodeOutput v = .ok bytes ∧ rest = [] := by
  obtain ⟨job, offset, data⟩ := v
  simp only [decodeOutput, Reader.bind_eq_ok, jobId_eq_ok, u64_eq_ok, remainingBounded_eq_ok,
    Reader.pure_eq_ok, OutputFrame.mk.injEq, encodeOutput, bind_eq_ok, validateRange_eq_ok,
    pure_eq_ok]
  constructor
  · rintro ⟨job, _, rfl, offset, _, rfl, data, _, ⟨hlen, rfl, rfl⟩, ⟨rfl, rfl, rfl⟩, rfl⟩
    exact ⟨⟨(), ⟨Nat.zero_le _, hlen⟩, rfl⟩, rfl⟩
  · rintro ⟨⟨_, hrange, rfl⟩, rfl⟩
    exact ⟨job, _, rfl, offset, _, rfl, data, [], ⟨hrange.2, rfl, rfl⟩, ⟨rfl, rfl, rfl⟩, rfl⟩

theorem putI32_injective {a b : Int32} (h : putI32 a = putI32 b) : a = b := by
  have hread : i32 (putI32 a) = .ok (a, []) := by simp
  rw [h, i32_eq_ok.mpr (append_nil _).symm] at hread
  cases hread
  rfl

/-- The kind and the code of an outcome are read exactly as they are written. -/
@[simp] theorem exitOutcome_eq_ok {kind : UInt8} {code : Int32} {outcome : ExitOutcome} :
    exitOutcome kind code = .ok outcome ↔ putExitOutcome outcome = kind :: putI32 code := by
  constructor
  · intro h
    unfold exitOutcome at h
    split at h
    · rename_i hkind
      cases h
      rw [hkind]
      rfl
    · split at h
      · rename_i hkind
        cases h
        rw [hkind.1, hkind.2]
        rfl
      · split at h
        · rename_i hkind
          cases h
          rw [hkind.1, hkind.2]
          rfl
        · cases h
  · intro h
    cases outcome with
    | exited code' =>
      obtain ⟨rfl, hcode⟩ := List.cons.inj h
      rw [putI32_injective hcode]
      rfl
    | cancelled =>
      obtain ⟨rfl, hcode⟩ := List.cons.inj h
      rw [← putI32_injective hcode]
      rfl
    | deadlineExceeded =>
      obtain ⟨rfl, hcode⟩ := List.cons.inj h
      rw [← putI32_injective hcode]
      rfl

@[simp] theorem decodeJobPresence_eq_ok {job : Option JobId} :
    decodeJobPresence bytes = .ok (job, rest) ↔ bytes = putJobPresence job ++ rest := by
  rw [decodeJobPresence, presence_eq_ok]
  cases job <;> simp [putJobPresence]

@[simp] theorem retryableFrom_eq_ok {value : UInt8} {retryable : Bool} :
    retryableFrom value = .ok retryable ↔ value = if retryable then 1 else 0 := by
  unfold retryableFrom
  cases retryable <;> grind

/-! ## Payloads -/

variable {payload : List UInt8} {frame : Frame} {kind : FrameKind}

/-- The fields are all of the payload. -/
theorem decodePayload_iff_fields :
    decodePayload kind payload = .ok frame ↔ decodeFields kind payload = .ok (frame, []) := by
  simp only [decodePayload, bind_eq_ok, pure_eq_ok, Prod.exists, Reader.bind_eq_ok,
    finish_eq_ok, Reader.pure_eq_ok]
  constructor
  · rintro ⟨frame, _, ⟨_, _, h, _, _, ⟨rfl, rfl⟩, rfl, rfl⟩, rfl⟩
    exact h
  · intro h
    exact ⟨frame, [], ⟨frame, [], h, (), [], ⟨rfl, rfl⟩, rfl, rfl⟩, rfl⟩

/-- What is read as a frame is how the frame is written. -/
theorem encodePayload_of_decodeFields (h : decodeFields kind payload = .ok (frame, [])) :
    frame.kind = kind ∧ encodePayload frame = .ok payload := by
  cases kind <;> simp only [decodeFields, Reader.bind_eq_ok, array_eq_ok, jobId_eq_ok, u8_eq_ok,
    u32_eq_ok, u64_eq_ok, i32_eq_ok, bytesU32_eq_ok, stringU16_eq_ok, decodeStart_eq_ok,
    decodeOutput_eq_ok, decodeJobPresence_eq_ok, exitOutcome_eq_ok, retryableFrom_eq_ok,
    Reader.check_eq_ok, rejectIf_eq_ok, Reader.pure_eq_ok] at h
  case hello =>
    obtain ⟨size, _, rfl, features, _, rfl, _, _, ⟨hsize, rfl⟩, _, _, ⟨hfeatures, rfl⟩, uid, _,
      rfl, rfl, rfl⟩ := h
    refine ⟨rfl, ?_⟩
    simp [encodePayload, hsize, hfeatures]
  case start =>
    obtain ⟨start, _, ⟨text, htext, rfl⟩, rfl, rfl⟩ := h
    exact ⟨rfl, by rw [append_nil]; exact htext⟩
  case stdout | stderr =>
    obtain ⟨output, _, ⟨htext, rfl⟩, rfl, -⟩ := h
    exact ⟨rfl, htext⟩
  case heartbeat =>
    obtain ⟨job, _, rfl, ordinal, _, rfl, elapsed, _, rfl, out, _, rfl, err, _, rfl, rfl, rfl⟩ := h
    refine ⟨rfl, ?_⟩
    simp [encodePayload]
  case cancel =>
    obtain ⟨job, _, rfl, reason, _, ⟨text, htext, rfl⟩, rfl, rfl⟩ := h
    refine ⟨rfl, ?_⟩
    simp [encodePayload, htext]
  case exit =>
    obtain ⟨job, _, rfl, kind, _, rfl, code, _, rfl, outcome, _, ⟨houtcome, rfl⟩, completed, _,
      rfl, rfl, rfl⟩ := h
    refine ⟨rfl, ?_⟩
    simp [encodePayload, houtcome]
  case receipt =>
    obtain ⟨job, _, rfl, receipt, _, ⟨hrange, text, htext, rfl⟩, rfl, rfl⟩ := h
    have hvalid : validateRange "receipt" receipt.length 1 maxReceiptBytes = .ok () :=
      validateRange_eq_ok.mpr hrange
    refine ⟨rfl, ?_⟩
    simp [encodePayload, hvalid, htext]
  case error =>
    obtain ⟨job, _, rfl, code, _, ⟨codeText, hcode, rfl⟩, message, _,
      ⟨messageText, hmessage, rfl⟩, flag, _, rfl, retryable, _, ⟨rfl, rfl⟩, rfl, rfl⟩ := h
    refine ⟨rfl, ?_⟩
    simp [encodePayload, hcode, hmessage]
  case queryReceipt =>
    obtain ⟨job, _, rfl, profile, _, rfl, generation, _, rfl, _, _, ⟨-, rfl⟩,
      policy, _, rfl, h⟩ := h
    obtain ⟨input, _, rfl, token, _, rfl, _, _, ⟨hvalid, rfl⟩, rfl, rfl⟩ := h
    refine ⟨rfl, ?_⟩
    simp [encodePayload, hvalid]

/-- A frame that can be written is read back. -/
theorem decodeFields_of_encodePayload (h : encodePayload frame = .ok payload) :
    decodeFields frame.kind payload = .ok (frame, []) := by
  cases frame <;>
    simp only [encodePayload, bind_eq_ok, validateRange_eq_ok, pure_eq_ok] at h <;>
    simp only [Frame.kind, decodeFields, Reader.bind_eq_ok, array_eq_ok, jobId_eq_ok, u8_eq_ok,
      u32_eq_ok, u64_eq_ok, i32_eq_ok, bytesU32_eq_ok, stringU16_eq_ok, decodeStart_eq_ok,
      decodeOutput_eq_ok, decodeJobPresence_eq_ok, exitOutcome_eq_ok, retryableFrom_eq_ok,
      Reader.check_eq_ok, rejectIf_eq_ok, Reader.pure_eq_ok]
  case hello value =>
    obtain ⟨_, hsize, _, hfeatures, rfl⟩ := h
    exact ⟨_, _, rfl, _, _, rfl, (), _, ⟨hsize, rfl⟩, (), _, ⟨hfeatures, rfl⟩, _, [], by simp, rfl,
      rfl⟩
  case start value =>
    exact ⟨value, [], ⟨payload, h, by simp⟩, rfl, rfl⟩
  case stdout value | stderr value =>
    exact ⟨value, [], ⟨h, rfl⟩, rfl, rfl⟩
  case heartbeat value =>
    subst h
    exact ⟨_, _, rfl, _, _, rfl, _, _, rfl, _, _, rfl, _, [], by simp, rfl, rfl⟩
  case cancel value =>
    obtain ⟨text, htext, rfl⟩ := h
    exact ⟨_, _, rfl, value.reason, [], ⟨text, htext, by simp⟩, rfl, rfl⟩
  case exit value =>
    subst h
    -- the outcome is one byte and a code
    obtain ⟨kind, code, houtcome⟩ : ∃ kind code, putExitOutcome value.outcome =
        kind :: putI32 code := by
      cases value.outcome <;> exact ⟨_, _, rfl⟩
    refine ⟨_, _, rfl, kind, putI32 code ++ putU64 value.completedUnixMs, ?_, code, _, rfl,
      value.outcome, _, ⟨houtcome, rfl⟩, _, [], by simp, rfl, rfl⟩
    rw [houtcome, cons_append]
  case receipt value =>
    obtain ⟨_, hrange, text, htext, rfl⟩ := h
    exact ⟨_, _, rfl, value.bytes, [], ⟨hrange, text, htext, by simp⟩, rfl, rfl⟩
  case error value =>
    obtain ⟨codeText, hcode, messageText, hmessage, rfl⟩ := h
    exact ⟨_, _, rfl, value.code, _, ⟨codeText, hcode, rfl⟩, value.message, _,
      ⟨messageText, hmessage, rfl⟩, _, [], rfl, value.retryable, [], ⟨rfl, rfl⟩, rfl, rfl⟩
  case queryReceipt value =>
    obtain ⟨_, hvalid, rfl⟩ := h
    have hgeneration : ¬value.profileGeneration = 0 := by
      simp only [QueryReceiptFrame.validate, bind_eq_ok, rejectIf_eq_ok] at hvalid
      obtain ⟨_, -, _, -, _, -, _, -, _, -, hgeneration⟩ := hvalid
      exact hgeneration
    exact ⟨_, _, rfl, _, _, rfl, _, _, rfl, (), _, ⟨hgeneration, rfl⟩, _, _, rfl, _, _, rfl,
      value.receiptToken, [], by simp, (), [], ⟨hvalid, rfl⟩, rfl, rfl⟩

/-- A payload is read exactly as frames of its kind are written. -/
theorem decodePayload_eq_ok :
    decodePayload kind payload = .ok frame ↔
      frame.kind = kind ∧ encodePayload frame = .ok payload := by
  rw [decodePayload_iff_fields]
  constructor
  · exact encodePayload_of_decodeFields
  · rintro ⟨rfl, h⟩
    exact decodeFields_of_encodePayload h

/-! ## Envelopes -/

/-- Each kind has one code. -/
@[simp] theorem tryFrom_eq_ok {value : UInt8} :
    FrameKind.tryFrom value = .ok kind ↔ value = kind.code := by
  constructor
  · intro h
    unfold FrameKind.tryFrom at h
    split_ifs at h <;> cases h <;> assumption
  · rintro rfl
    cases kind <;> rfl

/-- Twenty bytes hold the fields of a header. -/
theorem exists_header (h : headerBytes ≤ bytes.length) :
    ∃ (start : Bytes 4) (version : Bytes 2) (kind flags : UInt8) (sequence : Bytes 8)
      (length : Bytes 4) (payload : List UInt8), bytes = start.val ++ (version.val ++
        (kind :: flags :: (sequence.val ++ (length.val ++ payload)))) := by
  have hsplit : ∀ (n : Nat) (rest : List UInt8), n ≤ rest.length →
      ∃ (b : Bytes n) (behind : List UInt8), rest = b.val ++ behind ∧
        behind.length = rest.length - n := by
    intro n rest hn
    exact ⟨⟨rest.take n, length_take_of_le hn⟩, rest.drop n,
      (take_append_drop n rest).symm, length_drop⟩
  unfold headerBytes at h
  obtain ⟨start, b1, rfl, h1⟩ := hsplit 4 bytes (by omega)
  obtain ⟨version, b2, rfl, h2⟩ := hsplit 2 b1 (by omega)
  obtain ⟨kind, b3, rfl, h3⟩ := hsplit 1 b2 (by omega)
  obtain ⟨flags, b4, rfl, h4⟩ := hsplit 1 b3 (by omega)
  obtain ⟨sequence, b5, rfl, h5⟩ := hsplit 8 b4 (by omega)
  obtain ⟨length, b6, rfl, -⟩ := hsplit 4 b5 (by omega)
  obtain ⟨k, hkind⟩ := length_eq_one_iff.mp kind.property
  obtain ⟨f, hflags⟩ := length_eq_one_iff.mp flags.property
  refine ⟨start, version, k, f, sequence, length, b6, ?_⟩
  rw [hkind, hflags]
  rfl

/-- The fields of a header are where the reader looks for them. -/
theorem header_fields (start : Bytes 4) (version : Bytes 2) (kind flags : UInt8)
    (sequence : Bytes 8) (length : Bytes 4) (payload : List UInt8)
    (h : bytes = start.val ++ (version.val ++
      (kind :: flags :: (sequence.val ++ (length.val ++ payload))))) :
    slice bytes 0 4 = start.val ∧ slice bytes 4 6 = version.val ∧ bytes.getD 6 0 = kind ∧
      bytes.getD 7 0 = flags ∧ slice bytes 8 16 = sequence.val ∧ slice bytes 16 20 = length.val ∧
      bytes.drop headerBytes = payload ∧ bytes.length = headerBytes + payload.length := by
  obtain ⟨start, hstart⟩ := start
  obtain ⟨version, hversion⟩ := version
  obtain ⟨sequence, hsequence⟩ := sequence
  obtain ⟨length, hlength⟩ := length
  subst h
  simp only [slice, headerBytes]
  refine ⟨?_, ?_, ?_, ?_, ?_, ?_, ?_, ?_⟩
  · simp [hstart]
  · simp [hstart, hversion]
  · simp (disch := omega) only [getD_eq_getElem?_getD, getElem?_append_right, hstart, hversion]
    rfl
  · simp (disch := omega) only [getD_eq_getElem?_getD, getElem?_append_right, hstart, hversion]
    rfl
  · simp (disch := omega) [drop_append, drop_of_length_le, hstart, hversion, hsequence]
  · simp (disch := omega) [drop_append, drop_of_length_le, hstart, hversion]
  · simp (disch := omega) [drop_append, drop_of_length_le, hstart, hversion, hsequence]
  · simp only [length_append, length_cons, hstart, hversion, hsequence, hlength]
    omega

theorem ofBytes_bytes_lt (b : Bytes n) : ofBytes b.val < 256 ^ n := by
  have hlt := ofBytes_lt b.val
  rwa [b.property] at hlt

@[simp] theorem putU16_ofBytes (b : Bytes 2) :
    putU16 (UInt16.ofNat (ofBytes b.val)) = b.val := by
  have hlt := ofBytes_bytes_lt b
  rw [putU16, UInt16.toNat_ofNat_of_lt' hlt, beBytes_ofBytes]

@[simp] theorem putU32_ofBytes (b : Bytes 4) :
    putU32 (UInt32.ofNat (ofBytes b.val)) = b.val := by
  have hlt := ofBytes_bytes_lt b
  rw [putU32, UInt32.toNat_ofNat_of_lt' hlt, beBytes_ofBytes]

@[simp] theorem putU64_ofBytes (b : Bytes 8) :
    putU64 (UInt64.ofNat (ofBytes b.val)) = b.val := by
  have hlt := ofBytes_bytes_lt b
  rw [putU64, UInt64.toNat_ofNat_of_lt' hlt, beBytes_ofBytes]

/-- An envelope that can be written is read back. -/
theorem decodeExact_of_encode {e : Envelope} {b : List UInt8} (h : encode e = .ok b) :
    decodeExact b = .ok e := by
  simp only [encode, bind_eq_ok, rejectIf_eq_ok, pure_eq_ok, not_not] at h
  obtain ⟨payload, hpayload, _, hsize, _, hlt, hb⟩ := h
  obtain ⟨hmagic, hversion, hkind, hflags, hsequence, hlength, hrest, hbytes⟩ :=
    header_fields magic (beBytes 2 protocolVersion.toNat) e.frame.kind.code 0
      (beBytes 8 e.sequence.toNat) (beBytes 4 (UInt32.ofNat payload.length).toNat)
      payload hb.symm
  have hlen : (UInt32.ofNat payload.length).toNat = payload.length :=
    UInt32.toNat_ofNat_of_lt' hlt
  have hversion' : UInt16.ofNat (ofBytes (slice b 4 6)) = protocolVersion := by
    rw [hversion, ofBytes_beBytes protocolVersion.toNat_lt, UInt16.ofNat_toNat]
  have hsequence' : UInt64.ofNat (ofBytes (slice b 8 16)) = e.sequence := by
    rw [hsequence, ofBytes_beBytes e.sequence.toNat_lt, UInt64.ofNat_toNat]
  have hlength' : (UInt32.ofNat (ofBytes (slice b 16 20))).toNat = payload.length := by
    rw [hlength, ofBytes_beBytes (UInt32.toNat_lt _), UInt32.ofNat_toNat, hlen]
  simp only [decodeExact, bind_eq_ok, rejectIf_eq_ok, pure_eq_ok,
    tryFrom_eq_ok, decodePayload_eq_ok, not_not, hmagic, hversion', hkind, hflags, hsequence',
    hlength', hrest, hbytes]
  exact ⟨(), by omega, (), trivial, (), trivial, e.frame.kind, rfl, (), trivial, (), hsize, (),
    by omega, (), trivial, e.frame, ⟨rfl, hpayload⟩, rfl⟩

/-- Bytes that are read as an envelope are how it is written. -/
theorem encode_of_decodeExact {e : Envelope} {b : List UInt8} (h : decodeExact b = .ok e) :
    encode e = .ok b := by
  simp only [decodeExact, bind_eq_ok, rejectIf_eq_ok, pure_eq_ok,
    tryFrom_eq_ok, decodePayload_eq_ok, not_not] at h
  obtain ⟨_, hlong, _, hmagic, _, hversion, kind, hkind, _, hflags, _, hsize, _, -, _, htotal,
    frame, ⟨rfl, hpayload⟩, rfl⟩ := h
  obtain ⟨start, version, kind, flags, sequence, length, payload, hb⟩ :=
    exists_header (Nat.not_lt.mp hlong)
  obtain ⟨hstart', hversion', hkind', hflags', hsequence', hlength', hrest, hbytes⟩ :=
    header_fields start version kind flags sequence length payload hb
  rw [hstart'] at hmagic
  rw [hversion'] at hversion
  rw [hkind'] at hkind
  rw [hflags'] at hflags
  rw [hlength', hbytes] at htotal
  rw [hlength'] at hsize
  rw [hrest] at hpayload
  have hlen : (UInt32.ofNat (ofBytes length.val)).toNat = payload.length := by omega
  have hlt : payload.length < 2 ^ 32 := by
    rw [← hlen]
    exact UInt32.toNat_lt _
  have hlength : UInt32.ofNat payload.length = UInt32.ofNat (ofBytes length.val) := by
    rw [← hlen, UInt32.ofNat_toNat]
  rw [hlen] at hsize
  simp only [encode, bind_eq_ok, rejectIf_eq_ok, pure_eq_ok, not_not]
  refine ⟨payload, hpayload, (), hsize, (), hlt, ?_⟩
  rw [hsequence', hlength, ← hversion, ← hmagic, ← hkind, hb, hflags]
  simp

/-- **Each frame has one form.**  An envelope is written as some bytes exactly if these bytes are
    read as it. -/
theorem encode_iff_decodeExact (e : Envelope) (b : List UInt8) :
    encode e = .ok b ↔ decodeExact b = .ok e := by
  constructor
  · exact decodeExact_of_encode
  · exact encode_of_decodeExact

end Serctl.Remote
