import Serctl.Remote.Session

/-!
# Sessions as a whole

The controller feeds the frames of the helper to a validator one after the other, and tells it
which receipts it has authenticated.  This module says what a whole session looks like up to the
first frame or receipt that the validator rejects.

The state of the validator is a summary of what it has accepted so far; `Tracks` says of what.
-/

namespace Serctl.Remote.HelperSessionValidator

open Lib Lib.Guard List

/-! ## Sessions -/

/-- What the controller does with a validator. -/
inductive Call where
  | validate (envelope : Envelope)
  | authenticateReceipt (receiptBytes : List UInt8) (terminal : AuthenticatedTerminal)
  deriving DecidableEq, Repr

/-- What a call makes of the validator. -/
def call (v : HelperSessionValidator) : Call → Except ProtocolError HelperSessionValidator
  | .validate envelope => v.validate envelope
  | .authenticateReceipt receiptBytes terminal => v.authenticateReceipt receiptBytes terminal

/-- The calls before the first one that is rejected. -/
def accepted : HelperSessionValidator → List Call → List Call
  | _, [] => []
  | v, c :: calls => match v.call c with
    | .ok v' => c :: accepted v' calls
    | .error _ => []

/-- The frames of a session. -/
def frames (session : List Call) : List Envelope :=
  session.filterMap fun
    | .validate envelope => some envelope
    | .authenticateReceipt _ _ => none

/-- What the frames of a session carry of one stream. -/
def outputOf (payload : Frame → List UInt8) (session : List Call) : List UInt8 :=
  (frames session).flatMap fun envelope => payload envelope.frame

/-- Standard output in a frame. -/
def stdoutPayload : Frame → List UInt8
  | .stdout output => output.data
  | _ => []

/-- Standard error in a frame. -/
def stderrPayload : Frame → List UInt8
  | .stderr output => output.data
  | _ => []

/-- All standard output. -/
abbrev stdoutOf (session : List Call) : List UInt8 := outputOf stdoutPayload session

/-- All standard error. -/
abbrev stderrOf (session : List Call) : List UInt8 := outputOf stderrPayload session

/-- Behind such a frame there is nothing. -/
def isLast : Frame → Bool
  | .exit _ => true
  | .error _ => true
  | _ => false

/-- What a session looks like, and what each of its frames has to do with the session before it. -/
structure WellFormed (maxOutputBytes : UInt64) (session : List Call) : Prop where
  /-- The frames are numbered from zero. -/
  numbered : ∀ (i : Nat) (envelope : Envelope), (frames session)[i]? = some envelope →
    envelope.sequence.toNat = i
  /-- The first frame is a greeting of a helper that does not run as root. -/
  greeting : ∀ envelope, (frames session).head? = some envelope →
    ∃ hello, envelope.frame = .hello hello ∧ hello.effectiveUid ≠ 0
  /-- The output has no gaps and no repetitions. -/
  stdout_contiguous : ∀ before n output later,
    session = before ++ .validate ⟨n, .stdout output⟩ :: later →
    output.offset.toNat = (stdoutOf before).length
  stderr_contiguous : ∀ before n output later,
    session = before ++ .validate ⟨n, .stderr output⟩ :: later →
    output.offset.toNat = (stderrOf before).length
  /-- The output stays within its budget. -/
  budget : (stdoutOf session).length + (stderrOf session).length ≤ maxOutputBytes.toNat
  /-- A heartbeat carries the totals so far, and heartbeats are in order. -/
  heartbeat : ∀ before n beat later,
    session = before ++ .validate ⟨n, .heartbeat beat⟩ :: later →
    beat.stdoutBytes.toNat = (stdoutOf before).length ∧
    beat.stderrBytes.toNat = (stderrOf before).length ∧
    ∀ m earlier, .validate ⟨m, .heartbeat earlier⟩ ∈ before →
      earlier.ordinal < beat.ordinal ∧ earlier.elapsedMs ≤ beat.elapsedMs
  /-- Before an exit come a receipt and its authentication with what the exit says. -/
  exit : ∀ before n exit later, session = before ++ .validate ⟨n, .exit exit⟩ :: later →
    ∃ earlier m receipt receiptBytes, before = earlier ++ [.validate ⟨m, .receipt receipt⟩,
      .authenticateReceipt receiptBytes ⟨exit.outcome, exit.completedUnixMs⟩] ∧
      Sha256.digest receiptBytes = Sha256.digest receipt.bytes
  /-- An exit and an error are the end. -/
  last : ∀ before n frame later, session = before ++ .validate ⟨n, frame⟩ :: later →
    isLast frame = true → later = []

/-! ## What is accepted in which state -/

/-- A frame that the validator of a job accepts, and the state after it, but for its number. -/
inductive Admitted (maxOutputBytes : UInt64) (v : HelperSessionValidator) :
    Frame → HelperSessionValidator → Prop where
  | hello (hello : HelloFrame) : v.phase = .hello → hello.effectiveUid ≠ 0 →
      Admitted maxOutputBytes v (.hello hello) { v with phase := .streaming }
  | stdout (output : OutputFrame) (offset : UInt64) : v.phase = .streaming →
      output.offset = v.stdoutOffset →
      offset.toNat = v.stdoutOffset.toNat + output.data.length →
      offset.toNat + v.stderrOffset.toNat ≤ maxOutputBytes.toNat →
      Admitted maxOutputBytes v (.stdout output) { v with stdoutOffset := offset }
  | stderr (output : OutputFrame) (offset : UInt64) : v.phase = .streaming →
      output.offset = v.stderrOffset →
      offset.toNat = v.stderrOffset.toNat + output.data.length →
      v.stdoutOffset.toNat + offset.toNat ≤ maxOutputBytes.toNat →
      Admitted maxOutputBytes v (.stderr output) { v with stderrOffset := offset }
  | heartbeat (beat : HeartbeatFrame) : v.phase = .streaming →
      v.heartbeatOrdinal < beat.ordinal → v.heartbeatElapsedMs ≤ beat.elapsedMs →
      beat.stdoutBytes = v.stdoutOffset → beat.stderrBytes = v.stderrOffset →
      Admitted maxOutputBytes v (.heartbeat beat)
        { v with heartbeatOrdinal := beat.ordinal, heartbeatElapsedMs := beat.elapsedMs }
  | receipt (receipt : ReceiptFrame) : v.phase = .streaming →
      Admitted maxOutputBytes v (.receipt receipt)
        { v with
          pendingReceiptDigest := some (Sha256.digest receipt.bytes)
          phase := .receiptAuthenticationPending }
  | error (error : ErrorFrame) : v.phase = .streaming →
      Admitted maxOutputBytes v (.error error) { v with phase := .terminal }
  | exit (exit : ExitFrame) : v.phase = .receiptAuthenticated →
      v.authenticatedTerminal = some ⟨exit.outcome, exit.completedUnixMs⟩ →
      Admitted maxOutputBytes v (.exit exit) { v with phase := .terminal }

variable {maxOutputBytes : UInt64} {v v' : HelperSessionValidator} {frame : Frame}

theorem advanceOutputOffset_eq_ok {error : String} {expected offset : UInt64}
    {output : OutputFrame} (h : advanceOutputOffset error expected output = .ok offset) :
    output.offset = expected ∧ offset.toNat = expected.toNat + output.data.length := by
  simp only [advanceOutputOffset, bind_eq_ok, rejectIf_eq_ok, pure_eq_ok, not_not] at h
  obtain ⟨_, hsame, _, hfits, rfl⟩ := h
  refine ⟨hsame, ?_⟩
  rw [UInt64.toNat_add, UInt64.toNat_ofNat', Nat.mod_eq_of_lt (a := output.data.length) (by omega),
    Nat.mod_eq_of_lt hfits]

/-- A sum that stays at the top would be over the budget. -/
theorem validateOutputBudget_eq_ok (hmode : v.mode = .job maxOutputBytes)
    (hmax : maxOutputBytes.toNat < 2 ^ 64 - 1) (h : v.validateOutputBudget = .ok ()) :
    v.stdoutOffset.toNat + v.stderrOffset.toNat ≤ maxOutputBytes.toNat := by
  simp only [validateOutputBudget, hmode, rejectIf_eq_ok] at h
  rw [gt_iff_lt, UInt64.lt_iff_toNat_lt, toNat_saturatingAdd] at h
  omega

/-- One of the streams: the two cases differ only in the offset they move. -/
theorem acceptOutput_eq_ok {error : String} {offset : UInt64}
    {set : UInt64 → HelperSessionValidator} {output : OutputFrame}
    (h : v.acceptOutput error offset set output = .ok v')
    (hmode : ∀ o, (set o).mode = .job maxOutputBytes) (hmax : maxOutputBytes.toNat < 2 ^ 64 - 1) :
    ∃ next, v' = set next ∧ output.offset = offset ∧
      next.toNat = offset.toNat + output.data.length ∧
      (set next).stdoutOffset.toNat + (set next).stderrOffset.toNat ≤ maxOutputBytes.toNat := by
  simp only [acceptOutput, bind_eq_ok, pure_eq_ok] at h
  obtain ⟨_, -, _, -, next, hadvance, _, hbudget, rfl⟩ := h
  obtain ⟨hoffset, hnext⟩ := advanceOutputOffset_eq_ok hadvance
  exact ⟨next, rfl, hoffset, hnext, validateOutputBudget_eq_ok (hmode next) hmax hbudget⟩

/-- **What is accepted in which state.** -/
theorem admitted_of_transition (hmode : v.mode = .job maxOutputBytes)
    (hmax : maxOutputBytes.toNat < 2 ^ 64 - 1) (h : v.transition frame = .ok v') :
    Admitted maxOutputBytes v frame v' := by
  unfold transition at h
  split at h
  case h_1 hello hphase =>
    simp only [acceptHello, bind_eq_ok, rejectIf_eq_ok, pure_eq_ok] at h
    obtain ⟨_, huid, _, -, rfl⟩ := h
    exact .hello hello hphase huid
  case h_2 output hphase =>
    unfold acceptStdout at h
    obtain ⟨offset, rfl, hoffset, hnext, hbudget⟩ := acceptOutput_eq_ok h (fun _ => hmode) hmax
    exact .stdout output offset hphase hoffset hnext hbudget
  case h_3 output hphase =>
    unfold acceptStderr at h
    obtain ⟨offset, rfl, hoffset, hnext, hbudget⟩ := acceptOutput_eq_ok h (fun _ => hmode) hmax
    exact .stderr output offset hphase hoffset hnext hbudget
  case h_4 beat hphase =>
    simp only [acceptHeartbeat, bind_eq_ok, rejectIf_eq_ok, pure_eq_ok, not_or, not_not,
      UInt64.not_le, UInt64.not_lt] at h
    obtain ⟨_, -, _, -, _, ⟨hordinal, helapsed, hstdout, hstderr⟩, rfl⟩ := h
    exact .heartbeat beat hphase hordinal helapsed hstdout hstderr
  case h_5 receipt hphase =>
    simp only [acceptReceipt, bind_eq_ok, pure_eq_ok] at h
    obtain ⟨_, -, rfl⟩ := h
    exact .receipt receipt hphase
  case h_6 error hphase =>
    simp only [acceptError, bind_eq_ok, pure_eq_ok] at h
    obtain ⟨_, -, rfl⟩ := h
    exact .error error hphase
  case h_7 exit hphase =>
    simp only [acceptExit, bind_eq_ok, rejectIf_eq_ok, pure_eq_ok, not_not] at h
    obtain ⟨_, -, _, hterminal, rfl⟩ := h
    exact .exit exit hphase hterminal
  case h_8 => cases h

theorem validate_eq_ok {n : UInt64} (h : v.validate ⟨n, frame⟩ = .ok v') :
    n = v.nextSequence ∧ ∃ next, v.transition frame = .ok next ∧
      v' = { next with nextSequence := v.nextSequence + 1 } ∧
      (v.nextSequence + 1).toNat = v.nextSequence.toNat + 1 := by
  simp only [validate, validateSequence, Remote.nextSequence, bind_eq_ok, rejectIf_eq_ok,
    pure_eq_ok, not_not] at h
  obtain ⟨_, hnumber, _, ⟨_, hlast, rfl⟩, next, htransition, rfl⟩ := h
  refine ⟨hnumber.symm, next, htransition, rfl, ?_⟩
  have hlt := v.nextSequence.toNat_lt
  rw [UInt64.toNat_add, UInt64.toNat_one, Nat.mod_eq_of_lt (by omega)]

variable {receiptBytes : List UInt8} {terminal : AuthenticatedTerminal}
  {next : HelperSessionValidator}

theorem authenticateReceipt_eq_ok (h : v.authenticateReceipt receiptBytes terminal = .ok v') :
    v.phase = .receiptAuthenticationPending ∧
      v.pendingReceiptDigest = some (Sha256.digest receiptBytes) ∧
      v' = { v with
        pendingReceiptDigest := none
        authenticatedTerminal := some terminal
        phase := .receiptAuthenticated } := by
  simp only [authenticateReceipt, bind_eq_ok, rejectIf_eq_ok, pure_eq_ok, not_not] at h
  obtain ⟨_, hphase, _, hdigest, rfl⟩ := h
  exact ⟨hphase, hdigest, rfl⟩

/-! ## The state and the session so far -/

/-- What the state says about the session that has led to it. -/
structure Tracks (maxOutputBytes : UInt64) (session : List Call) (v : HelperSessionValidator) :
    Prop where
  mode : v.mode = .job maxOutputBytes
  sequence : v.nextSequence.toNat = (frames session).length
  stdout : v.stdoutOffset.toNat = (stdoutOf session).length
  stderr : v.stderrOffset.toNat = (stderrOf session).length
  budget : v.stdoutOffset.toNat + v.stderrOffset.toNat ≤ maxOutputBytes.toNat
  heartbeats : ∀ m beat, .validate ⟨m, .heartbeat beat⟩ ∈ session →
    beat.ordinal ≤ v.heartbeatOrdinal ∧ beat.elapsedMs ≤ v.heartbeatElapsedMs
  started : v.phase = .hello ↔ frames session = []
  ended : (∃ envelope ∈ frames session, isLast envelope.frame = true) → v.phase = .terminal
  pending : v.phase = .receiptAuthenticationPending → ∃ earlier m receipt,
    session = earlier ++ [.validate ⟨m, .receipt receipt⟩] ∧
      v.pendingReceiptDigest = some (Sha256.digest receipt.bytes)
  authenticated : v.phase = .receiptAuthenticated → ∃ earlier m receipt receiptBytes terminal,
    session = earlier ++
        [.validate ⟨m, .receipt receipt⟩, .authenticateReceipt receiptBytes terminal] ∧
      Sha256.digest receiptBytes = Sha256.digest receipt.bytes ∧
      v.authenticatedTerminal = some terminal

variable {session : List Call} {n : UInt64}

@[simp] theorem frames_validate (envelope : Envelope) :
    frames (session ++ [.validate envelope]) = frames session ++ [envelope] := by
  simp [frames]

@[simp] theorem frames_authenticateReceipt (receiptBytes : List UInt8)
    (terminal : AuthenticatedTerminal) :
    frames (session ++ [.authenticateReceipt receiptBytes terminal]) = frames session := by
  simp [frames]

@[simp] theorem outputOf_validate (payload : Frame → List UInt8) :
    outputOf payload (session ++ [.validate ⟨n, frame⟩]) =
      outputOf payload session ++ payload frame := by
  simp [outputOf]

@[simp] theorem outputOf_authenticateReceipt (payload : Frame → List UInt8)
    (receiptBytes : List UInt8) (terminal : AuthenticatedTerminal) :
    outputOf payload (session ++ [.authenticateReceipt receiptBytes terminal]) =
      outputOf payload session := by
  simp [outputOf]

theorem tracks_new (jobId : JobId) (maxOutputBytes : UInt64) :
    Tracks maxOutputBytes [] (new jobId (.job maxOutputBytes)) where
  mode := rfl
  sequence := rfl
  stdout := rfl
  stderr := rfl
  budget := Nat.zero_le _
  heartbeats _ _ h := nomatch h
  started := ⟨fun _ => rfl, fun _ => rfl⟩
  ended h := by
    obtain ⟨_, hmem, -⟩ := h
    cases hmem
  pending h := nomatch h
  authenticated h := nomatch h

/-- The frames of a session with one more. -/
theorem mem_frames_validate {envelope : Envelope} :
    (∃ e ∈ frames (session ++ [.validate envelope]), isLast e.frame = true) ↔
      (∃ e ∈ frames session, isLast e.frame = true) ∨ isLast envelope.frame = true := by
  simp only [frames_validate, mem_append, mem_singleton]
  constructor
  · rintro ⟨e, he | rfl, hlast⟩
    · exact .inl ⟨e, he, hlast⟩
    · exact .inr hlast
  · rintro (⟨e, he, hlast⟩ | hlast)
    · exact ⟨e, .inl he, hlast⟩
    · exact ⟨envelope, .inr rfl, hlast⟩

/-- A frame is accepted only if nothing has ended the session. -/
theorem Tracks.not_ended (h : Tracks maxOutputBytes session v)
    (hadmitted : Admitted maxOutputBytes v frame next) :
    ¬∃ envelope ∈ frames session, isLast envelope.frame = true := by
  intro hended
  have hphase := h.ended hended
  cases hadmitted <;> simp_all

/-- **One more frame.** -/
theorem tracks_validate (h : Tracks maxOutputBytes session v)
    (hadmitted : Admitted maxOutputBytes v frame next) {number : UInt64}
    (hnumber : number.toNat = v.nextSequence.toNat + 1) :
    Tracks maxOutputBytes (session ++ [.validate ⟨n, frame⟩])
      { next with nextSequence := number } := by
  have hended := h.not_ended hadmitted
  have hsome : frames session ++ [⟨n, frame⟩] ≠ [] := by simp
  constructor
  case mode =>
    cases hadmitted <;> exact h.mode
  case sequence =>
    rw [frames_validate, length_append, ← h.sequence]
    exact hnumber
  case stdout =>
    rw [stdoutOf, outputOf_validate, length_append, ← h.stdout]
    cases hadmitted with
    | stdout output offset _ _ hnext _ => exact hnext
    | _ => rfl
  case stderr =>
    rw [stderrOf, outputOf_validate, length_append, ← h.stderr]
    cases hadmitted with
    | stderr output offset _ _ hnext _ => exact hnext
    | _ => rfl
  case budget =>
    cases hadmitted with
    | stdout output offset _ _ _ hbudget => exact hbudget
    | stderr output offset _ _ _ hbudget => exact hbudget
    | _ => exact h.budget
  case heartbeats =>
    intro m beat hmem
    rw [mem_append, mem_singleton] at hmem
    rcases hmem with hold | hnew
    · obtain ⟨hordinal, helapsed⟩ := h.heartbeats m beat hold
      cases hadmitted with
      | heartbeat later _ hmore hlonger _ _ =>
        exact ⟨UInt64.le_of_lt (UInt64.lt_of_le_of_lt hordinal hmore),
          UInt64.le_trans helapsed hlonger⟩
      | _ => exact ⟨hordinal, helapsed⟩
    · cases hnew
      cases hadmitted with
      | heartbeat => exact ⟨UInt64.le_refl _, UInt64.le_refl _⟩
  case started =>
    rw [frames_validate]
    constructor
    · intro hphase
      cases hadmitted <;> simp_all
    · intro hnil
      exact absurd hnil hsome
  case ended =>
    rw [mem_frames_validate]
    rintro (hold | hlast)
    · exact absurd hold hended
    · cases hadmitted with
      | error => rfl
      | exit => rfl
      | _ => cases hlast
  case pending =>
    intro hphase
    cases hadmitted with
    | receipt receipt => exact ⟨session, n, receipt, rfl, rfl⟩
    | _ => simp_all
  case authenticated =>
    intro hphase
    cases hadmitted <;> simp_all

/-- **A receipt is authenticated** right after it has arrived. -/
theorem tracks_authenticateReceipt (h : Tracks maxOutputBytes session v)
    (hcall : v.authenticateReceipt receiptBytes terminal = .ok v') :
    Tracks maxOutputBytes (session ++ [.authenticateReceipt receiptBytes terminal]) v' := by
  obtain ⟨hphase, hdigest, rfl⟩ := authenticateReceipt_eq_ok hcall
  obtain ⟨earlier, m, receipt, hsession, hpending⟩ := h.pending hphase
  constructor
  case mode => exact h.mode
  case sequence => rw [frames_authenticateReceipt]; exact h.sequence
  case stdout => rw [stdoutOf, outputOf_authenticateReceipt]; exact h.stdout
  case stderr => rw [stderrOf, outputOf_authenticateReceipt]; exact h.stderr
  case budget => exact h.budget
  case heartbeats =>
    intro m beat hmem
    rw [mem_append, mem_singleton] at hmem
    rcases hmem with hold | hnew
    · exact h.heartbeats m beat hold
    · cases hnew
  case started =>
    rw [frames_authenticateReceipt, ← h.started, hphase]
    exact ⟨nofun, nofun⟩
  case ended =>
    rw [frames_authenticateReceipt]
    intro hended
    rw [h.ended hended] at hphase
    cases hphase
  case pending => exact nofun
  case authenticated =>
    intro _
    refine ⟨earlier, m, receipt, receiptBytes, terminal, ?_, ?_, rfl⟩
    · rw [hsession, append_assoc]
      rfl
    · rw [hdigest, Option.some.injEq] at hpending
      exact hpending

/-! ## Whole sessions -/

/-- A place in a list with one more element is the last one, or it is in the list. -/
theorem split_concat {α : Type} {as before later : List α} {a b : α}
    (h : as ++ [a] = before ++ b :: later) :
    (before = as ∧ b = a ∧ later = []) ∨
      ∃ later', later = later' ++ [a] ∧ as = before ++ b :: later' := by
  rcases eq_nil_or_concat' later with rfl | ⟨later', last, rfl⟩
  · obtain ⟨rfl, hlast⟩ := append_inj' h rfl
    cases hlast
    exact .inl ⟨rfl, rfl, rfl⟩
  · have h' : as ++ [a] = (before ++ b :: later') ++ [last] := by simpa using h
    obtain ⟨rfl, hlast⟩ := append_inj' h' rfl
    cases hlast
    exact .inr ⟨later', rfl, rfl⟩

theorem wellFormed_nil : WellFormed maxOutputBytes [] where
  numbered _ _ h := by cases h
  greeting _ h := by cases h
  stdout_contiguous _ _ _ _ h := by simp at h
  stderr_contiguous _ _ _ _ h := by simp at h
  budget := Nat.zero_le _
  heartbeat _ _ _ _ h := by simp at h
  exit _ _ _ _ h := by simp at h
  last _ _ _ _ h := by simp at h

/-- A frame that is accepted fits what was accepted before. -/
theorem wellFormed_validate (hsession : WellFormed maxOutputBytes session)
    (h : Tracks maxOutputBytes session v) (hadmitted : Admitted maxOutputBytes v frame next)
    (hafter : Tracks maxOutputBytes (session ++ [.validate ⟨v.nextSequence, frame⟩]) v') :
    WellFormed maxOutputBytes (session ++ [.validate ⟨v.nextSequence, frame⟩]) := by
  have hended := h.not_ended hadmitted
  constructor
  case numbered =>
    intro i envelope hi
    rw [frames_validate, getElem?_append] at hi
    split at hi
    · exact hsession.numbered i envelope hi
    · have hlast : i = (frames session).length := by
        have hlt := (List.getElem?_eq_some_iff.mp hi).1
        rw [length_singleton] at hlt
        omega
      rw [hlast, Nat.sub_self] at hi
      cases hi
      rw [hlast]
      exact h.sequence
  case greeting =>
    intro envelope hhead
    rw [frames_validate] at hhead
    cases hframes : frames session with
    | cons first rest =>
      apply hsession.greeting envelope
      rw [hframes] at hhead ⊢
      exact hhead
    | nil =>
      rw [hframes] at hhead
      cases hhead
      have hphase := h.started.mpr hframes
      cases hadmitted with
      | hello hello _ huid => exact ⟨hello, rfl, huid⟩
      | _ => simp_all
  case stdout_contiguous =>
    intro before n output later hsplit
    rcases split_concat hsplit with ⟨rfl, hcall, rfl⟩ | ⟨later', rfl, hold⟩
    · cases hcall
      cases hadmitted with
      | stdout _ offset _ hoffset _ _ =>
        rw [hoffset]
        exact h.stdout
    · exact hsession.stdout_contiguous before n output later' hold
  case stderr_contiguous =>
    intro before n output later hsplit
    rcases split_concat hsplit with ⟨rfl, hcall, rfl⟩ | ⟨later', rfl, hold⟩
    · cases hcall
      cases hadmitted with
      | stderr _ offset _ hoffset _ _ =>
        rw [hoffset]
        exact h.stderr
    · exact hsession.stderr_contiguous before n output later' hold
  case budget =>
    rw [← hafter.stdout, ← hafter.stderr]
    exact hafter.budget
  case heartbeat =>
    intro before n beat later hsplit
    rcases split_concat hsplit with ⟨rfl, hcall, rfl⟩ | ⟨later', rfl, hold⟩
    · cases hcall
      cases hadmitted with
      | heartbeat _ _ hordinal helapsed hstdout hstderr =>
        refine ⟨by rw [hstdout]; exact h.stdout, by rw [hstderr]; exact h.stderr, ?_⟩
        intro m earlier hmem
        obtain ⟨hless, hshorter⟩ := h.heartbeats m earlier hmem
        exact ⟨UInt64.lt_of_le_of_lt hless hordinal, UInt64.le_trans hshorter helapsed⟩
    · exact hsession.heartbeat before n beat later' hold
  case exit =>
    intro before n exit later hsplit
    rcases split_concat hsplit with ⟨rfl, hcall, rfl⟩ | ⟨later', rfl, hold⟩
    · cases hcall
      cases hadmitted with
      | exit _ hphase hterminal =>
        obtain ⟨earlier, m, receipt, receiptBytes, terminal, rfl, hdigest, hauthenticated⟩ :=
          h.authenticated hphase
        rw [hterminal, Option.some.injEq] at hauthenticated
        subst hauthenticated
        exact ⟨earlier, m, receipt, receiptBytes, rfl, hdigest⟩
    · exact hsession.exit before n exit later' hold
  case last =>
    intro before n frame later hsplit hlast
    rcases split_concat hsplit with ⟨-, -, hnil⟩ | ⟨later', rfl, hold⟩
    · exact hnil
    · -- the session would have ended before this frame
      refine absurd ⟨⟨n, frame⟩, ?_, hlast⟩ hended
      rw [hold]
      simp [frames]

/-- An authentication concerns no frame. -/
theorem wellFormed_authenticateReceipt (hsession : WellFormed maxOutputBytes session)
    (h : Tracks maxOutputBytes session v) (hphase : v.phase = .receiptAuthenticationPending) :
    WellFormed maxOutputBytes (session ++ [.authenticateReceipt receiptBytes terminal]) := by
  -- every frame is one of the session before
  have hframe : ∀ {before later : List Call} {n : UInt64} {frame : Frame},
      session ++ [.authenticateReceipt receiptBytes terminal] =
        before ++ .validate ⟨n, frame⟩ :: later →
      ∃ later', session = before ++ .validate ⟨n, frame⟩ :: later' := by
    intro before later n frame hsplit
    rcases split_concat hsplit with ⟨-, hcall, -⟩ | ⟨later', -, hold⟩
    · cases hcall
    · exact ⟨later', hold⟩
  constructor
  case numbered =>
    rw [frames_authenticateReceipt]
    exact hsession.numbered
  case greeting =>
    rw [frames_authenticateReceipt]
    exact hsession.greeting
  case stdout_contiguous =>
    intro before n output later hsplit
    obtain ⟨later', hold⟩ := hframe hsplit
    exact hsession.stdout_contiguous before n output later' hold
  case stderr_contiguous =>
    intro before n output later hsplit
    obtain ⟨later', hold⟩ := hframe hsplit
    exact hsession.stderr_contiguous before n output later' hold
  case budget =>
    rw [stdoutOf, stderrOf, outputOf_authenticateReceipt, outputOf_authenticateReceipt]
    exact hsession.budget
  case heartbeat =>
    intro before n beat later hsplit
    obtain ⟨later', hold⟩ := hframe hsplit
    exact hsession.heartbeat before n beat later' hold
  case exit =>
    intro before n exit later hsplit
    obtain ⟨later', hold⟩ := hframe hsplit
    exact hsession.exit before n exit later' hold
  case last =>
    intro before n frame later hsplit hlast
    obtain ⟨later', hold⟩ := hframe hsplit
    have hphase' : v.phase = .terminal := by
      apply h.ended
      refine ⟨⟨n, frame⟩, ?_, hlast⟩
      rw [hold]
      simp [frames]
    rw [hphase] at hphase'
    cases hphase'

section

variable (hmax : maxOutputBytes.toNat < 2 ^ 64 - 1) (hsession : WellFormed maxOutputBytes session)
    (h : Tracks maxOutputBytes session v)

include hmax hsession h

/-- **One step.** -/
theorem tracks_call {c : Call} (hcall : v.call c = .ok v') :
    WellFormed maxOutputBytes (session ++ [c]) ∧ Tracks maxOutputBytes (session ++ [c]) v' := by
  cases c with
  | validate envelope =>
    obtain ⟨n, frame⟩ := envelope
    obtain ⟨rfl, next, htransition, rfl, hnumber⟩ := validate_eq_ok hcall
    have hadmitted := admitted_of_transition h.mode hmax htransition
    have hafter := tracks_validate (n := v.nextSequence) h hadmitted hnumber
    exact ⟨wellFormed_validate hsession h hadmitted hafter, hafter⟩
  | authenticateReceipt receiptBytes terminal =>
    have hphase := (authenticateReceipt_eq_ok hcall).1
    exact ⟨wellFormed_authenticateReceipt hsession h hphase,
      tracks_authenticateReceipt h hcall⟩

theorem wellFormed_accepted
    (calls : List Call) : WellFormed maxOutputBytes (session ++ v.accepted calls) := by
  induction calls generalizing session v with
  | nil => simpa [accepted] using hsession
  | cons c calls ih =>
    unfold accepted
    split
    · next v' hcall =>
      obtain ⟨hsession', h'⟩ := tracks_call hmax hsession h hcall
      have hrest := ih hsession' h'
      rwa [append_assoc] at hrest
    · simpa using hsession

end

/-- **Whole sessions.**  Whatever the validator of a job is fed with, what it accepts before the
    first rejection is a well-formed session. -/
theorem accepted_session_well_formed (jobId : JobId) (maxOutputBytes : UInt64)
    (v : HelperSessionValidator) (h : forJob jobId maxOutputBytes = .ok v) (calls : List Call) :
    WellFormed maxOutputBytes (v.accepted calls) := by
  simp only [forJob, bind_eq_ok, rejectIf_eq_ok, pure_eq_ok, not_or] at h
  obtain ⟨_, ⟨-, hlimit⟩, rfl⟩ := h
  have hmax : maxOutputBytes.toNat < 2 ^ 64 - 1 := by
    rw [gt_iff_lt, UInt64.not_lt, UInt64.le_iff_toNat_le] at hlimit
    have hbound : Remote.maxOutputBytes.toNat = 67108864 := by decide
    omega
  exact wellFormed_accepted hmax wellFormed_nil (tracks_new jobId maxOutputBytes) calls

/-- A job that says a word and stops; its last call is rejected. -/
def shortSession : List Call :=
  [.validate ⟨0, .hello ⟨4096, 0, 1000⟩⟩,
    .validate ⟨1, .stdout ⟨Bytes.zero 16, 0, [104, 105]⟩⟩,
    .validate ⟨2, .heartbeat ⟨Bytes.zero 16, 1, 20, 2, 0⟩⟩,
    .validate ⟨3, .receipt ⟨Bytes.zero 16, [1]⟩⟩,
    .authenticateReceipt [1] ⟨.exited 0, 30⟩,
    .validate ⟨4, .exit ⟨Bytes.zero 16, .exited 0, 30⟩⟩,
    .authenticateReceipt [1] ⟨.cancelled, 30⟩]

theorem short_session_accepted :
    ∃ v, forJob (Bytes.zero 16) 1024 = .ok v ∧
      v.accepted shortSession = shortSession.take 6 ∧
      WellFormed 1024 (v.accepted shortSession) :=
  ⟨_, rfl, by decide +kernel,
    accepted_session_well_formed (Bytes.zero 16) 1024 _ rfl shortSession⟩

end Serctl.Remote.HelperSessionValidator
