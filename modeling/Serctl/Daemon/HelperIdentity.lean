import Serctl.Daemon.Audit
import Serctl.Transfer.Protocol

/-!
# The identity of a helper

A client may pin the native helper that its transfer is to use: by name, size, digest and version.
The daemon checks what the client expects, and the transfer protocol checks what a helper says of
itself.  The two checks are separate code; both take the version apart, and they accept the same
identities.
-/

namespace Serctl.Daemon

open Lib Lib.Guard Ipc Transfer List Lib.Text

/-! ## The check -/

/-- What a client expects of the helper, checked before a transfer is set up. -/
def validateExpectedIdentity (expected : ExpectedNativeHelperIdentity) : Except Error Unit := do
  ensure (expected.name = Transfer.helperBinaryName) "expected native helper name mismatch"
  ensure (1 ≤ expected.binarySize ∧ expected.binarySize ≤ Transfer.maxHelperBinaryBytes.toNat)
    "expected native helper binary size is invalid"
  ensure (isLowerHex expected.sha256 32 = true)
    "expected native helper SHA-256 must contain 64 lowercase hex characters"
  ensure (expected.version ≠ "" ∧ byteLen expected.version ≤ Transfer.maxHelperVersionBytes ∧
      expected.version.toList.all (fun c => c.toNat < 128) = true ∧
      expected.version.toList.any Transfer.isAsciiControl = false)
    "expected native helper version identity is invalid"
  let (release, commit) ← orBail (Transfer.releaseAndCommit expected.version)
    "expected native helper version identity grammar mismatch"
  ensure (release ≠ [] ∧ release.length ≤ 64 ∧
      release.all (fun c => Transfer.isAsciiAlphanumeric c || c == '.' || c == '-') = true)
    "expected native helper release version is invalid"
  ensure ((Transfer.cleanCommit commit).length = 12 ∧
      (Transfer.cleanCommit commit).all Transfer.isLowerHexDigit = true)
    "expected native helper commit identity is invalid"

/-! ## Versions of helpers -/

/-- The parts of a version: a release, a commit, and the mark of a build from changed sources. -/
@[ext] structure HelperVersion where
  release : List Char
  commit : List Char
  dirty : Bool
  release_valid : release ≠ [] ∧ release.length ≤ 64 ∧
    release.all (fun c => isAsciiAlphanumeric c || c == '.' || c == '-') = true
  commit_valid : commit.length = 12 ∧ commit.all isLowerHexDigit = true

/-- The mark of a build from changed sources. -/
def dirtyMark (dirty : Bool) : List Char := if dirty then "-dirty".toList else []

/-- A version as it is written. -/
def versionText (release commit : List Char) : String :=
  String.ofList ("serctl-xfer ".toList ++ (release ++ " (git ".toList ++ commit ++
    "; transfer protocol v1)".toList))

/-- How a version is written. -/
def HelperVersion.text (v : HelperVersion) : String :=
  versionText v.release (v.commit ++ dirtyMark v.dirty)

/-- What is found in front of a separator and behind it makes up the text. -/
theorem splitOnce_sound {separator : List Char} : ∀ {cs before behind : List Char},
    splitOnce separator cs = some (before, behind) → cs = before ++ separator ++ behind := by
  intro cs
  induction cs with
  | nil => simp [splitOnce]
  | cons c cs ih =>
    intro before behind h
    unfold splitOnce at h
    split at h
    case h_1 rest hrest =>
      obtain ⟨_, hcs, hsep⟩ := dropPrefix?_eq_some_iff.mp hrest
      cases h
      rw [hcs, eq_of_beq hsep, nil_append]
    case h_2 =>
      obtain ⟨⟨before, behind⟩, htail, heq⟩ := Option.map_eq_some_iff.mp h
      cases heq
      rw [ih htail]
      rfl

/-- A part without the first character of the separator is found as it is. -/
theorem splitOnce_complete {s : Char} {separator behind : List Char} : ∀ {before : List Char},
    s ∉ before →
      splitOnce (s :: separator) (before ++ s :: separator ++ behind) = some (before, behind) := by
  intro before
  induction before with
  | nil =>
    intro _
    have hdrop : (s :: (separator ++ behind)).dropPrefix? (s :: separator) = some behind :=
      dropPrefix?_eq_some_iff.mpr ⟨s :: separator, rfl, beq_self_eq_true _⟩
    simp [splitOnce, hdrop]
  | cons c before ih =>
    intro h
    obtain ⟨hc, hbefore⟩ := not_or.mp (mt mem_cons.mpr h)
    have hskip : (c :: (before ++ s :: separator ++ behind)).dropPrefix? (s :: separator) =
        none := by
      simp [dropPrefix?, Ne.symm hc]
    rw [cons_append, cons_append, splitOnce, hskip, ih hbefore]
    rfl

/-- A release without a blank is found in one text only. -/
theorem releaseAndCommit_eq_some {version : String} {release commit : List Char}
    (hrelease : ' ' ∉ release) :
    releaseAndCommit version = some (release, commit) ↔ version = versionText release commit := by
  have hname : (helperBinaryName ++ " ").toList = "serctl-xfer ".toList := by decide
  unfold releaseAndCommit versionText
  simp only [← String.toList_inj, String.toList_ofList, hname, Option.bind_eq_some_iff,
    dropPrefix?_eq_some_iff, dropSuffix?_eq_some_iff, beq_iff_eq]
  constructor
  · rintro ⟨_, ⟨_, hversion, rfl⟩, body, ⟨_, rfl, rfl⟩, hbody⟩
    rw [hversion, splitOnce_sound hbody]
  · intro hversion
    exact ⟨_, ⟨_, hversion, rfl⟩, _, ⟨_, rfl, rfl⟩, splitOnce_complete hrelease⟩

theorem exists_dirtyMark (commit : List Char) :
    ∃ dirty, commit = cleanCommit commit ++ dirtyMark dirty := by
  unfold cleanCommit
  cases hdrop : commit.dropSuffix? "-dirty".toList with
  | none => exact ⟨false, (append_nil _).symm⟩
  | some digits =>
    obtain ⟨_, hcommit, hmark⟩ := dropSuffix?_eq_some_iff.mp hdrop
    exact ⟨true, by rw [hcommit, eq_of_beq hmark]; rfl⟩

/-- The commit of a version, with or without the mark. -/
theorem cleanCommit_append (v : HelperVersion) :
    cleanCommit (v.commit ++ dirtyMark v.dirty) = v.commit := by
  cases v.dirty with
  | true =>
    have hdrop : (v.commit ++ dirtyMark true).dropSuffix? "-dirty".toList = some v.commit :=
      dropSuffix?_eq_some_iff.mpr ⟨_, rfl, rfl⟩
    rw [cleanCommit, hdrop]
    rfl
  | false =>
    rw [dirtyMark, if_neg Bool.false_ne_true, append_nil]
    obtain ⟨dirty, hcommit⟩ := exists_dirtyMark v.commit
    cases dirty with
    | false => exact (hcommit.trans (append_nil _)).symm
    | true =>
      -- a dash is no digit
      have hmem : '-' ∈ v.commit := by
        rw [hcommit]
        exact mem_append_right _ (by decide)
      exact absurd (all_eq_true.mp v.commit_valid.2 _ hmem) (by decide)

theorem space_not_mem_release {release : List Char}
    (h : release.all (fun c => isAsciiAlphanumeric c || c == '.' || c == '-') = true) :
    ' ' ∉ release := fun hmem =>
  absurd (all_eq_true.mp h ' ' hmem) (by decide)

theorem HelperVersion.releaseAndCommit_text (v : HelperVersion) :
    releaseAndCommit v.text = some (v.release, v.commit ++ dirtyMark v.dirty) :=
  (releaseAndCommit_eq_some (space_not_mem_release v.release_valid.2.2)).mpr rfl

/-- A text has its parts in one way only. -/
theorem HelperVersion.text_injective : Function.Injective HelperVersion.text := by
  intro v v' h
  have hparts := v.releaseAndCommit_text.symm.trans (h ▸ v'.releaseAndCommit_text)
  obtain ⟨hrelease, hcommit⟩ := Prod.mk.inj (Option.some.inj hparts)
  obtain ⟨hdigits, hmark⟩ := append_inj hcommit
    (v.commit_valid.1.trans v'.commit_valid.1.symm)
  refine HelperVersion.ext hrelease hdigits ?_
  cases hv : v.dirty <;> cases hv' : v'.dirty <;> simp [dirtyMark, hv, hv'] at hmark ⊢

theorem HelperVersion.isPrintable_text (v : HelperVersion) :
    v.text.toList.all isPrintable = true := by
  have hrelease : v.release.all isPrintable = true := by
    refine all_eq_true.mpr fun c hc => ?_
    have hchar := all_eq_true.mp v.release_valid.2.2 c hc
    simp only [Bool.or_eq_true, beq_iff_eq] at hchar
    rcases hchar with (halnum | hdot) | hdash
    · exact isPrintable_of_isAlphanum halnum
    · rw [hdot]; decide
    · rw [hdash]; decide
  have hcommit : v.commit.all isPrintable = true := by
    refine all_eq_true.mpr fun c hc => ?_
    have hdigit := all_eq_true.mp v.commit_valid.2 c hc
    simp only [isLowerHexDigit, Bool.or_eq_true, Bool.and_eq_true, decide_eq_true_eq, Char.le_def,
      UInt32.le_iff_toNat_le] at hdigit
    simp [isPrintable] at hdigit ⊢
    omega
  have hmark : (dirtyMark v.dirty).all isPrintable = true := by cases v.dirty <;> decide
  unfold HelperVersion.text versionText
  simp only [String.toList_ofList, all_append, hrelease, hcommit, hmark]
  decide

/-- The checks of a version accept exactly the texts of versions. -/
theorem version_checks_iff (version : String) :
    ((version ≠ "" ∧ byteLen version ≤ maxHelperVersionBytes ∧
        version.toList.all (fun c => c.toNat < 128) = true ∧
        version.toList.any isAsciiControl = false) ∧
      ∃ parts, releaseAndCommit version = some parts ∧
        (parts.1 ≠ [] ∧ parts.1.length ≤ 64 ∧
          parts.1.all (fun c => isAsciiAlphanumeric c || c == '.' || c == '-') = true) ∧
        (cleanCommit parts.2).length = 12 ∧ (cleanCommit parts.2).all isLowerHexDigit = true) ↔
      ∃ v : HelperVersion, version = v.text := by
  constructor
  · rintro ⟨-, ⟨release, commit⟩, hparts, hrelease, hcommit⟩
    obtain ⟨dirty, hdirty⟩ := exists_dirtyMark commit
    refine ⟨⟨release, cleanCommit commit, dirty, hrelease, hcommit⟩, ?_⟩
    rw [HelperVersion.text, ← hdirty]
    exact (releaseAndCommit_eq_some (space_not_mem_release hrelease.2.2)).mp hparts
  · rintro ⟨v, rfl⟩
    have hprintable := v.isPrintable_text
    refine ⟨⟨?_, ?_, ?_, ?_⟩, _, v.releaseAndCommit_text, v.release_valid, ?_⟩
    · unfold HelperVersion.text versionText
      simp
    · have hmark : (dirtyMark v.dirty).length ≤ 6 := by cases v.dirty <;> decide
      have := v.release_valid.2.1
      have := v.commit_valid.1
      rw [byteLen_of_isPrintable hprintable]
      unfold HelperVersion.text versionText
      simp [maxHelperVersionBytes]
      omega
    · refine all_eq_true.mpr fun c hc => ?_
      have := all_eq_true.mp hprintable c hc
      simp [isPrintable] at this ⊢
      omega
    · refine any_eq_false.mpr fun c hc => ?_
      have := all_eq_true.mp hprintable c hc
      simp [isPrintable, isAsciiControl] at this ⊢
      omega
    · rw [cleanCommit_append]
      exact v.commit_valid

/-- The check of a version that a helper names. -/
theorem validateVersion_eq_ok (version : String) :
    HelperRuntimeIdentity.validateVersion version = .ok () ↔
      ∃ v : HelperVersion, version = v.text := by
  have helim (parts : List Char × List Char) (message : String) :
      (releaseAndCommit version).elim (.error message) Except.ok = .ok parts ↔
        releaseAndCommit version = some parts := by
    cases releaseAndCommit version <;> simp
  simp only [← version_checks_iff, HelperRuntimeIdentity.validateVersion, bind_eq_ok,
    rejectIf_eq_ok, not_not, helim, exists_const]

/-- The check of what a client expects. -/
theorem validateExpectedIdentity_eq_ok (expected : ExpectedNativeHelperIdentity) :
    validateExpectedIdentity expected = .ok () ↔
      (expected.name = helperBinaryName ∧
        (1 ≤ expected.binarySize ∧ expected.binarySize ≤ maxHelperBinaryBytes.toNat) ∧
        isLowerHex expected.sha256 32 = true) ∧
      ∃ v : HelperVersion, expected.version = v.text := by
  simp only [← version_checks_iff, validateExpectedIdentity, bind_eq_ok, ensure_eq_ok,
    orBail_eq_ok, exists_const, and_assoc]

/-- What a helper says of itself, as a client would expect it. -/
def expectedOf (identity : HelperRuntimeIdentity) : ExpectedNativeHelperIdentity :=
  ⟨identity.name, identity.binarySize.toNat, identity.sha256, identity.version⟩

/-- Both checks of an identity accept the same ones. -/
theorem validate_eq_ok_iff_expected (identity : HelperRuntimeIdentity) :
    identity.validate = .ok () ↔ validateExpectedIdentity (expectedOf identity) = .ok () := by
  rw [validateExpectedIdentity_eq_ok]
  simp only [HelperRuntimeIdentity.validate, validateSha256, bind_eq_ok, rejectIf_eq_ok, not_not,
    Bool.not_eq_false, exists_const, validateVersion_eq_ok, expectedOf, and_assoc,
    UInt64.le_iff_toNat_le]
  rfl

/-- **One grammar of versions.** Both validators accept exactly the versions that are written as
    `HelperVersion.text` writes them, a text has its parts in one way only, and an identity is
    accepted by both validators or by neither. -/
theorem helper_versions_agree :
    (∀ version, HelperRuntimeIdentity.validateVersion version = .ok () ↔
      ∃ v : HelperVersion, version = v.text) ∧
    (∀ expected, validateExpectedIdentity expected = .ok () ↔
      (expected.name = helperBinaryName ∧
        (1 ≤ expected.binarySize ∧ expected.binarySize ≤ maxHelperBinaryBytes.toNat) ∧
        isLowerHex expected.sha256 32 = true) ∧
      ∃ v : HelperVersion, expected.version = v.text) ∧
    Function.Injective HelperVersion.text ∧
    (∀ identity : HelperRuntimeIdentity,
      identity.validate = .ok () ↔ validateExpectedIdentity (expectedOf identity) = .ok ()) :=
  ⟨validateVersion_eq_ok, validateExpectedIdentity_eq_ok, HelperVersion.text_injective,
    validate_eq_ok_iff_expected⟩

end Serctl.Daemon
