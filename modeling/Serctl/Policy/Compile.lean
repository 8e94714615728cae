import Mathlib.Data.Finset.Image
import Serctl.Policy.Normalize

/-!
# Policy compilation

`compilePolicy` turns a bounded policy document into the normalized representation and its
digest.  The base template fixes a ceiling; everything a document says may only narrow it:
selections are checked to be subsets, limits are checked to be no larger, and deny rules
remove.
-/

namespace Serctl.Policy

open Lib.Guard Lib

/-! ## Base templates -/

/-- The capabilities of a template. -/
def templateCapabilities : BaseTemplate → Finset Capability
  | .green | .yellow => {.processInspect}
  | .red => {.processInspect, .processRun}

/-- The identities that a base template lets through. -/
inductive IdentityCeiling where
  /-- Only the conventional unprivileged account. -/
  | nobodyOnly
  /-- Any numeric identity but zero; the executor proves that it is its own. -/
  | nonRootUidForFixedProcess
  deriving DecidableEq, Repr

/-- The identities of a template. -/
def templateIdentityCeiling : BaseTemplate → IdentityCeiling
  | .green | .yellow => .nobodyOnly
  | .red => .nonRootUidForFixedProcess

/-- The identities inside an identity ceiling. -/
def IdentityCeiling.admits : IdentityCeiling → RunAs → Bool
  | .nobodyOnly, .user name => name == "nobody"
  | .nonRootUidForFixedProcess, .uid value => 1 ≤ value
  | _, _ => false

/-- No host-independent path is safe, so every template's path ceiling is empty. -/
def templateAllowedPaths (_base : BaseTemplate) : Finset NormalizedPath := ∅

/-- The capability is about paths. -/
def capabilityUsesPath : Capability → Bool
  | .fsList | .fsRead | .fsWriteNew | .transferRead | .transferWrite => true
  | .processInspect | .processRun => false

/-- The programs of a template. -/
def templatePrograms : BaseTemplate → Finset String
  | .green | .yellow => ∅
  | .red => {"id", "true", "uname", "uptime", "whoami"}

/-- The variables of a template. -/
def templateEnvKeys : BaseTemplate → Finset String
  | .green | .yellow => ∅
  | .red => {"LANG", "LC_ALL", "TZ"}

/-- The limits of a template. -/
def templateLimits : BaseTemplate → EffectiveLimits
  | .green =>
    { maxDeadlineMs := 60000
      maxBytes := 64 * 1024 * 1024
      maxOutputBytes := 4 * 1024 * 1024
      maxParallel := 1
      maxOperations := 100 }
  | .yellow =>
    { maxDeadlineMs := 300000
      maxBytes := 1024 * 1024 * 1024
      maxOutputBytes := 16 * 1024 * 1024
      maxParallel := 2
      maxOperations := 1000 }
  | .red =>
    { maxDeadlineMs := 2100000
      maxBytes := 16 * 1024 * 1024 * 1024
      maxOutputBytes := 64 * 1024 * 1024
      maxParallel := 4
      maxOperations := 1000 }

/-! ## Narrowing selections -/

/-- A list is not too long. -/
def enforceCount (value limit : Nat) (label : String) : Except PolicyError Unit :=
  rejectIf (value > limit)
    ⟨.policyLimitExceeded, s!"{label} exceeds its {limit}-item limit"⟩

/-- The capabilities that a document selects. -/
def compileCapabilitySelection (base : BaseTemplate) (selected : Option (List Capability)) :
    Except PolicyError (Finset Capability) :=
  match selected with
  | none => .ok (templateCapabilities base)
  | some selected => do
    rejectIf (¬selected.toFinset ⊆ templateCapabilities base)
      ⟨.capabilityExpandsBase, "capability selection is not a subset of its base template"⟩
    return selected.toFinset

/-- The identities that a document selects. -/
def compileIdentitySelection (base : BaseTemplate) (selected : List RunAs) :
    Except PolicyError (Finset RunAs) := do
  let selected ← collect validateRunAs selected
  rejectIf (selected.all (templateIdentityCeiling base).admits = false)
    ⟨.identityExpandsBase,
      "run_as selection is not a subset of its base template identity ceiling"⟩
  return selected.toFinset

/-- A limit that a document sets is not larger than the inherited one. -/
def narrowLimit (selected : Option Nat) (inherited : Nat) (label : String) :
    Except PolicyError Nat := do
  let selected := selected.getD inherited
  rejectIf (selected < 1 ∨ selected > inherited)
    ⟨.policyLimitExceeded, s!"{label} must be nonzero and cannot exceed its base template"⟩
  return selected

/-- The limits that a document sets. -/
def compileLimits (base : BaseTemplate) (overlay : LimitsOverlay) :
    Except PolicyError EffectiveLimits := do
  let inherited := templateLimits base
  let maxDeadlineMs ←
    narrowLimit overlay.maxDeadlineMs inherited.maxDeadlineMs "max_deadline_ms"
  let maxBytes ← narrowLimit overlay.maxBytes inherited.maxBytes "max_bytes"
  let maxOutputBytes ←
    narrowLimit overlay.maxOutputBytes inherited.maxOutputBytes "max_output_bytes"
  let maxParallel ← narrowLimit overlay.maxParallel inherited.maxParallel "max_parallel"
  let maxOperations ←
    narrowLimit overlay.maxOperations inherited.maxOperations "max_operations"
  return { maxDeadlineMs, maxBytes, maxOutputBytes, maxParallel, maxOperations }

/-- A selection of names among inherited ones: each is normalized, and the whole must be a
    subset. -/
def compileNameSelection (normalize : String → Except PolicyError String)
    (expansion : PolicyError) (selected : Option (List String)) (inherited : Finset String) :
    Except PolicyError (Finset String) :=
  match selected with
  | none => .ok inherited
  | some selected => do
    let selected ← collect normalize selected
    rejectIf (¬selected.toFinset ⊆ inherited) expansion
    return selected.toFinset

/-- The programs that a document selects. -/
def compileProgramSelection (selected : Option (List String)) (inherited : Finset String)
    (expansionCode : ReasonCode) : Except PolicyError (Finset String) :=
  compileNameSelection
    (fun program => do
      let normalized ← normalizeProgramIdentifier program
      validateProgramInvariant normalized
      return normalized)
    ⟨expansionCode, "program selection is not a subset of its base template"⟩
    selected inherited

/-- The variables that a document selects. -/
def compileEnvSelection (selected : Option (List String)) (inherited : Finset String) :
    Except PolicyError (Finset String) :=
  compileNameSelection normalizeEnvKey
    ⟨.environmentExpandsBase, "environment selection is not a subset of its base template"⟩
    selected inherited

/-! ## The deny loop -/

/-- The sets that the deny loop updates. -/
structure DenyState where
  capabilities : Finset Capability
  processPrograms : Finset String
  deniedPaths : Finset NormalizedPath
  deriving DecidableEq

/-- One iteration of the deny loop. -/
def applyDenyRule (s : DenyState) : DenyRule → Except PolicyError DenyState
  | .capability capability =>
    .ok { s with capabilities := s.capabilities.erase capability }
  | .program name => do
    let normalized ← normalizeProgramIdentifier name
    return { s with processPrograms := s.processPrograms.erase normalized }
  | .pathPrefix flavor value => do
    let value ← normalizePath flavor value
    return { s with deniedPaths := insert ⟨flavor, value⟩ s.deniedPaths }

/-! ## The compiler -/

/-- The serializer and the hash function that a digest is computed with. -/
structure DigestBackend where
  toVec : PolicyIr → Except String (List UInt8)
  sha256 : List UInt8 → List UInt8

/-- The bytes of `serctl-policy-ir-v1` and a terminating zero. -/
def policyDigestDomain : List UInt8 :=
  ("serctl-policy-ir-v1".toList.map fun c => UInt8.ofNat c.toNat) ++ [0]

/-- The text of a representation. -/
def canonicalBytes (backend : DigestBackend) (ir : PolicyIr) :
    Except PolicyError (List UInt8) :=
  (backend.toVec ir).mapError fun error =>
    ⟨.schemaInvalid, s!"serialize canonical policy IR: {error}"⟩

/-- The checks on the size of a document, made before anything is selected. -/
def validateDocumentCounts (document : PolicyDocument) : Except PolicyError Unit := do
  rejectIf (document.schemaVersion ≠ policySchemaVersion)
    ⟨.schemaUnsupported, "policy schema_version must be 1"⟩
  enforceCount ((document.capabilities.map List.length).getD 0) maxPolicyCapabilities
    "policy capability selection"
  rejectIf (document.runAs.isEmpty = true)
    ⟨.policyLimitExceeded, "policy requires at least one explicit non-root run_as identity"⟩
  enforceCount document.runAs.length maxPolicyIdentities "policy run_as identities"
  enforceCount document.deny.length maxPolicyDenyRules "policy deny rules"
  enforceCount ((document.process.programs.map List.length).getD 0) maxProcessPrograms
    "process program selection"
  enforceCount ((document.process.envKeys.map List.length).getD 0) maxProcessEnvKeys
    "process environment selection"

/-- The representation that a document compiles to. -/
def compileIr (document : PolicyDocument) : Except PolicyError PolicyIr := do
  validateDocumentCounts document
  let capabilities ← compileCapabilitySelection document.base document.capabilities
  let runAs ← compileIdentitySelection document.base document.runAs
  let limits ← compileLimits document.base document.limits
  let programs ← compileProgramSelection document.process.programs
    (templatePrograms document.base) .programExpandsBase
  let envKeys ← compileEnvSelection document.process.envKeys (templateEnvKeys document.base)
  let allowedPaths := templateAllowedPaths document.base
  let denied ← document.deny.foldlM applyDenyRule ⟨capabilities, programs, ∅⟩
  let runs := Capability.processRun ∈ denied.capabilities
  rejectIf ((∃ c ∈ denied.capabilities, capabilityUsesPath c = true) ∧ allowedPaths = ∅)
    ⟨.capabilityExpandsBase,
      "path-bearing capabilities require a non-empty immutable base path ceiling"⟩
  return {
    schemaVersion := policySchemaVersion
    base := document.base
    capabilities := denied.capabilities
    runAs
    limits
    processPrograms := if runs then denied.processPrograms else ∅
    processEnvKeys := if runs then envKeys else ∅
    allowedPaths
    deniedPaths := denied.deniedPaths }

/-- The compiler. -/
def compilePolicy (backend : DigestBackend) (document : PolicyDocument) :
    Except PolicyError CompiledPolicy := do
  let ir ← compileIr document
  let canonical ← canonicalBytes backend ir
  return ⟨ir, ⟨Text.hexEncode (backend.sha256 (policyDigestDomain ++ canonical))⟩⟩

/-! ## Every stage narrows -/

variable {base : BaseTemplate}

theorem compileCapabilitySelection_subset
    {selected : Option (List Capability)} {caps : Finset Capability}
    (h : compileCapabilitySelection base selected = .ok caps) :
    caps ⊆ templateCapabilities base := by
  cases selected with
  | none =>
    simp only [compileCapabilitySelection, Except.ok.injEq] at h
    exact h ▸ Finset.Subset.refl _
  | some selected =>
    simp only [compileCapabilitySelection, bind_eq_ok, rejectIf_eq_ok, not_not,
      pure_eq_ok] at h
    obtain ⟨_, hsub, rfl⟩ := h
    exact hsub

theorem compileIdentitySelection_admits {selected : List RunAs}
    {runAs : Finset RunAs} (h : compileIdentitySelection base selected = .ok runAs)
    {r : RunAs} (hr : r ∈ runAs) : (templateIdentityCeiling base).admits r = true := by
  simp only [compileIdentitySelection, bind_eq_ok, rejectIf_eq_ok, pure_eq_ok] at h
  obtain ⟨validated, _, _, hall, rfl⟩ := h
  exact List.all_eq_true.mp (by simpa using hall) r (List.mem_toFinset.mp hr)

theorem narrowLimit_le {selected : Option Nat} {inherited limit : Nat} {label : String}
    (h : narrowLimit selected inherited label = .ok limit) : limit ≤ inherited := by
  simp only [narrowLimit, bind_eq_ok, rejectIf_eq_ok, pure_eq_ok] at h
  obtain ⟨_, hrange, rfl⟩ := h
  omega

/-- Every limit of `l` is at most the same limit of `m`. -/
structure EffectiveLimits.Within (l m : EffectiveLimits) : Prop where
  deadline : l.maxDeadlineMs ≤ m.maxDeadlineMs
  bytes : l.maxBytes ≤ m.maxBytes
  outputBytes : l.maxOutputBytes ≤ m.maxOutputBytes
  parallel : l.maxParallel ≤ m.maxParallel
  operations : l.maxOperations ≤ m.maxOperations

theorem compileLimits_within {overlay : LimitsOverlay}
    {limits : EffectiveLimits} (h : compileLimits base overlay = .ok limits) :
    limits.Within (templateLimits base) := by
  simp only [compileLimits, bind_eq_ok, pure_eq_ok] at h
  obtain ⟨_, hdeadline, _, hbytes, _, houtput, _, hparallel, _, hoperations, rfl⟩ := h
  exact ⟨narrowLimit_le hdeadline, narrowLimit_le hbytes, narrowLimit_le houtput,
    narrowLimit_le hparallel, narrowLimit_le hoperations⟩

theorem compileNameSelection_subset {normalize : String → Except PolicyError String}
    {expansion : PolicyError} {selected : Option (List String)}
    {inherited names : Finset String}
    (h : compileNameSelection normalize expansion selected inherited = .ok names) :
    names ⊆ inherited := by
  cases selected with
  | none =>
    simp only [compileNameSelection, Except.ok.injEq] at h
    exact h ▸ Finset.Subset.refl _
  | some selected =>
    simp only [compileNameSelection, bind_eq_ok, rejectIf_eq_ok, not_not, pure_eq_ok] at h
    obtain ⟨_, _, _, hsub, rfl⟩ := h
    exact hsub

/-- One deny rule grants nothing: capabilities and programs only shrink. -/
theorem applyDenyRule_subset {s s' : DenyState} {rule : DenyRule}
    (h : applyDenyRule s rule = .ok s') :
    s'.capabilities ⊆ s.capabilities ∧ s'.processPrograms ⊆ s.processPrograms := by
  cases rule with
  | capability capability =>
    simp only [applyDenyRule, Except.ok.injEq] at h
    subst h
    exact ⟨Finset.erase_subset _ _, Finset.Subset.refl _⟩
  | program name =>
    simp only [applyDenyRule, bind_eq_ok, pure_eq_ok] at h
    obtain ⟨normalized, _, rfl⟩ := h
    exact ⟨Finset.Subset.refl _, Finset.erase_subset _ _⟩
  | pathPrefix flavor value =>
    simp only [applyDenyRule, bind_eq_ok, pure_eq_ok] at h
    obtain ⟨_, _, rfl⟩ := h
    exact ⟨Finset.Subset.refl _, Finset.Subset.refl _⟩

/-- The whole deny loop grants nothing. -/
theorem foldlM_applyDenyRule_subset {rules : List DenyRule} {s s' : DenyState}
    (h : rules.foldlM applyDenyRule s = .ok s') :
    s'.capabilities ⊆ s.capabilities ∧ s'.processPrograms ⊆ s.processPrograms := by
  refine foldlM_invariant
    (fun t => t.capabilities ⊆ s.capabilities ∧ t.processPrograms ⊆ s.processPrograms)
    ?_ rules s s' ⟨Finset.Subset.refl _, Finset.Subset.refl _⟩ h
  intro t rule t' ht hstep
  obtain ⟨hcaps, hprograms⟩ := applyDenyRule_subset hstep
  exact ⟨hcaps.trans ht.1, hprograms.trans ht.2⟩

/-- A representation inside the ceiling of a base template. -/
structure PolicyIr.Narrowed (ir : PolicyIr) (base : BaseTemplate) : Prop where
  capabilities : ir.capabilities ⊆ templateCapabilities base
  runAs : ∀ r ∈ ir.runAs, (templateIdentityCeiling base).admits r = true
  limits : ir.limits.Within (templateLimits base)
  programs : ir.processPrograms ⊆ templatePrograms base
  envKeys : ir.processEnvKeys ⊆ templateEnvKeys base
  paths : ir.allowedPaths = ∅

theorem narrowed_of_compileIr {document : PolicyDocument} {ir : PolicyIr}
    (h : compileIr document = .ok ir) : ir.Narrowed document.base := by
  simp only [compileIr, bind_eq_ok, rejectIf_eq_ok, pure_eq_ok] at h
  obtain ⟨_, _, caps, hcaps, runAs, hrunAs, limits, hlimits, programs, hprograms, envKeys,
    henvKeys, denied, hdenied, _, _, rfl⟩ := h
  have hdeny := foldlM_applyDenyRule_subset hdenied
  refine ⟨?_, ?_, compileLimits_within hlimits, ?_, ?_, rfl⟩
  · exact hdeny.1.trans (compileCapabilitySelection_subset hcaps)
  · exact fun r hr => compileIdentitySelection_admits hrunAs hr
  -- the sets of programs and keys are cleared when the document leaves no `processRun`
  · dsimp only
    split
    · exact hdeny.2.trans (compileNameSelection_subset hprograms)
    · exact Finset.empty_subset _
  · dsimp only
    split
    · exact compileNameSelection_subset henvKeys
    · exact Finset.empty_subset _

/-- **Compilation only narrows**: whatever a document selects, limits or denies, the compiled
    representation is inside the ceiling of its base template. -/
theorem narrowed_of_compilePolicy {backend : DigestBackend} {document : PolicyDocument}
    {policy : CompiledPolicy} (h : compilePolicy backend document = .ok policy) :
    policy.ir.Narrowed document.base := by
  simp only [compilePolicy, bind_eq_ok, pure_eq_ok] at h
  obtain ⟨ir, hir, _, _, rfl⟩ := h
  exact narrowed_of_compileIr hir

end Serctl.Policy
