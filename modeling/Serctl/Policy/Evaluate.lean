import Serctl.Policy.Compile

/-!
# Intent evaluation and the template ceiling

`evaluateIntent` decides a typed intent against a compiled representation.  The invariant
checks come first, so that no choice of base template masks or relaxes them; then the
intent must lie in every set and under every limit of the representation.
-/

namespace Serctl.Policy

open Lib.Guard Lib List Lib.Text

/-- Addition of machine words that stops at the largest one. -/
def saturatingAdd (a b : Nat) : Nat := min (a + b) (2 ^ 64 - 1)

/-! ## Collections -/

/-- One iteration of the argument loop; the state is the number of bytes so far. -/
def validateArgument (argumentBytes : Nat) (argument : String) : Except ReasonCode Nat := do
  rejectIf (byteLen argument > maxArgBytes) .intentArgumentLimitExceeded
  rejectIf (hasControl argument = true) .invariantControlCharacter
  rejectIf (isShellCommandFlag argument = true) .invariantShellCommandFlag
  return saturatingAdd argumentBytes (byteLen argument)

/-- One iteration of the environment loop; the state is the number of bytes so far. -/
def validateVariable (envBytes : Nat) (var : EnvVar) : Except ReasonCode Nat := do
  rejectIf (byteLen var.name > maxEnvNameBytes ∨
    byteLen var.value > maxEnvValueBytes) .intentEnvironmentLimitExceeded
  rejectIf (hasControl var.name = true ∨ hasControl var.value = true)
    .invariantControlCharacter
  return saturatingAdd (saturatingAdd envBytes (byteLen var.name))
    (byteLen var.value)

/-- Lists and texts of an intent are not too long. -/
def validateIntentCollections (intent : TypedIntent) : Except ReasonCode Unit := do
  rejectIf (∃ program ∈ intent.program, byteLen program > maxProgramBytes)
    .intentArgumentLimitExceeded
  rejectIf (intent.argv.length > maxArgCount) .intentArgumentLimitExceeded
  let argumentBytes ← intent.argv.foldlM validateArgument 0
  rejectIf (argumentBytes > maxArgTotalBytes) .intentArgumentLimitExceeded
  rejectIf (intent.env.length > maxEnvCount) .intentEnvironmentLimitExceeded
  let envBytes ← intent.env.foldlM validateVariable 0
  rejectIf (envBytes > maxEnvTotalBytes) .intentEnvironmentLimitExceeded
  rejectIf (intent.paths.length > maxPathCount) .intentPathLimitExceeded
  rejectIf (intent.paths.any (fun path => byteLen path.value > maxPathBytes) = true)
    .intentPathLimitExceeded

/-! ## The decision -/

/-- The identity is a valid one. -/
def validateIntentIdentity (runAs : RunAs) : Except ReasonCode Unit := do
  let _ ← (validateRunAs runAs).mapError PolicyError.code

/-- An intent has the parts that its capability needs. -/
def validateIntentShape (intent : TypedIntent) : Except ReasonCode Unit :=
  match intent.capability with
  | .fsList | .fsRead | .fsWriteNew | .transferRead | .transferWrite =>
    rejectIf (intent.program.isSome = true ∨ intent.argv ≠ [] ∨ intent.env ≠ [] ∨
      intent.paths.length ≠ 1) .intentShapeMismatch
  | .processInspect =>
    rejectIf (intent.program.isSome = true ∨ intent.argv ≠ [] ∨ intent.env ≠ [] ∨
      intent.paths ≠ []) .intentShapeMismatch
  | .processRun =>
    rejectIf (intent.program.isNone = true ∨ intent.paths.length > 1) .intentShapeMismatch

/-- The intent is within the limits. -/
def validateIntentDeadlineAndBudget (limits : EffectiveLimits) (intent : TypedIntent) :
    Except ReasonCode Unit := do
  rejectIf (intent.deadlineMs = 0) .intentDeadlineInvalid
  rejectIf (intent.deadlineMs > limits.maxDeadlineMs) .intentDeadlineExceeded
  rejectIf (intent.budget.parallel = 0 ∨ intent.budget.operations = 0) .intentBudgetInvalid
  rejectIf (intent.budget.bytes > limits.maxBytes ∨
    intent.budget.outputBytes > limits.maxOutputBytes ∨
    intent.budget.parallel > limits.maxParallel ∨
    intent.budget.operations > limits.maxOperations) .intentBudgetExceeded

/-- The normalized program of an intent, checked against the invariant families. -/
def normalizeIntentProgram (program : Option String) :
    Except ReasonCode (Option String) :=
  match program with
  | none => .ok none
  | some program => do
    let program ← (normalizeProgramIdentifier program).mapError PolicyError.code
    (validateProgramInvariant program).mapError PolicyError.code
    return some program

/-- One iteration of the name loop; the state is the set of names so far. -/
def insertEnvName (names : Finset String) (var : EnvVar) :
    Except ReasonCode (Finset String) := do
  let key ← (normalizeEnvKey var.name).mapError PolicyError.code
  rejectIf (key ∈ names) .intentEnvironmentDenied
  return insert key names

/-- A path in its normal form. -/
def normalizeIntentPath (path : IntentPath) : Except ReasonCode NormalizedPath := do
  let value ← (normalizePath path.flavor path.value).mapError PolicyError.code
  return ⟨path.flavor, value⟩

/-- One iteration of the path loop. -/
def validateIntentPath (ir : PolicyIr) (normalized : NormalizedPath) :
    Except ReasonCode Unit := do
  rejectIf (¬∃ pre ∈ ir.allowedPaths, pathPrefixMatches pre normalized = true)
    .intentPathDenied
  rejectIf (∃ pre ∈ ir.deniedPaths, pathPrefixMatches pre normalized = true)
    .intentPathDenied

/-- **The decision**, or the reason against it. -/
def evaluateIntent (ir : PolicyIr) (intent : TypedIntent) : Except ReasonCode Unit := do
  rejectIf (intent.schemaVersion ≠ intentSchemaVersion) .schemaUnsupported
  validateIntentIdentity intent.runAs
  validateIntentCollections intent
  let normalizedProgram ← normalizeIntentProgram intent.program
  let normalizedEnvNames ← intent.env.foldlM insertEnvName ∅
  let normalizedPaths ← collect normalizeIntentPath intent.paths
  validateIntentShape intent
  rejectIf (intent.capability ∉ ir.capabilities) .intentCapabilityDenied
  rejectIf (intent.runAs ∉ ir.runAs) .intentIdentityDenied
  validateIntentDeadlineAndBudget ir.limits intent
  rejectIf (∃ program ∈ normalizedProgram, program ∉ ir.processPrograms)
    .intentProgramDenied
  rejectIf (¬normalizedEnvNames ⊆ ir.processEnvKeys) .intentEnvironmentDenied
  let _ ← collect (validateIntentPath ir) normalizedPaths

/-- The decision as it is shown. -/
def CompiledPolicy.explain (policy : CompiledPolicy) (intent : TypedIntent) : Explanation :=
  match evaluateIntent policy.ir intent with
  | .ok () => ⟨true, .allowed, policy.digest⟩
  | .error code => ⟨false, code, policy.digest⟩

/-- The decision without any effect. -/
def CompiledPolicy.dryRun (policy : CompiledPolicy) (intent : TypedIntent) : Explanation :=
  policy.explain intent

variable {intent : TypedIntent}

theorem evaluateIntent_of_explain_allowed {policy : CompiledPolicy}
    (h : (policy.explain intent).allowed = true) : evaluateIntent policy.ir intent = .ok () := by
  unfold CompiledPolicy.explain at h
  split at h
  · assumption
  · cases h

/-! ## What an accepting evaluation has checked -/

theorem validateIntentCollections_argv
    (h : validateIntentCollections intent = .ok ()) {a : String} (ha : a ∈ intent.argv) :
    isShellCommandFlag a = false ∧ hasControl a = false := by
  simp only [validateIntentCollections, bind_eq_ok, rejectIf_eq_ok] at h
  obtain ⟨_, _, _, _, bytes, hloop, _⟩ := h
  refine foldlM_forall (fun a => isShellCommandFlag a = false ∧ hasControl a = false)
    ?_ intent.argv 0 bytes hloop a ha
  intro s argument s' hstep
  simp only [validateArgument, bind_eq_ok, rejectIf_eq_ok, Bool.not_eq_true] at hstep
  obtain ⟨_, _, _, hcontrol, _, hflag, _⟩ := hstep
  exact ⟨hflag, hcontrol⟩

/-- A loop adds up the sizes of what it accepts, as far as a machine word goes. -/
theorem foldlM_adds {α : Type} {f : Nat → α → Except ReasonCode Nat} {size : α → Nat}
    {P : α → Prop} (hstep : ∀ n a n', f n a = .ok n' → n' = min (n + size a) (2 ^ 64 - 1) ∧ P a)
    {as : List α} {n total : Nat} (hn : n < 2 ^ 64) (h : as.foldlM f n = .ok total) :
    total = min (n + (as.map size).sum) (2 ^ 64 - 1) ∧ ∀ a ∈ as, P a := by
  refine ⟨?_, foldlM_forall P (fun n a n' hf => (hstep n a n' hf).2) as n total h⟩
  induction as generalizing n with
  | nil =>
    simp only [foldlM_nil, pure_eq_ok] at h
    subst h
    simp
    omega
  | cons a as ih =>
    simp only [foldlM_cons, bind_eq_ok] at h
    obtain ⟨n', hf, hrest⟩ := h
    obtain ⟨rfl, -⟩ := hstep n a n' hf
    rw [ih (by omega) hrest, map_cons, sum_cons]
    omega

theorem foldlM_validateArgument {argv : List String} {n total : Nat} (hn : n < 2 ^ 64)
    (h : argv.foldlM validateArgument n = .ok total) :
    total = min (n + (argv.map byteLen).sum) (2 ^ 64 - 1) ∧
      ∀ a ∈ argv, byteLen a ≤ maxArgBytes := by
  refine foldlM_adds (fun n a n' hf => ?_) hn h
  simp only [validateArgument, bind_eq_ok, rejectIf_eq_ok, pure_eq_ok, not_lt] at hf
  obtain ⟨_, hsize, _, _, _, _, rfl⟩ := hf
  exact ⟨rfl, hsize⟩

/-- What the environment loop has checked of one variable. -/
structure EnvVar.Bounded (var : EnvVar) : Prop where
  name : byteLen var.name ≤ maxEnvNameBytes
  value : byteLen var.value ≤ maxEnvValueBytes
  printable : hasControl var.name = false ∧ hasControl var.value = false

theorem foldlM_validateVariable {env : List EnvVar} {n total : Nat} (hn : n < 2 ^ 64)
    (h : env.foldlM validateVariable n = .ok total) :
    total = min (n + (env.map fun v => byteLen v.name + byteLen v.value).sum)
        (2 ^ 64 - 1) ∧
      ∀ v ∈ env, v.Bounded := by
  refine foldlM_adds (fun n v n' hf => ?_) hn h
  simp only [validateVariable, bind_eq_ok, rejectIf_eq_ok, pure_eq_ok, not_or, not_lt,
    Bool.not_eq_true] at hf
  obtain ⟨_, ⟨hname, hvalue⟩, _, hprintable, rfl⟩ := hf
  exact ⟨by unfold saturatingAdd; omega, hname, hvalue, hprintable⟩

/-- The bounds on arguments and variables that hold under every policy. -/
structure TypedIntent.Bounded (intent : TypedIntent) : Prop where
  argCount : intent.argv.length ≤ maxArgCount
  argBytes : ∀ a ∈ intent.argv, byteLen a ≤ maxArgBytes
  argTotalBytes : (intent.argv.map byteLen).sum ≤ maxArgTotalBytes
  envCount : intent.env.length ≤ maxEnvCount
  env : ∀ v ∈ intent.env, v.Bounded
  envTotalBytes :
    (intent.env.map fun v => byteLen v.name + byteLen v.value).sum ≤ maxEnvTotalBytes

theorem bounded_of_validateIntentCollections
    (h : validateIntentCollections intent = .ok ()) : intent.Bounded := by
  simp only [validateIntentCollections, bind_eq_ok, rejectIf_eq_ok, not_lt] at h
  obtain ⟨_, _, _, hargs, argBytes, hargLoop, _, hargTotal, _, henv, envBytes, henvLoop, _,
    henvTotal, _⟩ := h
  obtain ⟨hargSum, hargSizes⟩ := foldlM_validateArgument (by omega) hargLoop
  obtain ⟨henvSum, henvSizes⟩ := foldlM_validateVariable (by omega) henvLoop
  -- the bounds are far below the largest word, so the sums did not stop there
  have harg : maxArgTotalBytes < 2 ^ 64 - 1 := by decide
  have henv' : maxEnvTotalBytes < 2 ^ 64 - 1 := by decide
  exact ⟨hargs, hargSizes, by omega, henv, henvSizes, by omega⟩

theorem normalizeIntentProgram_eq_ok {program normalized : Option String}
    (h : normalizeIntentProgram program = .ok normalized) {p : String} (hp : program = some p) :
    ∃ n, normalized = some n ∧ normalizeProgramIdentifier p = .ok n ∧
      isCommandInterpreter n = false ∧ isDangerousProgram n = false := by
  subst hp
  simp only [normalizeIntentProgram, validateProgramInvariant, bind_eq_ok, mapError_eq_ok,
    rejectIf_eq_ok, pure_eq_ok, Bool.not_eq_true] at h
  obtain ⟨n, hn, _, ⟨_, hinterpreter, hdangerous⟩, hnormalized⟩ := h
  exact ⟨n, hnormalized.symm, hn, hinterpreter, hdangerous⟩

/-- The name loop ends with exactly the names it started from and those of the list, and it
    has met no name twice. -/
theorem foldlM_insertEnvName {env : List EnvVar} {names names' : Finset String}
    (h : env.foldlM insertEnvName names = .ok names') :
    (env.map EnvVar.name).Nodup ∧ (∀ v ∈ env, v.name ∉ names) ∧ names ⊆ names' ∧
      ∀ v ∈ env, v.name ∈ names' := by
  induction env generalizing names with
  | nil =>
    simp only [foldlM_nil, pure_eq_ok] at h
    subst h
    simp
  | cons v env ih =>
    simp only [foldlM_cons, insertEnvName, bind_eq_ok, mapError_eq_ok, rejectIf_eq_ok,
      pure_eq_ok] at h
    obtain ⟨_, ⟨key, hkey, _, hfresh, rfl⟩, hrest⟩ := h
    obtain rfl := normalizeEnvKey_eq_ok hkey
    obtain ⟨hnodup, hnew, hsub, hmem⟩ := ih hrest
    have hv : v.name ∈ names' := hsub (Finset.mem_insert_self _ _)
    -- the first name is in the set that the rest of the loop starts from
    have hdistinct : v.name ∉ env.map EnvVar.name := by
      intro hin
      obtain ⟨u, hu, hname⟩ := mem_map.mp hin
      exact hnew u hu (hname ▸ Finset.mem_insert_self _ _)
    refine ⟨?_, ?_, ?_, ?_⟩
    · exact nodup_cons.mpr ⟨hdistinct, hnodup⟩
    · intro u hu
      rcases mem_cons.mp hu with rfl | hu
      · exact hfresh
      · exact fun hin => hnew u hu (Finset.mem_insert_of_mem hin)
    · exact (Finset.subset_insert _ _).trans hsub
    · intro u hu
      rcases mem_cons.mp hu with rfl | hu
      · exact hv
      · exact hmem u hu

variable {ir : PolicyIr}

/-- With no allowed path, the path loop refuses any path at all. -/
theorem paths_eq_nil_of_no_allowed_path {paths : List IntentPath}
    {normalized : List NormalizedPath} {us : List Unit} (hempty : ir.allowedPaths = ∅)
    (hnormalized : collect normalizeIntentPath paths = .ok normalized)
    (hloop : collect (validateIntentPath ir) normalized = .ok us) : paths = [] := by
  cases collect_eq_ok hnormalized with
  | nil => rfl
  | cons _ _ =>
    simp [collect, validateIntentPath, hempty] at hloop

/-- Everything that an accepting evaluation has established about the intent, in terms of the
    representation it was evaluated against. -/
structure Accepted (ir : PolicyIr) (intent : TypedIntent) : Prop where
  nonRoot : ¬intent.runAs.IsRoot
  capability : intent.capability ∈ ir.capabilities
  runAs : intent.runAs ∈ ir.runAs
  deadline : intent.deadlineMs ≤ ir.limits.maxDeadlineMs
  bytes : intent.budget.bytes ≤ ir.limits.maxBytes
  outputBytes : intent.budget.outputBytes ≤ ir.limits.maxOutputBytes
  parallel : intent.budget.parallel ≤ ir.limits.maxParallel
  operations : intent.budget.operations ≤ ir.limits.maxOperations
  program : ∀ p, intent.program = some p → ∃ n, normalizeProgramIdentifier p = .ok n ∧
    n ∈ ir.processPrograms ∧ isCommandInterpreter n = false ∧ isDangerousProgram n = false
  envDistinct : (intent.env.map EnvVar.name).Nodup
  envKeys : ∀ v ∈ intent.env, v.name ∈ ir.processEnvKeys
  paths : ir.allowedPaths = ∅ → intent.paths = []
  argv : ∀ a ∈ intent.argv, isShellCommandFlag a = false ∧ hasControl a = false

/-- Everything an accepting evaluation has checked. -/
theorem accepted_of_evaluateIntent
    (h : evaluateIntent ir intent = .ok ()) : Accepted ir intent := by
  simp only [evaluateIntent, validateIntentIdentity, validateIntentDeadlineAndBudget,
    bind_eq_ok, mapError_eq_ok, rejectIf_eq_ok, pure_eq_ok, not_not, not_or, not_lt] at h
  obtain ⟨_, _, _, ⟨_, hidentity, _⟩, _, hcollections, normalizedProgram, hprogram, names,
    hnames, normalizedPaths, hnormalized, _, _, _, hcapability, _, hrunAs, _,
    ⟨_, _, _, hdeadline, _, _, hbytes, houtput, hparallel, hoperations⟩, _, hprograms, _,
    hkeys, _, hpaths, _⟩ := h
  obtain ⟨hnodup, _, _, hmem⟩ := foldlM_insertEnvName hnames
  refine ⟨not_isRoot_of_validateRunAs hidentity, hcapability, hrunAs, hdeadline, hbytes,
    houtput, hparallel, hoperations, ?_, hnodup, ?_, ?_, ?_⟩
  · intro p hp
    obtain ⟨n, hnorm, hn, hfamilies⟩ := normalizeIntentProgram_eq_ok hprogram hp
    refine ⟨n, hn, ?_, hfamilies⟩
    by_contra hout
    exact hprograms ⟨n, hnorm, hout⟩
  · exact fun v hv => hkeys (hmem v hv)
  · exact fun hempty => paths_eq_nil_of_no_allowed_path hempty hnormalized hpaths
  · exact fun a ha => validateIntentCollections_argv hcollections ha

theorem bounded_of_evaluateIntent (h : evaluateIntent ir intent = .ok ()) : intent.Bounded := by
  simp only [evaluateIntent, bind_eq_ok] at h
  obtain ⟨_, _, _, _, _, hcollections, _⟩ := h
  exact bounded_of_validateIntentCollections hcollections

/-! ## The ceiling of a base template -/

/-- What a base template can ever allow, whatever the document built on it says. -/
structure WithinCeiling (base : BaseTemplate) (intent : TypedIntent) : Prop where
  capability : intent.capability ∈ templateCapabilities base
  nonRoot : ¬intent.runAs.IsRoot
  runAs : (templateIdentityCeiling base).admits intent.runAs = true
  /-- The program is one of the template's, and of no family that is always denied. -/
  program : ∀ p, intent.program = some p → ∃ n, normalizeProgramIdentifier p = .ok n ∧
    n ∈ templatePrograms base ∧ isCommandInterpreter n = false ∧ isDangerousProgram n = false
  envDistinct : (intent.env.map EnvVar.name).Nodup
  envKeys : ∀ v ∈ intent.env, v.name ∈ templateEnvKeys base
  deadline : intent.deadlineMs ≤ (templateLimits base).maxDeadlineMs
  bytes : intent.budget.bytes ≤ (templateLimits base).maxBytes
  outputBytes : intent.budget.outputBytes ≤ (templateLimits base).maxOutputBytes
  parallel : intent.budget.parallel ≤ (templateLimits base).maxParallel
  operations : intent.budget.operations ≤ (templateLimits base).maxOperations
  paths : intent.paths = []
  argv : ∀ a ∈ intent.argv, isShellCommandFlag a = false ∧ hasControl a = false

theorem withinCeiling_of_accepted {base : BaseTemplate}
    (hir : ir.Narrowed base) (h : Accepted ir intent) : WithinCeiling base intent where
  capability := hir.capabilities h.capability
  nonRoot := h.nonRoot
  runAs := hir.runAs _ h.runAs
  program := by
    intro p hp
    obtain ⟨n, hn, hmem, hfamilies⟩ := h.program p hp
    exact ⟨n, hn, hir.programs hmem, hfamilies⟩
  envDistinct := h.envDistinct
  envKeys := fun v hv => hir.envKeys (h.envKeys v hv)
  deadline := h.deadline.trans hir.limits.deadline
  bytes := h.bytes.trans hir.limits.bytes
  outputBytes := h.outputBytes.trans hir.limits.outputBytes
  parallel := h.parallel.trans hir.limits.parallel
  operations := h.operations.trans hir.limits.operations
  paths := h.paths hir.paths
  argv := h.argv

/-- **The template ceiling**: an intent that a compiled policy allows lies inside the ceiling
    of the document's base template.  No combination of selections, limits and deny rules
    widens it. -/
theorem allowed_intent_within_ceiling (backend : DigestBackend) (document : PolicyDocument)
    (policy : CompiledPolicy) (intent : TypedIntent)
    (hcompile : compilePolicy backend document = .ok policy)
    (hallowed : (policy.explain intent).allowed = true) :
    WithinCeiling document.base intent :=
  withinCeiling_of_accepted (narrowed_of_compilePolicy hcompile)
    (accepted_of_evaluateIntent (evaluateIntent_of_explain_allowed hallowed))

/-- A document on the red template that keeps `uname` only, and no inspection. -/
def unameDocument : PolicyDocument where
  schemaVersion := 1
  base := .red
  runAs := [.uid 1000]
  limits := { maxDeadlineMs := some 60000 }
  process := { programs := some ["UNAME.exe", "whoami"] }
  deny := [.capability .processInspect, .program "whoami"]

/-- Its canonical JSON text. -/
def unameIrJson : String :=
    "\x7b\"schema_version\":1,\"base\":\"red\",\"capabilities\":[\"process_run\"],\"run_as" ++
    "\":[\x7b\"kind\":\"uid\",\"value\":1000\x7d],\"limits\":\x7b\"max_deadline_ms\":60000," ++
    "\"max_bytes\":17179869184,\"max_output_bytes\":67108864,\"max_parallel\":4,\"max_opera" ++
    "tions\":1000\x7d,\"process_programs\":[\"uname\"],\"process_env_keys\":[\"LANG\",\"LC_" ++
    "ALL\",\"TZ\"],\"allowed_paths\":[],\"denied_paths\":[]\x7d"

def unameBackend : DigestBackend where
  toVec _ := .ok (unameIrJson.toList.map fun c => UInt8.ofNat c.toNat)
  sha256 _ := [191, 36, 170, 61, 174, 197, 186, 229, 67, 43, 115, 155, 150, 175, 25, 164,
    155, 62, 25, 18, 236, 90, 220, 63, 231, 139, 89, 34, 104, 119, 205, 125]

/-- A policy that allows `uname`. -/
def unamePolicy : CompiledPolicy where
  ir :=
    { schemaVersion := 1
      base := .red
      capabilities := {.processRun}
      runAs := {.uid 1000}
      limits := { templateLimits .red with maxDeadlineMs := 60000 }
      processPrograms := {"uname"}
      processEnvKeys := templateEnvKeys .red
      allowedPaths := ∅
      deniedPaths := ∅ }
  digest := ⟨"bf24aa3daec5bae5432b739b96af19a49b3e1912ec5adc3fe78b59226877cd7d"⟩

/-- An intent to run `uname`. -/
def unameIntent : TypedIntent where
  schemaVersion := 1
  capability := .processRun
  runAs := .uid 1000
  program := some "uname"
  argv := ["-a"]
  env := [⟨"LANG", "C"⟩, ⟨"TZ", "UTC"⟩]
  budget := ⟨0, 4096, 1, 1⟩
  deadlineMs := 30000

theorem uname_intent_within_red_ceiling :
    compilePolicy unameBackend unameDocument = .ok unamePolicy ∧
      (unamePolicy.explain unameIntent).allowed = true ∧ WithinCeiling .red unameIntent := by
  have hcompile : compilePolicy unameBackend unameDocument = .ok unamePolicy := by decide
  have hallowed : (unamePolicy.explain unameIntent).allowed = true := by decide
  exact ⟨hcompile, hallowed,
    allowed_intent_within_ceiling unameBackend unameDocument unamePolicy unameIntent hcompile
      hallowed⟩

end Serctl.Policy
