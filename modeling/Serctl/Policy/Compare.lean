import Serctl.Policy.Canonical
import Serctl.Policy.Evaluate

/-!
# Comparing documents

What a compiled representation allows depends on its sets and limits alone, and grows with them.
The compiler in turn reads lists as sets and spellings as what they normalize to.  So a document
that says less allows less, and documents that say the same compile to the same policy.
-/

namespace Serctl.Policy

open Lib.Guard Lib List

/-! ## Narrower representations -/

/-- Every set and limit of `ir` is inside that of `ir'`, and `ir` denies all that `ir'` denies. -/
structure PolicyIr.Within (ir ir' : PolicyIr) : Prop where
  capabilities : ir.capabilities ⊆ ir'.capabilities
  runAs : ir.runAs ⊆ ir'.runAs
  limits : ir.limits.Within ir'.limits
  programs : ir.processPrograms ⊆ ir'.processPrograms
  envKeys : ir.processEnvKeys ⊆ ir'.processEnvKeys
  allowedPaths : ir.allowedPaths ⊆ ir'.allowedPaths
  deniedPaths : ir'.deniedPaths ⊆ ir.deniedPaths

variable {intent : TypedIntent}

theorem validateIntentDeadlineAndBudget_mono {limits limits' : EffectiveLimits}
    (hlimits : limits.Within limits') (h : validateIntentDeadlineAndBudget limits intent = .ok ()) :
    validateIntentDeadlineAndBudget limits' intent = .ok () := by
  simp only [validateIntentDeadlineAndBudget, bind_eq_ok, rejectIf_eq_ok, not_or, not_lt] at h ⊢
  obtain ⟨_, hpos, _, hdeadline, _, hvalid, hbytes, houtput, hparallel, hoperations⟩ := h
  exact ⟨(), hpos, (), hdeadline.trans hlimits.deadline, (), hvalid, hbytes.trans hlimits.bytes,
    houtput.trans hlimits.outputBytes, hparallel.trans hlimits.parallel,
    hoperations.trans hlimits.operations⟩

variable {ir ir' : PolicyIr}

theorem validateIntentPath_mono {path : NormalizedPath} {u : Unit}
    (hir : ir.Within ir') (h : validateIntentPath ir path = .ok u) :
    validateIntentPath ir' path = .ok u := by
  simp only [validateIntentPath, bind_eq_ok, rejectIf_eq_ok, not_not] at h ⊢
  obtain ⟨_, ⟨pre, hpre, hmatch⟩, hdenied⟩ := h
  refine ⟨(), ⟨pre, hir.allowedPaths hpre, hmatch⟩, ?_⟩
  -- whatever the wider representation denies, the narrower one denies too
  rintro ⟨pre', hpre', hmatch'⟩
  exact hdenied ⟨pre', hir.deniedPaths hpre', hmatch'⟩

theorem collect_validateIntentPath_mono (hir : ir.Within ir')
    {paths : List NormalizedPath} {us : List Unit}
    (h : collect (validateIntentPath ir) paths = .ok us) :
    collect (validateIntentPath ir') paths = .ok us := by
  induction paths generalizing us with
  | nil => exact h
  | cons path paths ih =>
    simp only [collect, bind_eq_ok, pure_eq_ok] at h ⊢
    obtain ⟨u, hu, us', hus, rfl⟩ := h
    exact ⟨u, validateIntentPath_mono hir hu, us', ih hus, rfl⟩

/-- **A representation allows what a narrower one allows.**  The checks that do not look at the
    representation are the same, and each of the others is a membership or a bound. -/
theorem evaluateIntent_mono (hir : ir.Within ir')
    (h : evaluateIntent ir intent = .ok ()) : evaluateIntent ir' intent = .ok () := by
  simp only [evaluateIntent, bind_eq_ok, rejectIf_eq_ok, pure_eq_ok, not_not] at h ⊢
  obtain ⟨_, hschema, _, hidentity, _, hcollections, program, hprogram, names, hnames, paths,
    hpaths, _, hshape, _, hcapability, _, hrunAs, _, hbudget, _, hprograms, _, hkeys,
    us, hus, _⟩ := h
  refine ⟨(), hschema, (), hidentity, (), hcollections, program, hprogram, names, hnames, paths,
    hpaths, (), hshape, (), hir.capabilities hcapability, (), hir.runAs hrunAs, (),
    validateIntentDeadlineAndBudget_mono hir.limits hbudget, (), ?_, (),
    hkeys.trans hir.envKeys, us, collect_validateIntentPath_mono hir hus, trivial⟩
  rintro ⟨p, hp, hout⟩
  exact hprograms ⟨p, hp, fun hin => hout (hir.programs hin)⟩

theorem explain_allowed_of_evaluateIntent {policy : CompiledPolicy}
    (h : evaluateIntent policy.ir intent = .ok ()) : (policy.explain intent).allowed = true := by
  simp [CompiledPolicy.explain, h]

/-! ## What the deny loop leaves -/

/-- The rule takes the program out of the set. -/
def DenyRule.DeniesProgram (rule : DenyRule) (program : String) : Prop :=
  ∃ name, rule = .program name ∧ normalizeProgramIdentifier name = .ok program

/-- The rule denies what is under the path. -/
def DenyRule.DeniesPath (rule : DenyRule) (path : NormalizedPath) : Prop :=
  ∃ value, rule = .pathPrefix path.flavor value ∧ normalizePath path.flavor value = .ok path.value

/-- The sets after the rules are the sets before, less what some rule denies; the denied paths
    are those before and those of the rules.  Neither order nor repetition matters. -/
theorem foldlM_applyDenyRule {rules : List DenyRule} {s s' : DenyState}
    (h : rules.foldlM applyDenyRule s = .ok s') :
    (∀ c, c ∈ s'.capabilities ↔ c ∈ s.capabilities ∧ .capability c ∉ rules) ∧
    (∀ p, p ∈ s'.processPrograms ↔
      p ∈ s.processPrograms ∧ ∀ rule ∈ rules, ¬rule.DeniesProgram p) ∧
    (∀ path, path ∈ s'.deniedPaths ↔
      path ∈ s.deniedPaths ∨ ∃ rule ∈ rules, rule.DeniesPath path) := by
  induction rules generalizing s with
  | nil =>
    simp only [foldlM_nil, pure_eq_ok] at h
    subst h
    simp
  | cons rule rules ih =>
    simp only [foldlM_cons, bind_eq_ok] at h
    obtain ⟨t, ht, hrest⟩ := h
    obtain ⟨hcaps, hprograms, hpaths⟩ := ih hrest
    cases rule with
    | capability capability =>
      simp only [applyDenyRule, Except.ok.injEq] at ht
      subst ht
      refine ⟨fun c => ?_, fun p => ?_, fun path => ?_⟩
      · rw [hcaps]
        simp only [Finset.mem_erase, mem_cons, DenyRule.capability.injEq]
        tauto
      · rw [hprograms]
        simp [DenyRule.DeniesProgram]
      · rw [hpaths]
        simp [DenyRule.DeniesPath]
    | program name =>
      simp only [applyDenyRule, bind_eq_ok, pure_eq_ok] at ht
      obtain ⟨normalized, hname, rfl⟩ := ht
      refine ⟨fun c => ?_, fun p => ?_, fun path => ?_⟩
      · rw [hcaps]
        simp
      · rw [hprograms]
        -- the rule denies exactly the name that it normalizes to
        have hrule : (DenyRule.program name).DeniesProgram p ↔ p = normalized := by
          simp only [DenyRule.DeniesProgram, DenyRule.program.injEq]
          constructor
          · rintro ⟨_, rfl, hp⟩
            rw [hname] at hp
            exact (Except.ok.inj hp).symm
          · rintro rfl
            exact ⟨name, rfl, hname⟩
        simp only [Finset.mem_erase, forall_mem_cons, hrule]
        tauto
      · rw [hpaths]
        simp [DenyRule.DeniesPath]
    | pathPrefix flavor value =>
      simp only [applyDenyRule, bind_eq_ok, pure_eq_ok] at ht
      obtain ⟨normalized, hvalue, rfl⟩ := ht
      refine ⟨fun c => ?_, fun p => ?_, fun path => ?_⟩
      · rw [hcaps]
        simp
      · rw [hprograms]
        simp [DenyRule.DeniesProgram]
      · rw [hpaths]
        have hrule : (DenyRule.pathPrefix flavor value).DeniesPath path ↔
            path = ⟨flavor, normalized⟩ := by
          simp only [DenyRule.DeniesPath, DenyRule.pathPrefix.injEq]
          constructor
          · rintro ⟨_, ⟨rfl, rfl⟩, hpath⟩
            rw [hvalue] at hpath
            rw [Except.ok.inj hpath]
          · rintro rfl
            exact ⟨value, ⟨rfl, rfl⟩, hvalue⟩
        simp only [Finset.mem_insert, exists_mem_cons_iff, hrule]
        tauto

/-! ## How a document is read -/

/-- The value is inherited where nothing is selected, and else is a selected one. -/
def Selected {α β ε : Type} (normalize : α → Except ε β) (selected : Option (List α))
    (inherited : Finset β) (b : β) : Prop :=
  match selected with
  | none => b ∈ inherited
  | some selected => ∃ a ∈ selected, normalize a = .ok b

/-- The normal form of a selected program. -/
def selectProgram (program : String) : Except PolicyError String := do
  let normalized ← normalizeProgramIdentifier program
  validateProgramInvariant normalized
  return normalized

variable {base : BaseTemplate}

theorem mem_compileCapabilitySelection {selected : Option (List Capability)}
    {caps : Finset Capability} (h : compileCapabilitySelection base selected = .ok caps)
    (c : Capability) :
    c ∈ caps ↔ Selected (Except.ok : Capability → Except PolicyError Capability) selected
      (templateCapabilities base) c := by
  cases selected with
  | none =>
    simp only [compileCapabilitySelection, Except.ok.injEq] at h
    rw [← h]
    rfl
  | some selected =>
    simp only [compileCapabilitySelection, bind_eq_ok, pure_eq_ok] at h
    obtain ⟨_, -, rfl⟩ := h
    simp [Selected]

theorem mem_compileNameSelection {normalize : String → Except PolicyError String}
    {expansion : PolicyError} {selected : Option (List String)} {inherited names : Finset String}
    (h : compileNameSelection normalize expansion selected inherited = .ok names) (n : String) :
    n ∈ names ↔ Selected normalize selected inherited n := by
  cases selected with
  | none =>
    simp only [compileNameSelection, Except.ok.injEq] at h
    rw [← h]
    rfl
  | some selected =>
    simp only [compileNameSelection, bind_eq_ok, pure_eq_ok] at h
    obtain ⟨normalized, hcollect, _, -, rfl⟩ := h
    rw [mem_toFinset, mem_collect hcollect]
    rfl

theorem mem_compileIdentitySelection {selected : List RunAs}
    {runAs : Finset RunAs} (h : compileIdentitySelection base selected = .ok runAs) (r : RunAs) :
    r ∈ runAs ↔ ∃ a ∈ selected, validateRunAs a = .ok r := by
  simp only [compileIdentitySelection, bind_eq_ok, pure_eq_ok] at h
  obtain ⟨validated, hcollect, _, -, rfl⟩ := h
  rw [mem_toFinset, mem_collect hcollect]

theorem narrowLimit_eq_getD {selected : Option Nat} {inherited limit : Nat} {label : String}
    (h : narrowLimit selected inherited label = .ok limit) :
    limit = selected.getD inherited := by
  simp only [narrowLimit, bind_eq_ok, pure_eq_ok] at h
  obtain ⟨_, -, rfl⟩ := h
  rfl

/-- The limits of a document: its own where it gives one, and the inherited ones elsewhere. -/
def LimitsOverlay.over (overlay : LimitsOverlay) (inherited : EffectiveLimits) :
    EffectiveLimits where
  maxDeadlineMs := overlay.maxDeadlineMs.getD inherited.maxDeadlineMs
  maxBytes := overlay.maxBytes.getD inherited.maxBytes
  maxOutputBytes := overlay.maxOutputBytes.getD inherited.maxOutputBytes
  maxParallel := overlay.maxParallel.getD inherited.maxParallel
  maxOperations := overlay.maxOperations.getD inherited.maxOperations

theorem compileLimits_eq_over {overlay : LimitsOverlay}
    {limits : EffectiveLimits} (h : compileLimits base overlay = .ok limits) :
    limits = overlay.over (templateLimits base) := by
  simp only [compileLimits, bind_eq_ok, pure_eq_ok] at h
  obtain ⟨_, hdeadline, _, hbytes, _, houtput, _, hparallel, _, hoperations, rfl⟩ := h
  rw [narrowLimit_eq_getD hdeadline, narrowLimit_eq_getD hbytes, narrowLimit_eq_getD houtput,
    narrowLimit_eq_getD hparallel, narrowLimit_eq_getD hoperations]
  rfl

/-- What each field of the representation of a document is, said by its elements. -/
structure Represents (ir : PolicyIr) (document : PolicyDocument) : Prop where
  schemaVersion : ir.schemaVersion = policySchemaVersion
  base : ir.base = document.base
  capabilities : ∀ c, c ∈ ir.capabilities ↔
    Selected (Except.ok : Capability → Except PolicyError Capability) document.capabilities
      (templateCapabilities document.base) c ∧ .capability c ∉ document.deny
  runAs : ∀ r, r ∈ ir.runAs ↔ ∃ a ∈ document.runAs, validateRunAs a = .ok r
  limits : ir.limits = document.limits.over (templateLimits document.base)
  limitsWithin : ir.limits.Within (templateLimits document.base)
  programs : ∀ p, p ∈ ir.processPrograms ↔ Capability.processRun ∈ ir.capabilities ∧
    Selected selectProgram document.process.programs (templatePrograms document.base) p ∧
      ∀ rule ∈ document.deny, ¬rule.DeniesProgram p
  envKeys : ∀ k, k ∈ ir.processEnvKeys ↔ Capability.processRun ∈ ir.capabilities ∧
    Selected normalizeEnvKey document.process.envKeys (templateEnvKeys document.base) k
  allowedPaths : ir.allowedPaths = ∅
  deniedPaths : ∀ path, path ∈ ir.deniedPaths ↔ ∃ rule ∈ document.deny, rule.DeniesPath path

variable {document : PolicyDocument}

/-- What each field of a compiled representation is. -/
theorem represents_of_compileIr (h : compileIr document = .ok ir) : Represents ir document := by
  simp only [compileIr, bind_eq_ok, rejectIf_eq_ok, pure_eq_ok] at h
  obtain ⟨_, _, caps, hcaps, runAs, hrunAs, limits, hlimits, programs, hprograms, envKeys,
    henvKeys, denied, hdenied, _, _, rfl⟩ := h
  obtain ⟨hdeniedCaps, hdeniedPrograms, hdeniedPaths⟩ := foldlM_applyDenyRule hdenied
  constructor
  case schemaVersion => rfl
  case base => rfl
  case capabilities =>
    intro c
    rw [hdeniedCaps, mem_compileCapabilitySelection hcaps]
  case runAs => exact mem_compileIdentitySelection hrunAs
  case limits => exact compileLimits_eq_over hlimits
  case limitsWithin => exact compileLimits_within hlimits
  case programs =>
    intro p
    dsimp only
    -- the programs are cleared where the document leaves no `processRun`
    split
    · rename_i hruns
      rw [hdeniedPrograms, mem_compileNameSelection hprograms]
      simp only [hruns, true_and]
      rfl
    · rename_i hruns
      simp [hruns]
  case envKeys =>
    intro k
    dsimp only
    split
    · rename_i hruns
      rw [mem_compileNameSelection henvKeys]
      simp only [hruns, true_and]
    · rename_i hruns
      simp [hruns]
  case allowedPaths => rfl
  case deniedPaths =>
    intro path
    rw [hdeniedPaths]
    simp

theorem compileIr_of_compilePolicy {backend : DigestBackend}
    {policy : CompiledPolicy} (h : compilePolicy backend document = .ok policy) :
    compileIr document = .ok policy.ir := by
  simp only [compilePolicy, bind_eq_ok, pure_eq_ok] at h
  obtain ⟨ir, hir, _, _, rfl⟩ := h
  exact hir

/-! ## Tightened documents -/

/-- A selection of some elements of another one.  Where the other selects nothing, and so inherits
    everything, any selection is one of some elements. -/
def Narrows {α : Type} (narrow wide : Option (List α)) : Prop :=
  ∀ selected ∈ wide, ∃ kept ∈ narrow, kept ⊆ selected

/-- A limit no higher than another one.  Where the other is not given, and so is inherited, any
    limit is. -/
def Lowers (narrow wide : Option Nat) : Prop :=
  ∀ limit ∈ wide, ∃ lower ∈ narrow, lower ≤ limit

/-- The document adds deny rules, removes elements of selections or makes new ones, and lowers
    limits. -/
structure PolicyDocument.Tightens (narrow wide : PolicyDocument) : Prop where
  base : narrow.base = wide.base
  capabilities : Narrows narrow.capabilities wide.capabilities
  runAs : narrow.runAs ⊆ wide.runAs
  programs : Narrows narrow.process.programs wide.process.programs
  envKeys : Narrows narrow.process.envKeys wide.process.envKeys
  maxDeadlineMs : Lowers narrow.limits.maxDeadlineMs wide.limits.maxDeadlineMs
  maxBytes : Lowers narrow.limits.maxBytes wide.limits.maxBytes
  maxOutputBytes : Lowers narrow.limits.maxOutputBytes wide.limits.maxOutputBytes
  maxParallel : Lowers narrow.limits.maxParallel wide.limits.maxParallel
  maxOperations : Lowers narrow.limits.maxOperations wide.limits.maxOperations
  deny : wide.deny ⊆ narrow.deny

variable {α : Type}

/-- What a narrower selection selects, the wider one does, provided that the narrower one selects
    among the inherited values. -/
theorem Selected.mono {β ε : Type} {normalize : α → Except ε β} {narrow wide : Option (List α)}
    {inherited : Finset β} {b : β} (hnarrows : Narrows narrow wide)
    (hinherited : b ∈ inherited) (h : Selected normalize narrow inherited b) :
    Selected normalize wide inherited b := by
  cases wide with
  | none => exact hinherited
  | some selected =>
    obtain ⟨kept, hkept, hsub⟩ := hnarrows selected rfl
    obtain rfl := Option.mem_def.mp hkept
    obtain ⟨a, ha, hb⟩ := h
    exact ⟨a, hsub ha, hb⟩

theorem Lowers.getD_le {narrow wide : Option Nat} {inherited : Nat} (hlowers : Lowers narrow wide)
    (hinherited : narrow.getD inherited ≤ inherited) :
    narrow.getD inherited ≤ wide.getD inherited := by
  cases wide with
  | none => exact hinherited
  | some limit =>
    obtain ⟨lower, hlower, hle⟩ := hlowers limit rfl
    obtain rfl := Option.mem_def.mp hlower
    exact hle

/-- The representation of a tightened document is inside that of the other one. -/
theorem within_of_tightens {narrow wide : PolicyDocument}
    (htightens : narrow.Tightens wide) (hnarrow : compileIr narrow = .ok ir)
    (hwide : compileIr wide = .ok ir') : ir.Within ir' := by
  have hir := represents_of_compileIr hnarrow
  have hir' := represents_of_compileIr hwide
  have hceiling := narrowed_of_compileIr hnarrow
  have hbase := htightens.base
  rw [hbase] at hceiling
  have hcapabilities : ir.capabilities ⊆ ir'.capabilities := by
    intro c hc
    obtain ⟨hselected, hdenied⟩ := (hir.capabilities c).mp hc
    rw [hbase] at hselected
    exact (hir'.capabilities c).mpr ⟨hselected.mono htightens.capabilities
      (hceiling.capabilities hc), fun hrule => hdenied (htightens.deny hrule)⟩
  constructor
  case capabilities => exact hcapabilities
  case runAs =>
    intro r hr
    obtain ⟨a, ha, hvalid⟩ := (hir.runAs r).mp hr
    exact (hir'.runAs r).mpr ⟨a, htightens.runAs ha, hvalid⟩
  case limits =>
    have hlimits := hir.limitsWithin
    rw [hir.limits, hbase] at hlimits
    rw [hir.limits, hir'.limits, hbase]
    exact ⟨htightens.maxDeadlineMs.getD_le hlimits.deadline,
      htightens.maxBytes.getD_le hlimits.bytes,
      htightens.maxOutputBytes.getD_le hlimits.outputBytes,
      htightens.maxParallel.getD_le hlimits.parallel,
      htightens.maxOperations.getD_le hlimits.operations⟩
  case programs =>
    intro p hp
    obtain ⟨hruns, hselected, hdenied⟩ := (hir.programs p).mp hp
    rw [hbase] at hselected
    -- a document that keeps `processRun` tightens only one that has it
    exact (hir'.programs p).mpr ⟨hcapabilities hruns, hselected.mono htightens.programs
      (hceiling.programs hp), fun rule hrule => hdenied rule (htightens.deny hrule)⟩
  case envKeys =>
    intro k hk
    obtain ⟨hruns, hselected⟩ := (hir.envKeys k).mp hk
    rw [hbase] at hselected
    exact (hir'.envKeys k).mpr ⟨hcapabilities hruns,
      hselected.mono htightens.envKeys (hceiling.envKeys hk)⟩
  case allowedPaths => rw [hir.allowedPaths, hir'.allowedPaths]
  case deniedPaths =>
    intro path hpath
    obtain ⟨rule, hrule, hdenies⟩ := (hir'.deniedPaths path).mp hpath
    exact (hir.deniedPaths path).mpr ⟨rule, htightens.deny hrule, hdenies⟩

/-- **Tightening grants nothing**: what the policy of a tightened document allows, the policy of
    the document before allows. -/
theorem tightened_policy_allows_less (backend : DigestBackend) (narrow wide : PolicyDocument)
    (policy policy' : CompiledPolicy) (htightens : narrow.Tightens wide)
    (hnarrow : compilePolicy backend narrow = .ok policy)
    (hwide : compilePolicy backend wide = .ok policy') (intent : TypedIntent)
    (hallowed : (policy.explain intent).allowed = true) :
    (policy'.explain intent).allowed = true := by
  apply explain_allowed_of_evaluateIntent
  refine evaluateIntent_mono ?_ (evaluateIntent_of_explain_allowed hallowed)
  exact within_of_tightens htightens (compileIr_of_compilePolicy hnarrow)
    (compileIr_of_compilePolicy hwide)

/-- A document on the red template that adds nothing to it but an identity. -/
def plainDocument : PolicyDocument where
  schemaVersion := 1
  base := .red
  runAs := [.uid 1000]

/-- What it compiles to: the template. -/
def plainIr : PolicyIr where
  schemaVersion := 1
  base := .red
  capabilities := templateCapabilities .red
  runAs := {.uid 1000}
  limits := templateLimits .red
  processPrograms := templatePrograms .red
  processEnvKeys := templateEnvKeys .red
  allowedPaths := ∅
  deniedPaths := ∅

/-- `unameDocument` is the plain document with selections, limits and deny rules. -/
theorem uname_allowed_by_plain_policy :
    compilePolicy jsonBackend unameDocument = .ok unamePolicy.ir.policy ∧
      compilePolicy jsonBackend plainDocument = .ok plainIr.policy ∧
      (unamePolicy.ir.policy.explain unameIntent).allowed = true ∧
      (plainIr.policy.explain unameIntent).allowed = true := by
  have hnarrow : compilePolicy jsonBackend unameDocument = .ok unamePolicy.ir.policy :=
    compilePolicy_jsonBackend (by decide)
  have hwide : compilePolicy jsonBackend plainDocument = .ok plainIr.policy :=
    compilePolicy_jsonBackend (by decide)
  have hallowed : (unamePolicy.ir.policy.explain unameIntent).allowed = true :=
    explain_allowed_of_evaluateIntent (by decide)
  have htightens : unameDocument.Tightens plainDocument := by
    constructor <;> simp [Narrows, Lowers, unameDocument, plainDocument]
  exact ⟨hnarrow, hwide, hallowed, tightened_policy_allows_less jsonBackend unameDocument
    plainDocument _ _ htightens hnarrow hwide unameIntent hallowed⟩

/-! ## Documents that say the same -/

/-- The lists have the same members up to a relation, whatever their order and repetitions. -/
def SameMembers {α : Type} (r : α → α → Prop) (l l' : List α) : Prop :=
  (∀ a ∈ l, ∃ b ∈ l', r a b) ∧ ∀ b ∈ l', ∃ a ∈ l, r a b

/-- Both select nothing, or both select the same. -/
def SameSelection {α : Type} (r : α → α → Prop) : Option (List α) → Option (List α) → Prop
  | none, none => True
  | some l, some l' => SameMembers r l l'
  | _, _ => False

/-- Spellings of one program. -/
def SameProgram (a b : String) : Prop :=
  normalizeProgramIdentifier a = normalizeProgramIdentifier b

/-- The same rule up to the spelling of its program or path. -/
inductive SameRule : DenyRule → DenyRule → Prop where
  | capability (c : Capability) : SameRule (.capability c) (.capability c)
  | program {a b : String} (h : SameProgram a b) : SameRule (.program a) (.program b)
  | pathPrefix {flavor : PathFlavor} {a b : String}
      (h : normalizePath flavor a = normalizePath flavor b) :
      SameRule (.pathPrefix flavor a) (.pathPrefix flavor b)

/-- The documents are the same but for order and repetition in their lists and for the spelling of
    programs and paths. -/
structure PolicyDocument.SaysSame (document document' : PolicyDocument) : Prop where
  schemaVersion : document.schemaVersion = document'.schemaVersion
  base : document.base = document'.base
  capabilities : SameSelection (· = ·) document.capabilities document'.capabilities
  runAs : SameMembers (· = ·) document.runAs document'.runAs
  limits : document.limits = document'.limits
  programs : SameSelection SameProgram document.process.programs document'.process.programs
  envKeys : SameSelection (· = ·) document.process.envKeys document'.process.envKeys
  deny : SameMembers SameRule document.deny document'.deny

/-- Values with equal normal forms are selected alike. -/
theorem SameMembers.exists_iff {r : α → α → Prop} {P : α → Prop} {l l' : List α}
    (h : SameMembers r l l') (hr : ∀ a b, r a b → (P a ↔ P b)) :
    (∃ a ∈ l, P a) ↔ ∃ b ∈ l', P b := by
  constructor
  · rintro ⟨a, ha, hp⟩
    obtain ⟨b, hb, hab⟩ := h.1 a ha
    exact ⟨b, hb, (hr a b hab).mp hp⟩
  · rintro ⟨b, hb, hp⟩
    obtain ⟨a, ha, hab⟩ := h.2 b hb
    exact ⟨a, ha, (hr a b hab).mpr hp⟩

theorem SameSelection.selected_iff {β ε : Type} {r : α → α → Prop}
    {normalize : α → Except ε β} {selected selected' : Option (List α)} {inherited : Finset β}
    (h : SameSelection r selected selected') (hr : ∀ a b, r a b → normalize a = normalize b)
    (b : β) : Selected normalize selected inherited b ↔
      Selected normalize selected' inherited b := by
  cases selected <;> cases selected'
  case none.none => exact Iff.rfl
  case some.some => exact SameMembers.exists_iff h fun a a' haa' => by rw [hr a a' haa']
  all_goals exact h.elim

variable {rule rule' : DenyRule}

theorem SameRule.deniesProgram_iff (h : SameRule rule rule')
    (p : String) : rule.DeniesProgram p ↔ rule'.DeniesProgram p := by
  cases h with
  | capability c => rfl
  | program h =>
    rw [SameProgram] at h
    simp [DenyRule.DeniesProgram, h]
  | pathPrefix h => simp [DenyRule.DeniesProgram]

theorem SameRule.deniesPath_iff (h : SameRule rule rule')
    (path : NormalizedPath) : rule.DeniesPath path ↔ rule'.DeniesPath path := by
  cases h with
  | capability c => rfl
  | program h => simp [DenyRule.DeniesPath]
  | pathPrefix h =>
    simp only [DenyRule.DeniesPath, DenyRule.pathPrefix.injEq]
    constructor
    · rintro ⟨_, ⟨rfl, rfl⟩, hpath⟩
      exact ⟨_, ⟨rfl, rfl⟩, h ▸ hpath⟩
    · rintro ⟨_, ⟨rfl, rfl⟩, hpath⟩
      exact ⟨_, ⟨rfl, rfl⟩, h ▸ hpath⟩

theorem SameRule.eq_capability_iff (h : SameRule rule rule')
    (c : Capability) : .capability c = rule ↔ .capability c = rule' := by
  cases h <;> simp

theorem selectProgram_congr {a b : String} (h : SameProgram a b) :
    selectProgram a = selectProgram b := by
  rw [SameProgram] at h
  simp only [selectProgram, h]

/-- Documents that say the same have the same representation: every field of it is given by its
    elements, and these do not depend on what the documents differ in. -/
theorem ir_eq_of_saysSame {document' : PolicyDocument}
    (hsame : document.SaysSame document') (h : compileIr document = .ok ir)
    (h' : compileIr document' = .ok ir') : ir = ir' := by
  have hir := represents_of_compileIr h
  have hir' := represents_of_compileIr h'
  have hbase := hsame.base
  have hdenied : ∀ (P : DenyRule → Prop), (∀ a b, SameRule a b → (P a ↔ P b)) →
      ((∃ rule ∈ document.deny, P rule) ↔ ∃ rule ∈ document'.deny, P rule) :=
    fun P hP => hsame.deny.exists_iff hP
  -- field by field
  have hcapabilities : ir.capabilities = ir'.capabilities := by
    ext c
    have hrule := hdenied (.capability c = ·) fun a b hab => hab.eq_capability_iff c
    simp only [exists_eq_right'] at hrule
    rw [hir.capabilities, hir'.capabilities, hbase, hrule,
      hsame.capabilities.selected_iff (fun a b hab => by rw [hab])]
  have hrunAs : ir.runAs = ir'.runAs := by
    ext r
    rw [hir.runAs, hir'.runAs]
    exact hsame.runAs.exists_iff fun a b hab => by rw [hab]
  have hprograms : ir.processPrograms = ir'.processPrograms := by
    ext p
    have hrule := hdenied (·.DeniesProgram p) fun a b hab => hab.deniesProgram_iff p
    have hnone := not_congr hrule
    push Not at hnone
    rw [hir.programs, hir'.programs, hcapabilities, hbase, hnone,
      hsame.programs.selected_iff (fun a b hab => selectProgram_congr hab)]
  have henvKeys : ir.processEnvKeys = ir'.processEnvKeys := by
    ext k
    rw [hir.envKeys, hir'.envKeys, hcapabilities, hbase,
      hsame.envKeys.selected_iff (fun a b hab => by rw [hab])]
  have hdeniedPaths : ir.deniedPaths = ir'.deniedPaths := by
    ext path
    rw [hir.deniedPaths, hir'.deniedPaths]
    exact hdenied _ fun a b hab => hab.deniesPath_iff path
  have hlimits : ir.limits = ir'.limits := by
    rw [hir.limits, hir'.limits, hbase, hsame.limits]
  have hallowedPaths : ir.allowedPaths = ir'.allowedPaths := by
    rw [hir.allowedPaths, hir'.allowedPaths]
  have hschema : ir.schemaVersion = ir'.schemaVersion := by
    rw [hir.schemaVersion, hir'.schemaVersion]
  have hbases : ir.base = ir'.base := by
    rw [hir.base, hir'.base, hbase]
  cases ir
  cases ir'
  simp_all

/-- **One meaning, one policy.**  Documents that say the same compile to the same representation,
    canonical bytes and digest; and policies with the same canonical bytes decide every intent
    alike and for the same reason. -/
theorem policy_determined_by_meaning (backend : DigestBackend)
    (hinjective : ∀ ir ir' bytes, backend.toVec ir = .ok bytes → backend.toVec ir' = .ok bytes →
      ir = ir') :
    (∀ document document' policy policy', document.SaysSame document' →
      compilePolicy backend document = .ok policy →
      compilePolicy backend document' = .ok policy' →
      policy.ir = policy'.ir ∧
        canonicalBytes backend policy.ir = canonicalBytes backend policy'.ir ∧
        policy.digest = policy'.digest) ∧
    (∀ (policy policy' : CompiledPolicy) (bytes : List UInt8),
      canonicalBytes backend policy.ir = .ok bytes →
      canonicalBytes backend policy'.ir = .ok bytes →
      ∀ intent, (policy.explain intent).allowed = (policy'.explain intent).allowed ∧
        (policy.explain intent).reasonCode = (policy'.explain intent).reasonCode) := by
  constructor
  · intro document document' policy policy' hsame h h'
    have hir : policy.ir = policy'.ir := ir_eq_of_saysSame hsame (compileIr_of_compilePolicy h)
      (compileIr_of_compilePolicy h')
    refine ⟨hir, by rw [hir], ?_⟩
    -- the digest is computed from the representation alone
    simp only [compilePolicy, bind_eq_ok, pure_eq_ok] at h h'
    obtain ⟨ir, _, canonical, hcanonical, rfl⟩ := h
    obtain ⟨ir', _, canonical', hcanonical', rfl⟩ := h'
    obtain rfl : ir = ir' := hir
    rw [hcanonical] at hcanonical'
    rw [Except.ok.inj hcanonical']
  · intro policy policy' bytes h h' intent
    simp only [canonicalBytes, mapError_eq_ok] at h h'
    have hir := hinjective _ _ _ h h'
    simp only [CompiledPolicy.explain, hir]
    split <;> exact ⟨rfl, rfl⟩

/-- `unameDocument` with its lists turned around, entries repeated and programs respelled. -/
def respelledDocument : PolicyDocument where
  schemaVersion := 1
  base := .red
  runAs := [.uid 1000, .uid 1000]
  limits := { maxDeadlineMs := some 60000 }
  process := { programs := some ["WhoAmI", "uname", "whoami"] }
  deny := [.program "whoami.exe", .capability .processInspect, .program "WHOAMI"]

theorem respelled_says_same : unameDocument.SaysSame respelledDocument := by
  have huname : SameProgram "UNAME.exe" "uname" := by unfold SameProgram; decide
  have hupper : SameProgram "whoami" "WHOAMI" := by unfold SameProgram; decide
  have hmixed : SameProgram "whoami" "WhoAmI" := by unfold SameProgram; decide
  have hsuffix : SameProgram "whoami" "whoami.exe" := by unfold SameProgram; decide
  have hself : SameProgram "whoami" "whoami" := rfl
  have hinspect := SameRule.capability .processInspect
  constructor
  case programs =>
    simp [SameSelection, SameMembers, unameDocument, respelledDocument, huname, hmixed, hself]
  case deny =>
    simp [SameMembers, unameDocument, respelledDocument, hinspect, SameRule.program hupper,
      SameRule.program hsuffix]
  all_goals simp [SameSelection, SameMembers, unameDocument, respelledDocument]

theorem respelled_uname_policy : unameDocument.SaysSame respelledDocument ∧
    ∃ policy policy', compilePolicy jsonBackend unameDocument = .ok policy ∧
      compilePolicy jsonBackend respelledDocument = .ok policy' ∧
      policy.ir = policy'.ir ∧ policy.digest = policy'.digest ∧
      (policy.explain unameIntent).reasonCode = (policy'.explain unameIntent).reasonCode := by
  have hinjective : ∀ ir ir' bytes, jsonBackend.toVec ir = .ok bytes →
      jsonBackend.toVec ir' = .ok bytes → ir = ir' := by
    intro ir ir' bytes h h'
    exact canonicalJson_injective ((Except.ok.inj h).trans (Except.ok.inj h').symm)
  obtain ⟨hmeaning, hbytes⟩ := policy_determined_by_meaning jsonBackend hinjective
  have h : compilePolicy jsonBackend unameDocument = .ok unamePolicy.ir.policy :=
    compilePolicy_jsonBackend (by decide)
  have h' : compilePolicy jsonBackend respelledDocument = .ok unamePolicy.ir.policy :=
    compilePolicy_jsonBackend (by decide)
  obtain ⟨hir, -, hdigest⟩ := hmeaning _ _ _ _ respelled_says_same h h'
  exact ⟨respelled_says_same, _, _, h, h', hir, hdigest, (hbytes _ _ _ rfl rfl unameIntent).2⟩

end Serctl.Policy
