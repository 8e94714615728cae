import Mathlib.Data.Finset.Basic
import Serctl.Lib.Guard
import Serctl.Lib.Text

/-!
# Policy schema

The data of the policy crate: the schema-v1 policy document, the typed intents it is asked
about, the normalized intermediate representation that compilation produces, and the reason
codes of every refusal.

Counters and limits are natural numbers; nothing in this crate adds two of them without
having bounded both.  The ordered sets of the representation are finite sets.
-/

namespace Serctl.Policy

def policySchemaVersion : Nat := 1
def intentSchemaVersion : Nat := 1

def maxPolicyDocumentBytes : Nat := 64 * 1024
def maxPolicyCapabilities : Nat := 16
def maxPolicyIdentities : Nat := 16
def maxPolicyDenyRules : Nat := 256
def maxProcessPrograms : Nat := 32
def maxProcessEnvKeys : Nat := 16

def maxProgramBytes : Nat := 128
def maxIdentityBytes : Nat := 64
def maxEnvNameBytes : Nat := 64
def maxEnvValueBytes : Nat := 1024
def maxEnvCount : Nat := 16
def maxEnvTotalBytes : Nat := 8 * 1024
def maxArgCount : Nat := 64
def maxArgBytes : Nat := 4 * 1024
def maxArgTotalBytes : Nat := 16 * 1024
def maxPathCount : Nat := 8
def maxPathBytes : Nat := 4 * 1024

/-! ## Documents and intents -/

/-- The templates that a policy narrows. -/
inductive BaseTemplate where
  | green
  | yellow
  | red
  deriving DecidableEq, Repr

/-- What a policy can allow. -/
inductive Capability where
  | fsList
  | fsRead
  | processInspect
  | fsWriteNew
  | transferRead
  | transferWrite
  | processRun
  deriving DecidableEq, Repr

/-- The identity that an intent runs under. -/
inductive RunAs where
  | user (name : String)
  | uid (value : Nat)
  deriving DecidableEq, Repr

/-- How paths are written. -/
inductive PathFlavor where
  | posix
  | windows
  deriving DecidableEq, Repr

/-- A path that an intent touches. -/
structure IntentPath where
  flavor : PathFlavor
  value : String
  deriving DecidableEq, Repr

/-- A variable of the environment. -/
structure EnvVar where
  name : String
  value : String
  deriving DecidableEq, Repr

/-- What an intent may use up. -/
structure IntentBudget where
  bytes : Nat
  outputBytes : Nat
  parallel : Nat
  operations : Nat
  deriving DecidableEq, Repr

/-- What a client wants to do, as policies see it. -/
structure TypedIntent where
  schemaVersion : Nat
  capability : Capability
  runAs : RunAs
  program : Option String := none
  argv : List String := []
  env : List EnvVar := []
  paths : List IntentPath := []
  budget : IntentBudget
  deadlineMs : Nat
  deriving DecidableEq, Repr

/-- The limits that a document sets. -/
structure LimitsOverlay where
  maxDeadlineMs : Option Nat := none
  maxBytes : Option Nat := none
  maxOutputBytes : Option Nat := none
  maxParallel : Option Nat := none
  maxOperations : Option Nat := none
  deriving DecidableEq, Repr

/-- Selections among the base template's fixed programs and environment keys.  `none`
    inherits the base set; an empty list denies all of it. -/
structure ProcessOverlay where
  programs : Option (List String) := none
  envKeys : Option (List String) := none
  deriving DecidableEq, Repr

/-- What a document takes away. -/
inductive DenyRule where
  | capability (capability : Capability)
  | program (name : String)
  | pathPrefix (flavor : PathFlavor) (value : String)
  deriving DecidableEq, Repr

/-- A policy as it is written. -/
structure PolicyDocument where
  schemaVersion : Nat
  base : BaseTemplate
  /-- Narrowing selection; every entry must already be in the base template. -/
  capabilities : Option (List Capability) := none
  runAs : List RunAs
  limits : LimitsOverlay := {}
  process : ProcessOverlay := {}
  deny : List DenyRule := []
  deriving DecidableEq, Repr

/-! ## Reasons and errors -/

/-- The reasons that decisions give. -/
inductive ReasonCode where
  | allowed
  | schemaInvalid
  | schemaUnsupported
  | policyTooLarge
  | policyLimitExceeded
  | capabilityExpandsBase
  | identityExpandsBase
  | programExpandsBase
  | environmentExpandsBase
  | invariantRootRunAs
  | invariantCommandInterpreter
  | invariantShellCommandFlag
  | invariantDangerousProgram
  | invariantEnvironmentInjection
  | invariantControlCharacter
  | invariantPathTraversal
  | invariantPathNotAbsolute
  | invariantAmbiguousPath
  | intentShapeMismatch
  | intentCapabilityDenied
  | intentIdentityDenied
  | intentProgramDenied
  | intentEnvironmentDenied
  | intentPathDenied
  | intentDeadlineInvalid
  | intentDeadlineExceeded
  | intentBudgetInvalid
  | intentBudgetExceeded
  | intentArgumentLimitExceeded
  | intentEnvironmentLimitExceeded
  | intentPathLimitExceeded
  deriving DecidableEq, Repr

/-- The names that refusals go by. -/
def ReasonCode.asStr : ReasonCode → String
  | .allowed => "allowed"
  | .schemaInvalid => "schema.invalid"
  | .schemaUnsupported => "schema.unsupported"
  | .policyTooLarge => "policy.too_large"
  | .policyLimitExceeded => "policy.limit_exceeded"
  | .capabilityExpandsBase => "policy.capability_expands_base"
  | .identityExpandsBase => "policy.identity_expands_base"
  | .programExpandsBase => "policy.program_expands_base"
  | .environmentExpandsBase => "policy.environment_expands_base"
  | .invariantRootRunAs => "invariant.root_run_as"
  | .invariantCommandInterpreter => "invariant.command_interpreter"
  | .invariantShellCommandFlag => "invariant.shell_command_flag"
  | .invariantDangerousProgram => "invariant.dangerous_program"
  | .invariantEnvironmentInjection => "invariant.environment_injection"
  | .invariantControlCharacter => "invariant.control_character"
  | .invariantPathTraversal => "invariant.path_traversal"
  | .invariantPathNotAbsolute => "invariant.path_not_absolute"
  | .invariantAmbiguousPath => "invariant.ambiguous_path"
  | .intentShapeMismatch => "intent.shape_mismatch"
  | .intentCapabilityDenied => "intent.capability_denied"
  | .intentIdentityDenied => "intent.identity_denied"
  | .intentProgramDenied => "intent.program_denied"
  | .intentEnvironmentDenied => "intent.environment_denied"
  | .intentPathDenied => "intent.path_denied"
  | .intentDeadlineInvalid => "intent.deadline_invalid"
  | .intentDeadlineExceeded => "intent.deadline_exceeded"
  | .intentBudgetInvalid => "intent.budget_invalid"
  | .intentBudgetExceeded => "intent.budget_exceeded"
  | .intentArgumentLimitExceeded => "intent.argument_limit_exceeded"
  | .intentEnvironmentLimitExceeded => "intent.environment_limit_exceeded"
  | .intentPathLimitExceeded => "intent.path_limit_exceeded"

/-- An error with its reason. -/
structure PolicyError where
  code : ReasonCode
  message : String
  deriving DecidableEq, Repr

/-! ## The normalized representation -/

/-- The limits that apply. -/
structure EffectiveLimits where
  maxDeadlineMs : Nat
  maxBytes : Nat
  maxOutputBytes : Nat
  maxParallel : Nat
  maxOperations : Nat
  deriving DecidableEq, Repr

/-- A path in its normal form. -/
structure NormalizedPath where
  flavor : PathFlavor
  value : String
  deriving DecidableEq, Repr

/-- A compiled policy. -/
structure PolicyIr where
  schemaVersion : Nat
  base : BaseTemplate
  capabilities : Finset Capability
  runAs : Finset RunAs
  limits : EffectiveLimits
  processPrograms : Finset String
  processEnvKeys : Finset String
  allowedPaths : Finset NormalizedPath
  deniedPaths : Finset NormalizedPath
  deriving DecidableEq

/-- The digest of a compiled policy, in hexadecimal. -/
structure PolicyDigest where
  asStr : String
  deriving DecidableEq, Repr

/-- A compiled policy with its digest. -/
structure CompiledPolicy where
  ir : PolicyIr
  digest : PolicyDigest
  deriving DecidableEq

/-- A decision as it is shown. -/
structure Explanation where
  allowed : Bool
  reasonCode : ReasonCode
  policyDigest : PolicyDigest
  deriving DecidableEq, Repr

end Serctl.Policy
