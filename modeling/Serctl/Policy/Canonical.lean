import Mathlib.Data.Prod.Lex
import Mathlib.Data.String.Basic
import Mathlib.Data.Sum.Order
import Serctl.Lib.Json
import Serctl.Lib.Sha256
import Serctl.Policy.Compile

/-!
# The canonical text of a representation

The compact JSON that the digest of a policy covers: the fields of the representation in the order
of their declaration, and every set as the array of its elements in order.  Two representations
with the same text are the same.
-/

namespace Serctl.Policy

open Lib Lib.Codec

/-! ## The orders of the sets -/

/-- Capabilities in the order of their declaration. -/
def Capability.rank : Capability → Nat
  | .fsList => 0
  | .fsRead => 1
  | .processInspect => 2
  | .fsWriteNew => 3
  | .transferRead => 4
  | .transferWrite => 5
  | .processRun => 6

instance : LinearOrder Capability :=
  LinearOrder.lift' Capability.rank (by
    intro c d h
    cases c <;> cases d <;> first | rfl | cases h)

/-- Named identities come before numeric ones. -/
def RunAs.rank : RunAs → Lex (String ⊕ Nat)
  | .user name => toLex (.inl name)
  | .uid value => toLex (.inr value)

instance : LinearOrder RunAs :=
  LinearOrder.lift' RunAs.rank (by
    intro r s h
    cases r <;> cases s <;> simp_all [RunAs.rank])

/-- The order of the flavors. -/
def PathFlavor.rank : PathFlavor → Nat
  | .posix => 0
  | .windows => 1

instance : LinearOrder NormalizedPath :=
  LinearOrder.lift' (fun path => toLex (path.flavor.rank, path.value)) (by
    intro p q h
    obtain ⟨flavor, value⟩ := p
    obtain ⟨flavor', value'⟩ := q
    cases flavor <;> cases flavor' <;> simp_all [PathFlavor.rank])

/-! ## Codecs -/

/-- The names of the templates. -/
def baseName : BaseTemplate → String
  | .green => "green"
  | .yellow => "yellow"
  | .red => "red"

/-- Templates, by name. -/
def baseCodec : Codec BaseTemplate :=
  named baseName [.green, .yellow, .red]
    (by intro b; cases b <;> decide) (by intro b; cases b <;> decide)

/-- The names of the capabilities. -/
def capabilityName : Capability → String
  | .fsList => "fs_list"
  | .fsRead => "fs_read"
  | .processInspect => "process_inspect"
  | .fsWriteNew => "fs_write_new"
  | .transferRead => "transfer_read"
  | .transferWrite => "transfer_write"
  | .processRun => "process_run"

/-- Capabilities, by name. -/
def capabilityCodec : Codec Capability :=
  named capabilityName [.fsList, .fsRead, .processInspect, .fsWriteNew, .transferRead,
      .transferWrite, .processRun]
    (by intro c; cases c <;> decide) (by intro c; cases c <;> decide)

/-- The names of the flavors. -/
def flavorName : PathFlavor → String
  | .posix => "posix"
  | .windows => "windows"

/-- Flavors, by name. -/
def flavorCodec : Codec PathFlavor :=
  named flavorName [.posix, .windows]
    (by intro f; cases f <;> decide) (by intro f; cases f <;> decide)

/-- A number with the closing brace behind it. -/
def lastNumber : Codec Nat := decimal 125 stop_brace

/-- A number with the comma behind it. -/
def numberField : Codec Nat := decimal 44 stop_comma

/-- An identity: the tag comes first. -/
def runAsCodec : Codec RunAs :=
  convert
    (Json.either
      (after "\x7b\"kind\":\"user\",\"name\":" (before Json.text "\x7d" isPrintable_brace)
        (by decide))
      (after "\x7b\"kind\":\"uid\",\"value\":" lastNumber (by decide))
      (by
        intro n _ rest
        rfl))
    (fun r => match r with
      | .user name => .inl name
      | .uid value => .inr value)
    (fun s => some (match s with
      | .inl name => .user name
      | .inr value => .uid value))
    (fun _ => True) (by
      intro r _
      cases r <;> exact ⟨trivial, rfl⟩)

/-- The JSON of a path. -/
def pathCodec : Codec NormalizedPath :=
  convert
    (seq (after "\x7b\"flavor\":" flavorCodec (by decide))
      (after ",\"value\":" (before Json.text "\x7d" isPrintable_brace) (by decide)))
    (fun path => (path.flavor, path.value)) (fun p => some ⟨p.1, p.2⟩) (fun _ => True) (by
      intro path _
      exact ⟨⟨trivial, trivial⟩, rfl⟩)

/-- The JSON of limits. -/
def limitsCodec : Codec EffectiveLimits :=
  convert
    (seq (after "\x7b\"max_deadline_ms\":" numberField (by decide)) <|
      seq (after "\"max_bytes\":" numberField (by decide)) <|
      seq (after "\"max_output_bytes\":" numberField (by decide)) <|
      seq (after "\"max_parallel\":" numberField (by decide))
        (after "\"max_operations\":" lastNumber (by decide)))
    (fun l => (l.maxDeadlineMs, l.maxBytes, l.maxOutputBytes, l.maxParallel, l.maxOperations))
    (fun p => some ⟨p.1, p.2.1, p.2.2.1, p.2.2.2.1, p.2.2.2.2⟩) (fun _ => True) (by
      intro l _
      exact ⟨⟨trivial, trivial, trivial, trivial, trivial⟩, rfl⟩)

/-- Capabilities in order. -/
def capabilitySet : Codec (Finset Capability) :=
  Json.orderedSet capabilityCodec fun _ _ => ⟨34, _, rfl, by decide⟩

/-- Identities in order. -/
def runAsSet : Codec (Finset RunAs) :=
  Json.orderedSet runAsCodec (by
    intro r _
    cases r <;> exact ⟨123, _, rfl, by decide⟩)

/-- Names in order. -/
def nameSet : Codec (Finset String) :=
  Json.orderedSet Json.text fun _ _ => ⟨34, _, rfl, by decide⟩

/-- Paths in order. -/
def pathSet : Codec (Finset NormalizedPath) :=
  Json.orderedSet pathCodec fun _ _ => ⟨123, _, rfl, by decide⟩

theorem isPrintable_schemaVersion : IsPrintable "\x7b\"schema_version\":" := by decide

/-- A representation, field by field. -/
def irCodec : Codec PolicyIr :=
  convert
    (seq (after "\x7b\"schema_version\":" numberField isPrintable_schemaVersion) <|
      seq (after "\"base\":" baseCodec (by decide)) <|
      seq (after ",\"capabilities\":" capabilitySet (by decide)) <|
      seq (after ",\"run_as\":" runAsSet (by decide)) <|
      seq (after ",\"limits\":" limitsCodec (by decide)) <|
      seq (after ",\"process_programs\":" nameSet (by decide)) <|
      seq (after ",\"process_env_keys\":" nameSet (by decide)) <|
      seq (after ",\"allowed_paths\":" pathSet (by decide))
        (after ",\"denied_paths\":" (before pathSet "\x7d" isPrintable_brace) (by decide)))
    (fun ir => (ir.schemaVersion, ir.base, ir.capabilities, ir.runAs, ir.limits,
      ir.processPrograms, ir.processEnvKeys, ir.allowedPaths, ir.deniedPaths))
    (fun p => some ⟨p.1, p.2.1, p.2.2.1, p.2.2.2.1, p.2.2.2.2.1, p.2.2.2.2.2.1, p.2.2.2.2.2.2.1,
      p.2.2.2.2.2.2.2.1, p.2.2.2.2.2.2.2.2⟩) (fun _ => True) (by
      intro ir _
      exact ⟨⟨trivial, trivial, fun _ _ => trivial, fun _ _ => trivial, trivial,
        fun _ _ => trivial, fun _ _ => trivial, fun _ _ => trivial, fun _ _ => trivial⟩, rfl⟩)

/-- The text that the digest of a policy covers. -/
def canonicalJson (ir : PolicyIr) : List UInt8 := irCodec.encode ir

/-- **The canonical text names its representation.** -/
theorem canonicalJson_injective {ir ir' : PolicyIr} (h : canonicalJson ir = canonicalJson ir') :
    ir = ir' :=
  irCodec.encode_injective trivial trivial h

/-! ## Policies as they are compiled -/

/-- The serializer and the hash function as they are. -/
def jsonBackend : DigestBackend where
  toVec ir := .ok (canonicalJson ir)
  sha256 := Sha256.hash

/-- The policy of a representation. -/
def PolicyIr.policy (ir : PolicyIr) : CompiledPolicy where
  ir := ir
  digest := ⟨Text.hexEncode (Sha256.hash (policyDigestDomain ++ canonicalJson ir))⟩

theorem compilePolicy_jsonBackend {document : PolicyDocument} {ir : PolicyIr}
    (h : compileIr document = .ok ir) :
    compilePolicy jsonBackend document = .ok ir.policy := by
  simp only [compilePolicy, h, canonicalBytes, jsonBackend]
  rfl

theorem eq_policy_of_compilePolicy {document : PolicyDocument} {policy : CompiledPolicy}
    (h : compilePolicy jsonBackend document = .ok policy) : policy = policy.ir.policy := by
  simp only [compilePolicy, Guard.bind_eq_ok, Guard.pure_eq_ok, canonicalBytes,
    Guard.mapError_eq_ok, jsonBackend, Except.ok.injEq] at h
  obtain ⟨ir, _, _, rfl, rfl⟩ := h
  rfl

/-- A policy from the text of its document; `parse` is the parser of the schema. -/
def compilePolicyJson (parse : List UInt8 → Except String PolicyDocument) (bytes : List UInt8) :
    Except PolicyError CompiledPolicy := do
  Guard.rejectIf (bytes.length > maxPolicyDocumentBytes)
    ⟨.policyTooLarge, "policy document exceeds 64 KiB"⟩
  let document ← (parse bytes).mapError fun error =>
    ⟨.schemaInvalid, s!"parse policy schema: {error}"⟩
  compilePolicy jsonBackend document

end Serctl.Policy
