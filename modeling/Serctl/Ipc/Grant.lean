import Serctl.Audit.Record
import Serctl.Ipc.Frame

/-!
# Preludes and grants

The prelude declares one root request and what authorizes it: the call key of an unlocked profile,
or a grant.  A grant names one profile generation, a set of operation kinds and a budget, and each
request under it carries a signature by the grant's holder over the whole prelude.

Serialization, hashing, signatures and text escapes are not part of the repository: `Platform`
stands for them.
-/

namespace Serctl.Ipc

open Lib Lib.Guard

/-! ## Preludes -/

/-- What a client says about a request before it sends it. -/
structure V6RequestPrelude where
  protocolVersion : Nat
  clientSessionId : Bytes 16
  requestId : Bytes 16
  operationKind : String
  profileId : Option (Bytes 16)
  profileName : Option String
  grantId : Option (Bytes 16)
  popSignature : Option String
  profileProof : Option String
  requestedDeadlineUnixMs : Nat
  rootRequestHash : Bytes 32
  deriving DecidableEq, Repr

/-- The signed part of a prelude: everything but the signature. -/
structure PopPayload where
  protocolVersion : Nat
  clientSessionId : Bytes 16
  requestId : Bytes 16
  operationKind : String
  profileId : Option (Bytes 16)
  profileName : Option String
  grantId : Option (Bytes 16)
  profileProof : Option String
  requestedDeadlineUnixMs : Nat
  rootRequestHash : Bytes 32
  deriving DecidableEq, Repr

/-- The part of a prelude that a profile's call key proves. -/
structure ProfileProofPayload where
  protocolVersion : Nat
  clientSessionId : Bytes 16
  requestId : Bytes 16
  operationKind : String
  profileId : Option (Bytes 16)
  profileName : Option String
  grantId : Option (Bytes 16)
  requestedDeadlineUnixMs : Nat
  rootRequestHash : Bytes 32
  deriving DecidableEq, Repr

/-- Hashes, signatures, encodings and escapes. -/
structure Platform extends Audit.Crypto where
  base64Encode : List UInt8 → String
  base64Decode : String → Except String (List UInt8)
  /-- Is it the encoding of a public key? -/
  ed25519Key : Bytes 32 → Except String Unit
  ed25519Verify : Bytes 32 → List UInt8 → Bytes 64 → Except String Unit
  popJson : PopPayload → List UInt8
  profileProofJson : ProfileProofPayload → List UInt8
  frameJson : Frame → List UInt8
  escapeDebug : String → String

def ipcProtocolVersionV6 : Nat := 9

def v6MaxOperationKindBytes : Nat := 32

/-- A byte of the alphabet of operation kinds. -/
def isKindChar (c : Char) : Bool :=
  ('a' ≤ c && c ≤ 'z') || ('0' ≤ c && c ≤ '9') || c == '.' || c == '-' || c == '_' || c == '/'

/-- The rules for profile names. -/
def profileNameOk (name : String) : Bool :=
  !name.isEmpty && Text.byteLen name ≤ 128 && !Text.hasControl name &&
    !name.toList.any fun c => c == '/' || c == '\\' || c == ':'

/-- A name, if there is one, is a profile's. -/
def validatePreludeProfileName : Option String → Except Error Unit
  | none => .ok ()
  | some name => ensure (profileNameOk name = true)
      "prelude profile name must satisfy the vault profile-name rules"

/-- What every prelude must fulfil. -/
def V6RequestPrelude.validate (p : V6RequestPrelude) : Except Error Unit := do
  ensure (p.protocolVersion = ipcProtocolVersionV6)
    ("unsupported IPC v9 prelude version " ++ toString p.protocolVersion)
  ensure (p.operationKind.isEmpty = false ∧
      Text.byteLen p.operationKind ≤ v6MaxOperationKindBytes ∧
      p.operationKind.toList.all isKindChar = true)
    "operation kind must be 1..=32 bytes of [a-z0-9._/-]"
  ensure (¬(p.profileId.isSome = true ∧ p.grantId.isSome = true))
    "prelude must name at most one of profile_id and grant_id"
  ensure (p.grantId.isSome = p.popSignature.isSome)
    "a grant prelude must carry a proof-of-possession signature, and only a grant prelude may"
  ensure (p.profileId.isSome = p.profileProof.isSome)
    "a profile-id prelude must carry a profile call proof, and only a profile-id prelude may"
  validatePreludeProfileName p.profileName

/-- An array of the given length, or an error. -/
def ofLength (n : Nat) (bytes : List UInt8) (message : String) : Except Error (Bytes n) :=
  if h : bytes.length = n then .ok ⟨bytes, h⟩ else .error (.msg message)

theorem ofLength_eq_ok {n : Nat} {bytes : List UInt8} {message : String} {b : Bytes n} :
    ofLength n bytes message = .ok b ↔ b.val = bytes := by
  unfold ofLength
  split
  · simp only [Except.ok.injEq, Subtype.ext_iff, eq_comm]
  · rename_i h
    simp only [reduceCtorEq, false_iff]
    intro hb
    exact h (hb ▸ b.property)

/-- An error of the platform, in context. -/
def inContext {α : Type} (r : Except String α) (message : String) : Except Error α :=
  r.mapError fun m => (Failure.msg m).context message

section Checks

variable (x : Platform)

/-- The first frame of a connection must be the one that the prelude commits to. -/
def rootOkForRecv (prelude : V6RequestPrelude) (frame : Frame) : Bool :=
  x.sha256 (x.frameJson frame) = prelude.rootRequestHash ∧ frameKind frame = prelude.operationKind

def profileProofDomain : List UInt8 := Text.utf8Bytes "serctl/ipc/v6/profile-proof/v1" ++ [0]

/-- The message under a profile's call key. -/
def profileProofMessage (p : V6RequestPrelude) : Except Error (List UInt8) := do
  ensure (p.profileId.isSome = true) "profile proof requires a profile id"
  ensure (p.grantId = none) "grant requests cannot carry a profile proof"
  return profileProofDomain ++ x.profileProofJson ⟨p.protocolVersion, p.clientSessionId,
    p.requestId, p.operationKind, p.profileId, p.profileName, p.grantId,
    p.requestedDeadlineUnixMs, p.rootRequestHash⟩

/-- The proof that a profile's client makes. -/
def profilePreludeProof (callKey : Bytes 32) (p : V6RequestPrelude) : Except Error String := do
  let message ← profileProofMessage x p
  return x.base64Encode (x.hmacSha256 callKey message).val

/-- The proof under a profile's call key. -/
def verifyProfilePreludeProof (callKey : Bytes 32) (encoded : String) (p : V6RequestPrelude) :
    Except Error Unit := do
  ensure (Text.byteLen encoded ≤ 64) "profile call proof is oversized"
  let provided ← inContext (x.base64Decode encoded) "decode profile call proof"
  ensure (provided.length = 32) "profile call proof must decode to 32 bytes"
  let proof ← profilePreludeProof x callKey p
  let expected ← (x.base64Decode proof).mapError .msg
  ensure (expected = provided) "profile call proof verification failed"

/-- What is made under a call key is accepted under it. -/
theorem verifyProfilePreludeProof_of_made {callKey : Bytes 32} {p : V6RequestPrelude}
    {proof : String} (hdecode : ∀ bytes, x.base64Decode (x.base64Encode bytes) = .ok bytes)
    (hlength : ∀ bytes : Bytes 32, Text.byteLen (x.base64Encode bytes.val) ≤ 64)
    (hmade : profilePreludeProof x callKey p = .ok proof) :
    verifyProfilePreludeProof x callKey proof p = .ok () := by
  have hproof := hmade
  simp only [profilePreludeProof, bind_eq_ok, pure_eq_ok] at hproof
  obtain ⟨message, -, rfl⟩ := hproof
  have hmac := hdecode (x.hmacSha256 callKey message).val
  simp only [verifyProfilePreludeProof, bind_eq_ok, ensure_eq_ok, inContext, mapError_eq_ok]
  exact ⟨(), hlength _, _, hmac, (), (x.hmacSha256 callKey message).property, _, hmade, _, hmac,
    rfl⟩

end Checks

/-! ## Grants -/

def grantMinTtlSecs : Nat := 60

def grantMaxTtlSecs : Nat := 40 * 60

def grantBudgetCap : Nat := 1000

def grantMaxOperations : Nat := 32

def popSignatureB64Len : Nat := 88

/-- A grant as its holder sees it. -/
structure OperationGrant where
  grantId : Bytes 16
  profileName : String
  profileId : Bytes 16
  profileGeneration : UInt64
  operations : List String
  budget : Nat
  issuedUnixMs : Nat
  expiresUnixMs : Nat
  holderKey : Bytes 32
  deriving DecidableEq, Repr

namespace OperationGrant

/-- A new grant; its identifier is drawn at random. -/
def newWithTtl (grantId : Bytes 16) (profileName : String) (profileId : Bytes 16)
    (profileGeneration : UInt64) (operations : List String) (budget : Nat) (holderKey : Bytes 32)
    (nowUnixMs ttlSecs : Nat) : Except Error OperationGrant := do
  ensure (profileNameOk profileName = true)
    "grant profile name must satisfy the vault profile-name rules"
  ensure (0 < profileGeneration) "grant profile generation must be non-zero"
  ensure (1 ≤ budget ∧ budget ≤ grantBudgetCap) "grant budget must be between 1 and 1000"
  ensure (operations ≠ [] ∧ operations.length ≤ grantMaxOperations)
    "grant must authorize 1..=32 operation kinds"
  ensure (grantMinTtlSecs ≤ ttlSecs ∧ ttlSecs ≤ grantMaxTtlSecs)
    "grant TTL must be between 60 and 2400 seconds"
  ensure (ttlSecs % 60 = 0) "grant TTL must use whole minutes"
  ensure (nowUnixMs + ttlSecs * 1000 < 2 ^ 64) "grant expiry overflow"
  return ⟨grantId, profileName, profileId, profileGeneration, operations, budget, nowUnixMs,
    nowUnixMs + ttlSecs * 1000, holderKey⟩

/-- The lifetime in milliseconds, if the policy allows it. -/
def policyTtl (g : OperationGrant) : Except Error Nat := do
  ensure (0 < g.profileGeneration) "grant profile generation must be non-zero"
  ensure (g.issuedUnixMs ≤ g.expiresUnixMs) "grant expiry precedes its issue time"
  ensure ((g.expiresUnixMs - g.issuedUnixMs) % 60000 = 0) "grant TTL must use whole minutes"
  ensure (grantMinTtlSecs * 1000 ≤ g.expiresUnixMs - g.issuedUnixMs ∧
      g.expiresUnixMs - g.issuedUnixMs ≤ grantMaxTtlSecs * 1000)
    "grant TTL is outside the allowed policy range"
  return g.expiresUnixMs - g.issuedUnixMs

/-- The grant names the operation. -/
def covers (g : OperationGrant) (p : V6RequestPrelude) : Bool :=
  g.operations.any fun kind => kind == p.operationKind

/-- The grant is for the profile. -/
def coversProfile (g : OperationGrant) (p : V6RequestPrelude) : Bool :=
  p.profileName.any fun name => name == g.profileName

end OperationGrant

section Possession

variable (x : Platform)

def popDomain : List UInt8 := Text.utf8Bytes "serctl/ipc/v9/grant-pop/v1" ++ [0]

/-- What a holder signs. -/
def V6RequestPrelude.popPayload (p : V6RequestPrelude) : PopPayload :=
  ⟨p.protocolVersion, p.clientSessionId, p.requestId, p.operationKind, p.profileId, p.profileName,
    p.grantId, p.profileProof, p.requestedDeadlineUnixMs, p.rootRequestHash⟩

/-- The message that a holder signs. -/
def preludePopMessage (p : V6RequestPrelude) : List UInt8 := popDomain ++ x.popJson p.popPayload

/-- The proof that the holder of a grant has signed. -/
def verifyPreludePop (holderKey : Bytes 32) (signatureB64 : String) (p : V6RequestPrelude) :
    Except Error Unit := do
  ensure (Text.byteLen signatureB64 ≤ popSignatureB64Len + 16)
    "grant proof-of-possession signature is oversized"
  let decoded ← inContext (x.base64Decode signatureB64)
    "decode grant proof-of-possession signature"
  let signature ← ofLength 64 decoded
    "grant proof-of-possession signature must decode to 64 bytes"
  inContext (x.ed25519Key holderKey) "grant holder key is invalid"
  inContext (x.ed25519Verify holderKey (preludePopMessage x p) signature)
    "grant proof-of-possession verification failed"

/-- **Proof of possession.**  What is accepted is a signature by the holder over the message of
    this very prelude. -/
theorem verifyPreludePop_eq_ok {holderKey : Bytes 32} {signatureB64 : String}
    {p : V6RequestPrelude} (h : verifyPreludePop x holderKey signatureB64 p = .ok ()) :
    ∃ signature : Bytes 64, x.base64Decode signatureB64 = .ok signature.val ∧
      x.ed25519Verify holderKey (preludePopMessage x p) signature = .ok () := by
  simp only [verifyPreludePop, bind_eq_ok, inContext, mapError_eq_ok, ofLength_eq_ok] at h
  obtain ⟨-, -, decoded, hdecoded, signature, hsignature, -, -, hverify⟩ := h
  subst hsignature
  exact ⟨signature, hdecoded, hverify⟩

/-- A signature by the holder over the message of the prelude is accepted. -/
theorem verifyPreludePop_of_signed {holderKey : Bytes 32} {signature : Bytes 64}
    {p : V6RequestPrelude} (hdecode : ∀ bytes, x.base64Decode (x.base64Encode bytes) = .ok bytes)
    (hlength : Text.byteLen (x.base64Encode signature.val) ≤ popSignatureB64Len + 16)
    (hkey : x.ed25519Key holderKey = .ok ())
    (hverify : x.ed25519Verify holderKey (preludePopMessage x p) signature = .ok ()) :
    verifyPreludePop x holderKey (x.base64Encode signature.val) p = .ok () := by
  simp only [verifyPreludePop, bind_eq_ok, ensure_eq_ok, inContext, mapError_eq_ok,
    ofLength_eq_ok]
  exact ⟨(), hlength, _, hdecode _, signature, rfl, (), hkey, hverify⟩

/-- Preludes with the same message differ at most in their signatures. -/
theorem popPayload_eq_of_message (hjson : ∀ a b, x.popJson a = x.popJson b → a = b)
    {p q : V6RequestPrelude} (h : preludePopMessage x p = preludePopMessage x q) :
    { p with popSignature := q.popSignature } = q := by
  have hpayload : p.popPayload = q.popPayload := hjson _ _ (List.append_cancel_left h)
  simp only [V6RequestPrelude.popPayload, PopPayload.mk.injEq] at hpayload
  obtain ⟨h1, h2, h3, h4, h5, h6, h7, h8, h9, h10⟩ := hpayload
  cases p
  cases q
  simp_all

end Possession

end Serctl.Ipc
