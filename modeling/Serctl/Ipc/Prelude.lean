import Serctl.Audit.Json
import Serctl.Ipc.Grant
import Serctl.Lib.Base64
import Serctl.Lib.Json
import Serctl.Lib.Sha256

/-!
# The messages of a prelude

A grant's holder signs, and a profile's call key authenticates, the compact JSON of a prelude's
fields behind a domain.  Numbers and arrays of bytes end where their commas and brackets stand,
texts are escaped, and a missing field is spelled `null`, so the JSON can be read back.  A message
therefore says every field of its prelude that it is made from.
-/

namespace Serctl.Ipc

open Lib Lib.Codec Lib.Guard
open Audit (byteField)

/-! ## Fields -/

theorem stop_bracket : (32 : UInt8) ≤ 93 ∧ ¬((48 : UInt8) ≤ 93 ∧ (93 : UInt8) ≤ 57) := by decide

theorem isPrintable_bracket : IsPrintable "[" := by decide

theorem isPrintable_profileId : IsPrintable ",\"profile_id\":" := by decide

/-- An array of bytes: numbers between brackets, with commas between them. -/
def byteArray (n : Nat) : Codec (Bytes (n + 1)) :=
  after "[" (convert (seq (times n (byteField 44 stop_comma)) (byteField 93 stop_bracket))
    (fun b => (b.val.take n, b.val.getD n 0))
    (fun p => if h : (p.1 ++ [p.2]).length = n + 1 then some ⟨p.1 ++ [p.2], h⟩ else none)
    (fun _ => True) (by
      intro b _
      have hlast : n < b.val.length := by
        rw [b.property]
        exact Nat.lt_succ_self n
      have hback : b.val.take n ++ [b.val.getD n 0] = b.val := by
        rw [List.getD_eq_getElem?_getD, List.getElem?_eq_getElem hlast, Option.getD_some,
          ← List.take_succ_eq_append_getElem hlast]
        exact List.take_of_length_le (Nat.le_of_eq b.property)
      refine ⟨⟨⟨?_, fun _ _ => trivial⟩, trivial⟩, ?_⟩
      · rw [List.length_take]
        omega
      · rw [dif_pos (by rw [hback]; exact b.property)]
        exact congrArg some (Subtype.ext hback))) isPrintable_bracket

/-- A value, or `null` if there is none.  No value starts like that. -/
def nullable {α : Type} (c : Codec α)
    (happart : ∀ rest, c.decode (Text.utf8Bytes "null" ++ rest) = none) : Codec (Option α) :=
  convert (Json.either c (after "null" nothing (by decide)) (fun _ _ rest => happart ([] ++ rest)))
    (fun o => o.elim (.inr ()) .inl) (fun v => some (v.elim some fun _ => none))
    (fun o => ∀ a, o = some a → c.Fits a) (by
      intro o ho
      cases o with
      | none => exact ⟨trivial, rfl⟩
      | some a => exact ⟨ho a rfl, rfl⟩)

/-- Sixteen bytes, or `null`. -/
def nullableId : Codec (Option (Bytes 16)) := nullable (byteArray 15) fun _ => rfl

/-- A text, or `null`. -/
def nullableText : Codec (Option String) := nullable Json.text fun _ => rfl

/-! ## Payloads -/

/-- What both payloads start with. -/
def firstFields {β : Type} (rest : Codec β) : Codec (Nat × Bytes 16 × Bytes 16 × String ×
    Option (Bytes 16) × Option String × Option (Bytes 16) × β) :=
  seq (after "\x7b\"protocol_version\":" (decimal 44 stop_comma) (by decide)) <|
  seq (after "\"client_session_id\":" (byteArray 15) (by decide)) <|
  seq (after ",\"request_id\":" (byteArray 15) (by decide)) <|
  seq (after ",\"operation_kind\":" Json.text (by decide)) <|
  seq (after ",\"profile_id\":" nullableId isPrintable_profileId) <|
  seq (after ",\"profile_name\":" nullableText (by decide)) <|
  seq (after ",\"grant_id\":" nullableId (by decide)) rest

/-- What both payloads end with. -/
def lastFields : Codec (Nat × Bytes 32) :=
  seq (after ",\"requested_deadline_unix_ms\":" (decimal 44 stop_comma) (by decide)) <|
  after "\"root_request_hash\":" (before (byteArray 31) "\x7d" isPrintable_brace) (by decide)

/-- The JSON of what a holder signs. -/
def popCodec : Codec PopPayload :=
  convert (firstFields (seq (after ",\"profile_proof\":" nullableText (by decide)) lastFields))
    (fun p => (p.protocolVersion, p.clientSessionId, p.requestId, p.operationKind, p.profileId,
      p.profileName, p.grantId, p.profileProof, p.requestedDeadlineUnixMs, p.rootRequestHash))
    (fun (version, session, request, kind, profile, name, grant, proof, deadline, hash) =>
      some ⟨version, session, request, kind, profile, name, grant, proof, deadline, hash⟩)
    (fun _ => True) fun _ _ =>
      ⟨⟨trivial, trivial, trivial, trivial, fun _ _ => trivial, fun _ _ => trivial,
        fun _ _ => trivial, fun _ _ => trivial, trivial, trivial⟩, rfl⟩

/-- The JSON under a profile's call key. -/
def profileProofCodec : Codec ProfileProofPayload :=
  convert (firstFields lastFields)
    (fun p => (p.protocolVersion, p.clientSessionId, p.requestId, p.operationKind, p.profileId,
      p.profileName, p.grantId, p.requestedDeadlineUnixMs, p.rootRequestHash))
    (fun (version, session, request, kind, profile, name, grant, deadline, hash) =>
      some ⟨version, session, request, kind, profile, name, grant, deadline, hash⟩)
    (fun _ => True) fun _ _ =>
      ⟨⟨trivial, trivial, trivial, trivial, fun _ _ => trivial, fun _ _ => trivial,
        fun _ _ => trivial, trivial, trivial⟩, rfl⟩

/-- The platform, with payloads serialized as JSON. -/
def Platform.serialized (x : Platform) : Platform :=
  { x with popJson := popCodec.encode, profileProofJson := profileProofCodec.encode }

/-! ## Messages -/

/-- Preludes with the same message for their call key differ at most in what proves them. -/
theorem eq_of_profileProofMessage (x : Platform)
    (hjson : ∀ a b, x.profileProofJson a = x.profileProofJson b → a = b) {p q : V6RequestPrelude}
    {message : List UInt8} (hp : profileProofMessage x p = .ok message)
    (hq : profileProofMessage x q = .ok message) :
    { p with popSignature := q.popSignature, profileProof := q.profileProof } = q := by
  simp only [profileProofMessage, bind_eq_ok, ensure_eq_ok, pure_eq_ok] at hp hq
  obtain ⟨-, -, -, -, rfl⟩ := hp
  obtain ⟨-, -, -, -, hmessage⟩ := hq
  have hpayload := hjson _ _ (List.append_cancel_left hmessage)
  simp only [ProfileProofPayload.mk.injEq] at hpayload
  obtain ⟨h1, h2, h3, h4, h5, h6, h7, h8, h9⟩ := hpayload
  cases p
  cases q
  simp_all

/-- **Messages are injective**, on every platform whose JSON of the payloads is.  A message for a
    grant's holder says every field of its prelude but the signature, and one for a profile's call
    key every field but the signature and the proof, whether or not the preludes are valid.  The
    compact JSON is such a serialization. -/
theorem prelude_messages_injective (x : Platform) (p q : V6RequestPrelude) :
    (Function.Injective x.popJson → preludePopMessage x p = preludePopMessage x q →
      { p with popSignature := q.popSignature } = q) ∧
    (Function.Injective x.profileProofJson → ∀ message, profileProofMessage x p = .ok message →
      profileProofMessage x q = .ok message →
      { p with popSignature := q.popSignature, profileProof := q.profileProof } = q) ∧
    Function.Injective x.serialized.popJson ∧ Function.Injective x.serialized.profileProofJson := by
  refine ⟨fun hjson => ?_, fun hjson message => ?_, ?_, ?_⟩
  · exact popPayload_eq_of_message x fun a b h => hjson h
  · exact eq_of_profileProofMessage x fun a b h => hjson h
  · exact fun a b => popCodec.encode_injective trivial trivial
  · exact fun a b => profileProofCodec.encode_injective trivial trivial

/-- A platform with the standard hashes and encodings.  It knows no signatures and no frames. -/
def plainPlatform : Platform where
  sha256 := Sha256.digest
  hmacSha256 key := Sha256.hmac key.val
  base64Encode := Base64.encode
  base64Decode text := match Base64.decode text with
    | some bytes => .ok bytes
    | none => .error "Invalid input"
  ed25519Key _ := .ok ()
  ed25519Verify _ _ _ := .error "signature error"
  popJson := popCodec.encode
  profileProofJson := profileProofCodec.encode
  frameJson _ := []
  escapeDebug := id

/-- A request under a grant. -/
def grantedPrelude (signature : String) : V6RequestPrelude :=
  ⟨9, .fill 16 1, .fill 16 2, "ssh.exec", none, some "edge", some (.fill 16 3), some signature,
    none, 1700000030000, .fill 32 4⟩

/-- The same request under a call key. -/
def unlockedPrelude (proof : String) : V6RequestPrelude :=
  { grantedPrelude "" with
    profileId := some (.fill 16 5)
    grantId := none
    popSignature := none
    profileProof := some proof }

/-- Preludes that were signed or proved twice. -/
theorem resigned_preludes_agree :
    ((grantedPrelude "first").validate = .ok () ∧ (grantedPrelude "second").validate = .ok () ∧
      { grantedPrelude "first" with popSignature := some "second" } = grantedPrelude "second") ∧
    (unlockedPrelude "first").validate = .ok () ∧ (unlockedPrelude "second").validate = .ok () ∧
      { unlockedPrelude "first" with profileProof := some "second" } = unlockedPrelude "second" :=
  have hgranted := prelude_messages_injective plainPlatform (grantedPrelude "first")
    (grantedPrelude "second")
  have hunlocked := prelude_messages_injective plainPlatform (unlockedPrelude "first")
    (unlockedPrelude "second")
  ⟨⟨rfl, rfl, hgranted.1 hgranted.2.2.1 rfl⟩, rfl, rfl,
    hunlocked.2.1 hunlocked.2.2.2 _ rfl rfl⟩

end Serctl.Ipc
