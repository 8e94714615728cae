import Serctl.Ipc.Grant
import Serctl.Lib.Table

/-!
# Unlocked profiles and issued grants

The daemon keeps the profiles that were unlocked and the grants that were issued for them.  Both
are shared by reference: a request holds on to the entry and the record it started with, whatever
happens to the tables meanwhile.  A reference is the index of its allocation; what can change about
an entry or a record is not part of it.
-/

namespace Serctl.Daemon

open Lib Lib.Guard Ipc List

/-! ## Time -/

/-- Instants are milliseconds of the monotonic clock, which counts 63 bits of seconds. -/
def instantLimit : Nat := 2 ^ 63 * 1000

/-- A later instant, if the clock can tell it. -/
def checkedAdd (instant ms : Nat) : Option Nat :=
  if instant + ms < instantLimit then some (instant + ms) else none

/-! ## Entries and records -/

/-- A profile generation of the vault. -/
structure ProfileIdentity where
  profileId : Bytes 16
  generation : UInt64
  generation_pos : 0 < generation
  deriving Repr

instance : DecidableEq ProfileIdentity := fun a b =>
  decidable_of_iff (a.profileId = b.profileId ∧ a.generation = b.generation) (by
    cases a
    cases b
    simp)

/-- An unlocked profile. -/
structure ProfilePoolEntry where
  index : Nat
  identity : ProfileIdentity
  profile : String
  callKey : Bytes 32
  expiresAt : Nat
  deriving DecidableEq, Repr

/-- An issued grant, bound to the entry it was issued for. -/
structure GrantRecord where
  index : Nat
  grant : OperationGrant
  entry : ProfilePoolEntry
  expiresAt : Nat
  bound_id : entry.identity.profileId = grant.profileId
  bound_generation : entry.identity.generation = grant.profileGeneration
  bound_name : entry.profile = grant.profileName
  deriving DecidableEq, Repr

variable {grant : OperationGrant} {index : Nat}

namespace GrantRecord

/-- The record of a new grant, as the allocation `index`. -/
def new (index : Nat) (grant : OperationGrant) (entry : ProfilePoolEntry) (issuedAt : Nat) :
    Except Error GrantRecord := do
  let ttl ← grant.policyTtl
  if hid : entry.identity.profileId = grant.profileId then
    if hgeneration : entry.identity.generation = grant.profileGeneration then
      if hname : entry.profile = grant.profileName then
        let expiresAt ← orBail (checkedAdd issuedAt ttl) "grant monotonic expiry overflow"
        return ⟨index, grant, entry, expiresAt, hid, hgeneration, hname⟩
      else .error (.msg "grant profile name does not match its bound profile entry")
    else .error (.msg "grant profile generation does not match its bound profile entry")
  else .error (.msg "grant profile id does not match its bound profile entry")

theorem new_eq_ok {entry : ProfilePoolEntry}
    {issuedAt : Nat} {r : GrantRecord} (h : new index grant entry issuedAt = .ok r) :
    r.index = index ∧ r.grant = grant ∧ r.entry = entry := by
  simp only [new, bind_eq_ok] at h
  obtain ⟨ttl, -, h⟩ := h
  split at h
  · split at h
    · split at h
      · simp only [bind_eq_ok, pure_eq_ok] at h
        obtain ⟨expiresAt, -, rfl⟩ := h
        exact ⟨rfl, rfl, rfl⟩
      · cases h
    · cases h
  · cases h

/-- The time of the grant is over. -/
def isExpired (r : GrantRecord) (now : Nat) : Bool := r.expiresAt ≤ now

/-- The checks on a request, before anything is spent. -/
def validateRequest (x : Platform) (r : GrantRecord) (prelude : V6RequestPrelude)
    (now nowMs : Nat) : Except Error Unit := do
  ensure (r.entry.identity.profileId = r.grant.profileId)
    "grant profile id does not match its bound profile entry"
  ensure (r.entry.identity.generation = r.grant.profileGeneration)
    "grant profile generation does not match its bound profile entry"
  ensure (r.entry.profile = r.grant.profileName)
    "grant profile name does not match its bound profile entry"
  ensure (now < r.expiresAt) "grant has expired"
  ensure (nowMs < prelude.requestedDeadlineUnixMs ∧
      prelude.requestedDeadlineUnixMs ≤ r.grant.expiresUnixMs)
    "requested deadline exceeds the grant expiry"
  ensure (r.grant.covers prelude = true) "grant does not authorize this operation kind"
  ensure (r.grant.coversProfile prelude = true) "grant profile mismatch"
  let signature ← orBail prelude.popSignature
    "grant prelude must carry a proof-of-possession signature"
  verifyPreludePop x r.grant.holderKey signature prelude

/-- **An accepted request** is within the grant's operations, names its profile and carries a
    proof of possession. -/
theorem validateRequest_eq_ok {x : Platform} {r : GrantRecord} {prelude : V6RequestPrelude}
    {now nowMs : Nat} (h : r.validateRequest x prelude now nowMs = .ok ()) :
    r.grant.covers prelude = true ∧ r.grant.coversProfile prelude = true ∧
      ∃ signature, prelude.popSignature = some signature ∧
        verifyPreludePop x r.grant.holderKey signature prelude = .ok () := by
  simp only [validateRequest, bind_eq_ok, ensure_eq_ok, orBail_eq_ok] at h
  obtain ⟨-, -, -, -, -, -, -, -, -, -, -, hcovers, -, hprofile, signature, hsignature, hpop⟩ := h
  exact ⟨hcovers, hprofile, signature, hsignature, hpop⟩

/-- What stands for the policy of a grant. -/
def policyDigest (x : Platform) (r : GrantRecord) : String :=
  Text.hexEncode (x.sha256 (Text.utf8Bytes "serctl/audit/grant-policy/v1" ++ [0] ++
    r.grant.grantId.val ++ r.grant.profileId.val ++
    (Bytes.beBytes 8 r.grant.profileGeneration.toNat).val ++
    (Bytes.beBytes 4 r.grant.budget).val ++ (Bytes.beBytes 8 r.grant.issuedUnixMs).val ++
    (Bytes.beBytes 8 r.grant.expiresUnixMs).val ++
    r.grant.operations.flatMap fun operation =>
      (Bytes.beBytes 8 (Text.byteLen operation)).val ++ Text.utf8Bytes operation)).val

end GrantRecord

/-! ## Grantable operations -/

/-- The operations that grants may name. -/
def grantableOperationKinds : List String :=
  ["ssh.exec", "ssh.connection-identity", "daemon.status", "sftp.list", "sftp.write",
    "transfer.read", "transfer.write", "transfer.status", "transfer.cancel", "forward.local/open",
    "forward.remote/open", "forward.dynamic/open", "forward.status", "forward.cancel"]

/-- Operations that change nothing. -/
def operationAllowedWhileQuarantined (operationKind : String) : Bool :=
  ["daemon.status", "ssh.connection-identity", "sftp.list", "transfer.read",
    "transfer.status"].contains operationKind || Text.startsWith operationKind "audit."

def unknownGrantError : String :=
  "grant is not registered in this daemon instance; the daemon may have restarted, so reissue the grant"

/-! ## The registry -/

def grantRegistryLimit : Nat := 1024

/-- How long the end of a grant is remembered, in milliseconds. -/
def grantTerminalTombstoneTtl : Nat := 60 * 1000

/-- Why a grant is no longer live. -/
inductive GrantTerminalKind where
  | exhausted
  | expired
  deriving DecidableEq, Repr

/-- What is remembered of a grant that is no longer live. -/
structure GrantTombstone where
  kind : GrantTerminalKind
  expiresAt : Nat
  forgetAt : Nat
  deriving DecidableEq, Repr

/-- The grants that are in force, and what is remembered of those that came to their end. -/
structure GrantRegistryState where
  live : Table (Bytes 16) GrantRecord := .empty
  tombstones : Table (Bytes 16) GrantTombstone := .empty
  deriving DecidableEq, Repr

/-- What the registry may say about a grant. -/
inductive GrantLookup where
  | live (record : GrantRecord)
  | exhausted
  | expired
  | unknown
  deriving DecidableEq, Repr

namespace GrantRegistryState

/-- What is remembered of a grant that has come to its end. -/
def tombstone (kind : GrantTerminalKind) (r : GrantRecord) : GrantTombstone :=
  ⟨kind, r.expiresAt, (checkedAdd r.expiresAt grantTerminalTombstoneTtl).getD r.expiresAt⟩

/-- Take an expired grant out. -/
def expire (now : Nat) (st : GrantRegistryState) (grantId : Bytes 16) : GrantRegistryState :=
  match st.live.find grantId with
  | none => st
  | some r => {
      live := st.live.erase grantId
      tombstones := if now < (tombstone .expired r).forgetAt then
        st.tombstones.insert grantId (tombstone .expired r) else st.tombstones }

/-- Bring the registry up to date: forget the tombstones that are due, and take the expired grants
    out, one after the other. -/
def pruneLocked (st : GrantRegistryState) (now : Nat) : GrantRegistryState :=
  (st.live.keysWith fun r => r.expiresAt ≤ now).foldl (expire now)
    { st with tombstones := st.tombstones.keep fun _ t => now < t.forgetAt }

/-- What the registry says about a grant. -/
def find (st : GrantRegistryState) (grantId : Bytes 16) (now : Nat) : GrantLookup :=
  match st.live.find grantId with
  | some r => .live r
  | none =>
    match st.tombstones.find grantId with
    | some t => if t.kind = .exhausted ∧ now < t.expiresAt then .exhausted else .expired
    | none => .unknown

/-- The answer about a grant, and the registry that was brought up to date for it. -/
def lookup (st : GrantRegistryState) (grantId : Bytes 16) (now : Nat) :
    GrantLookup × GrantRegistryState :=
  ((st.pruneLocked now).find grantId now, st.pruneLocked now)

/-- The registry with a new grant, as the allocation `index`. -/
def insert (st : GrantRegistryState) (index : Nat) (grant : OperationGrant)
    (entry : ProfilePoolEntry) (now : Nat) : Except Error (GrantRecord × GrantRegistryState) := do
  ensure ((st.pruneLocked now).live.size + (st.pruneLocked now).tombstones.size <
    grantRegistryLimit) "grant registry is at its capacity"
  ensure ((st.pruneLocked now).live.find grant.grantId = none ∧
    (st.pruneLocked now).tombstones.find grant.grantId = none) "grant id collision"
  let record ← GrantRecord.new index grant entry now
  return (record, { st.pruneLocked now with
    live := (st.pruneLocked now).live.insert grant.grantId record })

/-- Bring a grant to its end, if the record under its id is still the expected allocation. -/
def markTerminalIfSame (st : GrantRegistryState) (grantId : Bytes 16) (expected : GrantRecord)
    (kind : GrantTerminalKind) (now : Nat) : GrantRegistryState :=
  match (st.pruneLocked now).live.find grantId with
  | none => st.pruneLocked now
  | some r =>
    if r.index = expected.index then {
      live := (st.pruneLocked now).live.erase grantId
      tombstones := (st.pruneLocked now).tombstones.insert grantId (tombstone kind r) }
    else st.pruneLocked now

/-! ### Where live records come from -/

variable {st : GrantRegistryState} {entry : Bytes 16 × GrantRecord} {now : Nat}

variable {grantId : Bytes 16}

theorem mem_live_expire (h : entry ∈ (expire now st grantId).live.entries) :
    entry ∈ st.live.entries := by
  unfold expire at h
  split at h
  · exact h
  · exact Table.mem_of_mem_erase h

theorem mem_live_pruneLocked (h : entry ∈ (st.pruneLocked now).live.entries) :
    entry ∈ st.live.entries := by
  unfold pruneLocked at h
  generalize (st.live.keysWith fun r => r.expiresAt ≤ now) = ids at h
  -- taking out one grant after the other adds none
  have hfold : ∀ (ids : List (Bytes 16)) (st' : GrantRegistryState),
      entry ∈ (ids.foldl (expire now) st').live.entries → entry ∈ st'.live.entries := by
    intro ids
    induction ids with
    | nil => exact fun _ hmem => hmem
    | cons grantId ids ih => exact fun st' hmem => mem_live_expire (ih _ hmem)
  have hmem := hfold ids _ h
  exact hmem

variable {r : GrantRecord}

theorem mem_live_lookup (h : (st.lookup grantId now).1 = .live r) :
    (grantId, r) ∈ st.live.entries := by
  have hfind : (st.pruneLocked now).find grantId now = .live r := h
  unfold find at hfind
  split at hfind
  · rename_i record hlookup
    cases hfind
    exact mem_live_pruneLocked (Table.mem_entries.mpr hlookup)
  · split at hfind
    · split at hfind <;> cases hfind
    · cases hfind

theorem mem_live_insert {pool : ProfilePoolEntry} {st' : GrantRegistryState}
    (h : st.insert index grant pool now = .ok (r, st')) (hmem : entry ∈ st'.live.entries) :
    entry.2 = r ∨ entry ∈ st.live.entries := by
  simp only [insert, bind_eq_ok, pure_eq_ok, Prod.mk.injEq] at h
  obtain ⟨-, -, -, -, record, -, rfl, rfl⟩ := h
  rcases Table.mem_insert hmem with rfl | hold
  · exact .inl rfl
  · exact .inr (mem_live_pruneLocked hold)

theorem mem_live_markTerminalIfSame {expected : GrantRecord} {kind : GrantTerminalKind}
    (h : entry ∈ (st.markTerminalIfSame grantId expected kind now).live.entries) :
    entry ∈ st.live.entries := by
  unfold markTerminalIfSame at h
  split at h
  · exact mem_live_pruneLocked h
  · split at h
    · exact mem_live_pruneLocked (Table.mem_of_mem_erase h)
    · exact mem_live_pruneLocked h

theorem insert_record {pool : ProfilePoolEntry} {st' : GrantRegistryState}
    (h : st.insert index grant pool now = .ok (r, st')) :
    r.index = index ∧ r.grant = grant ∧ r.entry = pool := by
  simp only [insert, bind_eq_ok, pure_eq_ok, Prod.mk.injEq] at h
  obtain ⟨-, -, -, -, record, hnew, rfl, -⟩ := h
  exact GrantRecord.new_eq_ok hnew

end GrantRegistryState

end Serctl.Daemon
