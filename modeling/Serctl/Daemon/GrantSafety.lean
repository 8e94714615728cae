import Mathlib.Data.List.Perm.Subperm
import Serctl.Daemon.ConnRuns
import Serctl.Daemon.ConnSafety
import Serctl.Ipc.Prelude

/-!
# What grants guarantee

Results for every run of the daemon from its start: through restarts,
whatever fails, however connections interleave and whatever their handlers do.
-/

namespace Serctl.Daemon

open Lib Lib.Task Ipc List Lib.Guard
open Function (update)
open Audit (AuditEvent Files Serde journal outcomesFor Admitted AtHead jsonSerde jsonSerde_lawful
  newline nextRecord verifiedOf)

variable {HW HOp : Type} {HAns : HOp → Type} {HC : Type} {x : Platform} {s : Serde}
  {keys : ProfileIdentity → Bytes 32} {H : AsyncSystem HW HOp HAns HC}
  {handlers : HandlerContext → Frame → Handler HAns} {fuel : Nat}

/-! ## The start -/

/-- A daemon that has just started for the first time.  The ledgers may be in any state. -/
structure Fresh (w : World HW) : Prop where
  history : w.history = []
  pool : w.pool = .empty
  quarantined : ∀ n, w.quarantined n = false
  registry : w.registry = {}
  issued : w.issued = []

theorem Fresh.inv {w : World HW} (h : Fresh w) : Inv x s w where
  pool := by simp [h.pool, Table.empty]
  unused n _ := h.quarantined n
  live := by simp [h.registry, Table.empty]
  issued := by simp [h.issued]
  bound := by simp [h.issued]
  counts := by constructor <;> simp [h.history, h.issued, intents, spends, dispatches]

/-- Every state of every run keeps the invariant, and every connection is safe there. -/
theorem good_of_run (hs : s.Lawful) {w0 : World HW} (hfresh : Fresh w0)
    {ms : List (Pool.Move Nat V6RequestPrelude (Firing (ConnChoice HC)))}
    {cfg : Pool.Config Nat (World HW) (ConnOp HOp × Nat) (Timed (ConnAns HAns)) ConnReply}
    (hrun : (daemonPool x handlers s keys H fuel).run (Pool.idle w0) ms = some cfg) :
    Pool.Good (daemonPool x handlers s keys H fuel) (Inv x s)
      (fun conn => (connContract x s keys conn).inTimers)
      (fun conn reply w => Accounted x s keys conn reply.1 w) cfg :=
  (daemonPool_sound hs).run_good hrun (Pool.good_idle hfresh.inv)

/-! ## Requests that have returned -/

section Returned

variable {conn : Nat} {prelude : V6RequestPrelude} {w : World HW}

/-- Steps that belong to the outcome are neither spending nor dispatch nor an intent. -/
theorem not_closing {entry : ProfilePoolEntry} {event : Event} (h : Closing entry event) :
    (∀ i, event ≠ .spent i) ∧ (∀ request, event ≠ .dispatched request) ∧
      ∀ entry e, event = .attempted entry e → e.phase = .outcome := by
  cases event with
  | attempted entry e =>
    refine ⟨by simp, by simp, fun entry' e' heq => ?_⟩
    cases heq
    exact h.2
  | appended entry e => exact ⟨by simp, by simp, by simp⟩
  | spent i => exact h.elim
  | dispatched request => exact h.elim

section

variable (h : Accounted x s keys conn prelude w)

include h

/-- What was dispatched was recorded first, then paid for, once. -/
theorem Accounted.order {before after : List Event}
    {request : Dispatch} (htrace : trace w.history conn = before ++ .dispatched request :: after) :
    ∃ e, IntentOf prelude e ∧ e ∈ journal s (w.files request.record.entry.identity) ∧
      before = [.attempted request.record.entry e, .appended request.record.entry e,
        .spent request.record.index] ∧ ∀ i, .spent i ∉ after := by
  cases h with
  | untouched hnil =>
    rw [hnil] at htrace
    simp at htrace
  | unrecorded entry e hintent hquarantined hone =>
    rw [hone] at htrace
    cases before <;> simp at htrace
  | closed entry e hintent hcarries told tail htold hsettled hclosing htrace' =>
    rw [htrace'] at htrace
    cases htold with
    | denied =>
      -- nothing in such a story is a dispatch
      exfalso
      have hmem : .dispatched request ∈
          [Event.attempted entry e, .appended entry e] ++ tail := by
        rw [htrace]
        simp
      simp only [cons_append, nil_append, mem_cons, reduceCtorEq, false_or] at hmem
      exact (not_closing (hclosing _ hmem)).2.1 request rfl
    | dispatched request' hentry hprelude =>
      have hclosed : ∀ event ∈ tail, event ≠ .dispatched request :=
        fun event hevent => (not_closing (hclosing event hevent)).2.1 request
      -- the dispatch is the fourth step
      match before, htrace with
      | [], htrace => simp at htrace
      | [_], htrace => simp at htrace
      | [_, _], htrace => simp at htrace
      | [a, b, c], htrace =>
        simp only [cons_append, nil_append, List.cons.injEq, Event.dispatched.injEq]
          at htrace
        obtain ⟨rfl, rfl, rfl, rfl, rfl⟩ := htrace
        refine ⟨e, hintent, ?_, by rw [hentry], fun i hi => ?_⟩
        · rw [hentry]
          exact hcarries.mem
        · exact (not_closing (hclosing _ hi)).1 i rfl
      | a :: b :: c :: d :: rest, htrace =>
        simp only [cons_append, nil_append, List.cons.injEq] at htrace
        obtain ⟨-, -, -, -, htail⟩ := htrace
        exact absurd rfl (hclosed (.dispatched request) (by rw [htail]; simp))

/-- Nothing is spent without an intent in the ledger. -/
theorem Accounted.recorded {i : Nat} (hspent : .spent i ∈ trace w.history conn) :
    ∃ entry e, IntentOf prelude e ∧ .appended entry e ∈ trace w.history conn ∧
      e ∈ journal s (w.files entry.identity) := by
  cases h with
  | untouched hnil =>
    rw [hnil] at hspent
    cases hspent
  | unrecorded entry e hintent hquarantined hone =>
    rw [hone] at hspent
    simp at hspent
  | closed entry e hintent hcarries told tail htold hsettled hclosing htrace =>
    refine ⟨entry, e, hintent, ?_, hcarries.mem⟩
    rw [htrace]
    cases htold <;> simp

/-- An intent that was tried has one outcome, or its profile is quarantined. -/
theorem Accounted.outcome {entry : ProfilePoolEntry}
    {e : AuditEvent} (htried : .attempted entry e ∈ trace w.history conn)
    (hphase : e.phase = .intent) :
    e.requestId = prelude.requestId ∧
      ((outcomesFor prelude.requestId (journal s (w.files entry.identity))).length = 1 ∨
        w.quarantined entry.index = true) := by
  cases h with
  | untouched hnil =>
    rw [hnil] at htried
    cases htried
  | unrecorded entry' e' hintent hquarantined hone =>
    rw [hone, mem_singleton] at htried
    cases htried
    exact ⟨hintent.requestId, .inr hquarantined⟩
  | closed entry' e' hintent hcarries told tail htold hsettled hclosing htrace =>
    -- the only intent of the story
    have hsame : Event.attempted entry e = .attempted entry' e' := by
      rw [htrace, mem_append] at htried
      rcases htried with htold' | htail
      · cases htold <;> simpa using htold'
      · have houtcome := (not_closing (hclosing _ htail)).2.2 entry e rfl
        rw [hphase] at houtcome
        cases houtcome
    cases hsame
    refine ⟨hintent.requestId, ?_⟩
    rcases hsettled with ⟨outcome, houtcome, hid, hanswer, -⟩ | hquarantined
    · left
      have hmem : outcome ∈ outcomesFor prelude.requestId (journal s (w.files entry.identity)) := by
        simp [outcomesFor, hanswer.mem, houtcome, hid]
      have hatMost := (hanswer.intact.orderly.tally prelude.requestId).outcomes
      have hsome := length_pos_of_mem hmem
      omega
    · exact .inr hquarantined

end

end Returned

/-- **Requests under a grant are accounted for.**  In every run of the daemon, for every connection
    that has returned, whatever has failed:

    - a dispatched request had its intent in the ledger before a unit was spent, and exactly one
      unit was spent before the dispatch;
    - nothing is spent without an intent in the ledger;
    - if an intent was tried, the ledger carries exactly one outcome of the request, or the
      profile is quarantined;
    - what is left of a budget is what was not spent. -/
theorem grant_requests_accounted (hs : s.Lawful) {w₀ : World HW} (hfresh : Fresh w₀)
    {ms : List (Pool.Move Nat V6RequestPrelude (Firing (ConnChoice HC)))}
    {cfg : Pool.Config Nat (World HW) (ConnOp HOp × Nat) (Timed (ConnAns HAns)) ConnReply}
    (hrun : (daemonPool x handlers s keys H fuel).run (Pool.idle w₀) ms = some cfg)
    {conn : Nat} {prelude : V6RequestPrelude} {ended : Ended Error Unit}
    (hreturned : cfg.threads conn = some (.ret (prelude, ended))) :
    (∀ before request after,
      trace cfg.world.history conn = before ++ .dispatched request :: after →
      ∃ e, IntentOf prelude e ∧
        e ∈ journal s (cfg.world.files request.record.entry.identity) ∧
        before = [.attempted request.record.entry e, .appended request.record.entry e,
          .spent request.record.index] ∧ ∀ i, .spent i ∉ after) ∧
    (∀ i, .spent i ∈ trace cfg.world.history conn →
      ∃ entry e, IntentOf prelude e ∧ .appended entry e ∈ trace cfg.world.history conn ∧
        e ∈ journal s (cfg.world.files entry.identity)) ∧
    (∀ entry e, .attempted entry e ∈ trace cfg.world.history conn → e.phase = .intent →
      e.requestId = prelude.requestId ∧
        ((outcomesFor prelude.requestId
            (journal s (cfg.world.files entry.identity))).length = 1 ∨
          cfg.world.quarantined entry.index = true)) ∧
    (∀ r ∈ cfg.world.issued, cfg.world.remaining r.index +
      spentOn (spends cfg.world.history) r.index = r.grant.budget) := by
  have hgood := good_of_run hs hfresh hrun
  have haccounted : Accounted x s keys conn prelude cfg.world := hgood.post_of_ret hreturned
  refine ⟨?_, ?_, ?_, hgood.1.counts.budget⟩
  · exact fun before request after htrace => haccounted.order htrace
  · exact fun i hspent => haccounted.recorded hspent
  · exact fun entry e htried hphase => haccounted.outcome htried hphase

/-! ## Dispatched requests -/

section Dispatched

variable {w : World HW}

/-- No more requests are dispatched under a grant than units were spent on it. -/
theorem Inv.dispatched_le (hw : Inv x s w) {r : GrantRecord} (hr : r ∈ w.issued) :
    ((dispatches w.history).filter fun d => d.2.record = r).length ≤ r.grant.budget := by
  have hconns : (((dispatches w.history).filter fun d => d.2.record = r).map Prod.fst).Nodup :=
    (hw.counts.dispatchConns).sublist (Sublist.map _ filter_sublist)
  have hsub : (((dispatches w.history).filter fun d => d.2.record = r).map Prod.fst) ⊆
      ((spends w.history).filter fun spend => spend.2 = r.index).map Prod.fst := by
    intro conn hconn
    obtain ⟨d, hd, rfl⟩ := mem_map.mp hconn
    rw [mem_filter, decide_eq_true_eq] at hd
    obtain ⟨-, hspent, -⟩ := hw.counts.dispatched d hd.1
    rw [hd.2] at hspent
    exact mem_map.mpr ⟨_, mem_filter.mpr ⟨hspent, by simp⟩, rfl⟩
  have hle := (subperm_of_subset hconns hsub).length_le
  have hbudget := hw.counts.budget r hr
  simp only [length_map] at hle
  unfold spentOn at hbudget
  omega

/-- A request is dispatched once in its profile generation. -/
theorem Inv.dispatched_nodup (hw : Inv x s w) :
    ((dispatches w.history).map fun d =>
      (d.2.record.entry.identity, d.2.prelude.requestId)).Nodup := by
  have hnodup : (dispatches w.history).Nodup := Nodup.of_map _ hw.counts.dispatchConns
  apply Nodup.map_on _ hnodup
  intro d hd d' hd' heq
  simp only [Prod.mk.injEq] at heq
  obtain ⟨-, -, hintent, -⟩ := hw.counts.dispatched d hd
  obtain ⟨-, -, hintent', -⟩ := hw.counts.dispatched d' hd'
  -- both requests have the same intent, so they belong to one connection
  have hsame := inj_on_of_nodup_map hw.counts.intentIds hintent hintent'
    (by simp [heq.1, heq.2])
  simp only [Prod.mk.injEq] at hsame
  exact inj_on_of_nodup_map hw.counts.dispatchConns hd hd' hsame.1

end Dispatched

/-- **Dispatched requests stay within their grants.**  In every state of every run of the daemon,
    restarts included:

    - no more requests were dispatched under a grant than its budget;
    - every dispatched request names an operation and the profile of its grant, runs on the
      profile generation that the grant is for, and its holder has signed the exact prelude;
    - no two dispatched requests of one profile generation share a request id.

    `signed` says which messages the holder of a key has signed; signatures cannot be forged. -/
theorem dispatches_within_grants (hs : s.Lawful) {signed : Bytes 32 → List UInt8 → Prop}
    (hunforgeable : ∀ key message signature,
      x.ed25519Verify key message signature = .ok () → signed key message)
    {w₀ : World HW} (hfresh : Fresh w₀)
    {ms : List (Pool.Move Nat V6RequestPrelude (Firing (ConnChoice HC)))}
    {cfg : Pool.Config Nat (World HW) (ConnOp HOp × Nat) (Timed (ConnAns HAns)) ConnReply}
    (hrun : (daemonPool x handlers s keys H fuel).run (Pool.idle w₀) ms = some cfg) :
    (∀ r ∈ cfg.world.issued,
      ((dispatches cfg.world.history).filter fun d => d.2.record = r).length ≤
        r.grant.budget) ∧
    (∀ d ∈ dispatches cfg.world.history, d.2.record ∈ cfg.world.issued ∧
      frameKind d.2.frame ∈ d.2.record.grant.operations ∧
      frameKind d.2.frame = d.2.prelude.operationKind ∧
      d.2.prelude.profileName = some d.2.record.grant.profileName ∧
      d.2.record.entry.identity.profileId = d.2.record.grant.profileId ∧
      d.2.record.entry.identity.generation = d.2.record.grant.profileGeneration ∧
      x.sha256 (x.frameJson d.2.frame) = d.2.prelude.rootRequestHash ∧
      signed d.2.record.grant.holderKey (preludePopMessage x d.2.prelude)) ∧
    ((dispatches cfg.world.history).map fun d =>
      (d.2.record.entry.identity, d.2.prelude.requestId)).Nodup := by
  have hinv : Inv x s cfg.world := (good_of_run hs hfresh hrun).1
  refine ⟨fun r hr => hinv.dispatched_le hr, ?_, hinv.dispatched_nodup⟩
  intro d hd
  -- a dispatch was authorized by a signature
  obtain ⟨hissued, -, -, hauthorized⟩ := hinv.counts.dispatched d hd
  obtain ⟨signature, -, hpop⟩ := hauthorized.possession
  obtain ⟨bytes, -, hverify⟩ := verifyPreludePop_eq_ok x hpop
  have hcovers : d.2.prelude.operationKind ∈ d.2.record.grant.operations := by
    simpa [OperationGrant.covers] using hauthorized.covers
  have hprofile : d.2.prelude.profileName = some d.2.record.grant.profileName := by
    simpa [OperationGrant.coversProfile, Option.any_eq_true] using hauthorized.profile
  refine ⟨hissued, ?_, hauthorized.kind, hprofile, d.2.record.bound_id,
    d.2.record.bound_generation, hauthorized.committed, hunforgeable _ _ _ hverify⟩
  rw [hauthorized.kind]
  exact hcovers

/-! ## A request from start to end

The profile `edge` is unlocked, a grant for one command is issued, and a request under it is
dispatched.  The handler cannot connect, so the outcome is recorded as unknown. -/

def edgeIdentity : ProfileIdentity := ⟨Audit.edgeLedger.profileId, 1, Audit.one_pos⟩

def edgeKeys : ProfileIdentity → Bytes 32 := fun _ => Audit.edgeLedger.key

def edgeCallKey : Bytes 32 := .fill 32 9

/-- A key from its spelling. -/
def spelled (hex : String) : Bytes 32 :=
  if h : ((Text.hexDecode hex).getD []).length = 32 then ⟨(Text.hexDecode hex).getD [], h⟩
  else .fill 32 0

/-- The public key of the grant's holder. -/
def edgeHolder : Bytes 32 :=
  spelled "6e7a1cdd29b0b78fd13af4c5598feff4ef2a97166e3ca6f2e4fbfccd80505bf1"

def edgeGrantId : Bytes 16 := .fill 16 64

/-- The profile is unlocked. -/
def edgeUnlock : Frame := .unlock "open sesame"

/-- A grant is asked for. -/
def edgeIssue : Frame := .issueGrant "edge" ["ssh.exec"] 1 60 (Base64.encode edgeHolder.val)

/-- A command is asked for. -/
def edgeExec : Frame := .exec "uname" 30000

/-- The JSON of the frames that are sent here; their texts need no escapes. -/
def edgeFrameJson : Frame → List UInt8
  | .unlock passphrase => Text.utf8Bytes
      ("\x7b\"t\":\"Unlock\",\"d\":\x7b\"passphrase\":\"" ++ passphrase ++ "\"\x7d\x7d")
  | .issueGrant profile operations budget ttlSecs holderKey => Text.utf8Bytes
      ("\x7b\"t\":\"IssueGrant\",\"d\":\x7b\"profile\":\"" ++ profile ++ "\",\"operations\":[\"" ++
        "\",\"".intercalate operations ++ "\"],\"budget\":" ++ toString budget ++
        ",\"ttl_secs\":" ++ toString ttlSecs ++ ",\"holder_key\":\"" ++ holderKey ++ "\"\x7d\x7d")
  | .exec cmd timeoutMs => Text.utf8Bytes
      ("\x7b\"t\":\"Exec\",\"d\":\x7b\"cmd\":\"" ++ cmd ++ "\",\"timeout_ms\":" ++
        toString timeoutMs ++ "\x7d\x7d")
  | .status => Text.utf8Bytes "\x7b\"t\":\"Status\"\x7d"
  | _ => []

/-- The prelude that commits to a frame. -/
def edgePrelude (requestId : UInt8) (frame : Frame) : V6RequestPrelude where
  protocolVersion := 9
  clientSessionId := .fill 16 1
  requestId := .fill 16 requestId
  operationKind := frameKind frame
  profileId := none
  profileName := some "edge"
  grantId := none
  popSignature := none
  profileProof := none
  requestedDeadlineUnixMs := 1700000060000
  rootRequestHash := Sha256.digest (edgeFrameJson frame)

/-- The holder's signature over the request under the grant. -/
def edgeSignature : Bytes 64 :=
  ⟨(spelled "cf361636d1bc9d9ee75bc2148bf2b57a01f369223e244827feba413758067f66").val ++
    (spelled "e0cccc9b6b9c808806100c7f5f52c67f551d60f0f78bc975e0e8c4bcf647e109").val, rfl⟩

/-- The prelude of the command, signed by the holder. -/
def edgeExecPrelude : V6RequestPrelude := { edgePrelude 34 edgeExec with
  grantId := some edgeGrantId
  popSignature := some (Base64.encode edgeSignature.val)
  requestedDeadlineUnixMs := 1700000010000 }

/-- What the holder of the grant has signed. -/
def edgeSigned : List (Bytes 32 × List UInt8) :=
  [(edgeHolder, preludePopMessage plainPlatform edgeExecPrelude)]

/-- The platform, which knows one signature. -/
def edgePlatform : Platform := { plainPlatform with
  ed25519Verify := fun key message signature =>
    if (key, message) ∈ edgeSigned ∧ signature = edgeSignature then .ok ()
    else .error "signature error: Verification equation was not satisfied"
  frameJson := edgeFrameJson }

/-- The prelude of a request under the call key, with its proof. -/
def edgeCalled (requestId : UInt8) (frame : Frame) : V6RequestPrelude :=
  let prelude := { edgePrelude requestId frame with profileId := some edgeIdentity.profileId }
  { prelude with
    profileProof := (profilePreludeProof edgePlatform edgeCallKey prelude).toOption }

theorem edge_decodes (bytes : List UInt8) :
    edgePlatform.base64Decode (edgePlatform.base64Encode bytes) = .ok bytes := by
  simp only [edgePlatform, plainPlatform, Base64.decode_encode]

/-- A prelude commits to its frame. -/
theorem edge_commits {prelude : V6RequestPrelude} {frame : Frame}
    (hhash : prelude.rootRequestHash = Sha256.digest (edgeFrameJson frame))
    (hkind : prelude.operationKind = frameKind frame) :
    rootOkForRecv edgePlatform prelude frame = true := by
  simp only [rootOkForRecv, hhash, hkind, decide_eq_true_eq, and_true]
  rfl

theorem edge_called_commits (requestId : UInt8) (frame : Frame) :
    rootOkForRecv edgePlatform (edgeCalled requestId frame) frame = true :=
  edge_commits rfl rfl

/-- A request under the call key is accepted. -/
theorem edge_proves (requestId : UInt8) (frame : Frame) :
    ∃ proof, (edgeCalled requestId frame).profileProof = some proof ∧
      verifyProfilePreludeProof edgePlatform edgeCallKey proof (edgeCalled requestId frame) =
        .ok () := by
  refine ⟨_, rfl, verifyProfilePreludeProof_of_made _ edge_decodes (fun bytes => ?_) rfl⟩
  show Text.byteLen (Base64.encode bytes.val) ≤ 64
  rw [Base64.byteLen_encode, bytes.property]
  decide

/-- The grant that is issued. -/
def edgeGrant : OperationGrant where
  grantId := edgeGrantId
  profileName := "edge"
  profileId := edgeIdentity.profileId
  profileGeneration := 1
  operations := ["ssh.exec"]
  budget := 1
  issuedUnixMs := 1700000002000
  expiresUnixMs := 1700000062000
  holderKey := edgeHolder

/-- The profile, unlocked. -/
def edgeEntry : ProfilePoolEntry := ⟨0, edgeIdentity, "edge", edgeCallKey, 500 + credentialLeaseTtl⟩

/-- The grant in the registry. -/
def edgeRecord : GrantRecord := ⟨0, edgeGrant, edgeEntry, 62000, rfl, rfl, rfl⟩

/-- The registry with this grant. -/
def edgeRegistry : GrantRegistryState := { live := Table.empty.insert edgeGrantId edgeRecord }

theorem edge_preludes_valid : (edgePrelude 32 edgeUnlock).validate = .ok () ∧
    (edgeCalled 33 edgeIssue).validate = .ok () ∧ edgeExecPrelude.validate = .ok () := by
  decide

theorem edge_grantFor : grantFor edgePlatform edgeEntry (edgeCalled 33 edgeIssue) "edge"
    ["ssh.exec"] 1 60 (Base64.encode edgeHolder.val) edgeIdentity.profileId edgeGrantId
    (UInt64.ofNat 1700000002000).toNat = .ok edgeGrant := by
  obtain ⟨proof, hproof, hverified⟩ := edge_proves 33 edgeIssue
  have hunique : uniqueOperations ["ssh.exec"] = ["ssh.exec"] := by decide +kernel
  have hgrantable : (["ssh.exec"] ≠ [] ∧
      ["ssh.exec"].all (grantableOperationKinds.contains ·) = true) := by decide
  have hnew : OperationGrant.newWithTtl edgeGrantId "edge" edgeIdentity.profileId 1 ["ssh.exec"] 1
      edgeHolder 1700000002000 60 = .ok edgeGrant := rfl
  simp only [grantFor, bind_eq_ok, ensure_eq_ok, orBail_eq_ok, inContext, mapError_eq_ok,
    ofLength_eq_ok, hunique]
  exact ⟨(), rfl, proof, hproof, (), hverified, (), hgrantable, _, edge_decodes edgeHolder.val,
    edgeHolder, rfl, (), rfl, hnew⟩

theorem edge_verifies {key : Bytes 32} {message : List UInt8} (h : (key, message) ∈ edgeSigned) :
    edgePlatform.ed25519Verify key message edgeSignature = .ok () :=
  if_pos ⟨h, rfl⟩

theorem edge_signed : (edgeHolder, preludePopMessage edgePlatform edgeExecPrelude) ∈ edgeSigned :=
  mem_singleton_self (edgeHolder, preludePopMessage plainPlatform edgeExecPrelude)

/-- The request under the grant is accepted, until its own deadline. -/
theorem edge_accepted : Accepted edgePlatform edgeRecord edgeGrantId edgeExecPrelude edgeExec 3000
    1700000003000 10000 where
  root := edge_commits rfl rfl
  profile := rfl
  grant := rfl
  valid := by
    have hlength : Text.byteLen (edgePlatform.base64Encode edgeSignature.val) ≤
        popSignatureB64Len + 16 := by
      show Text.byteLen (Base64.encode edgeSignature.val) ≤ popSignatureB64Len + 16
      rw [Base64.byteLen_encode, edgeSignature.property]
      decide
    have hpop := verifyPreludePop_of_signed _ edge_decodes hlength rfl (edge_verifies edge_signed)
    simp only [GrantRecord.validateRequest, bind_eq_ok, ensure_eq_ok, orBail_eq_ok]
    exact ⟨(), rfl, (), rfl, (), rfl, (), by decide, (), by decide, (), by decide, (), by decide, _,
      rfl, hpop⟩
  binding := rfl
  identity := rfl
  limit := rfl

/-! ### The run -/

/-- Handlers that do nothing of their own. -/
def noHandlers : AsyncSystem Unit Empty (fun _ => Unit) Unit where
  exec _ op _ := nomatch op
  env _ _ := none
  crash w _ := some w
  drop _ op _ := nomatch op

/-- A daemon with these handlers. -/
abbrev edgePool (handlers : HandlerContext → Frame → Handler (fun _ : Empty => Unit)) :=
  daemonPool edgePlatform handlers jsonSerde edgeKeys noHandlers 1

/-- What the handler fails with. -/
def edgeRefused : Error := .msg "connect SSH: Connection refused (os error 111)"

/-- The server cannot be reached. -/
def refusing : HandlerContext → Frame → Handler (fun _ : Empty => Unit) :=
  fun _ _ => Task.fail edgeRefused

/-- The daemon at its start. -/
def edgeStart : World Unit where
  history := []
  files _ := ⟨none, none⟩
  pool := .empty
  entries := 0
  quarantined _ := false
  registry := {}
  issued := []
  remaining _ := 0
  audit _ := .pending
  handlers := ()

theorem edgeStart_fresh : Fresh edgeStart := ⟨rfl, rfl, fun _ => rfl, rfl, rfl⟩

/-- The first record of the ledger. -/
def edgeGenesis : AuditEvent :=
  Audit.generationTransitionEvent edgePlatform.toCrypto jsonSerde (ledgerOf edgeKeys edgeIdentity)
    none "edge" "edge" 1700000000000

theorem edge_admits_genesis : Admitted (ledgerOf edgeKeys edgeIdentity) edgeGenesis := by
  apply Audit.admitted_generationTransitionEvent
  decide

/-- The ledger with its first record. -/
def EdgeLedger (files : Files) : Prop :=
  ∃ checkpoint, AtHead edgePlatform.toCrypto jsonSerde (ledgerOf edgeKeys edgeIdentity) files
    checkpoint (jsonSerde.record (nextRecord edgePlatform.toCrypto jsonSerde
      (ledgerOf edgeKeys edgeIdentity) {} edgeGenesis) ++ [newline]) [edgeGenesis]

/-- The world after the profile was unlocked. -/
def edgeUnlocked (files : Files) : World Unit :=
  unlockExec (edgeStart.setFiles edgeIdentity files) edgeIdentity "edge" edgeCallKey
    (500 + credentialLeaseTtl)

/-- The world after the grant was issued as well. -/
def edgeReady (files : Files) : World Unit := (edgeUnlocked files).issue edgeRecord edgeRegistry

theorem files_edgeReady (files : Files) : (edgeReady files).files edgeIdentity = files := by
  simp [edgeReady, edgeUnlocked, World.issue, unlockExec, World.setFiles]

theorem edge_entryFor {w : World Unit} {entry : ProfilePoolEntry} {now : Nat}
    (hpool : w.pool = Table.empty.insert edgeIdentity.profileId entry)
    (hlease : now < entry.expiresAt) :
    entryForExec w edgeIdentity.profileId now = (some entry, w) := by
  have hkept : w.pool.keep (fun id entry =>
      ¬(id = edgeIdentity.profileId ∧ entry.expiresAt ≤ now)) = w.pool := by
    rw [hpool]
    simp [Table.keep, Table.insert, Table.empty, Table.find, hlease]
  have hfound : w.pool.find edgeIdentity.profileId = some entry := by simp [hpool]
  simp only [entryForExec, hkept, hfound]

theorem edge_issues {handlers : HandlerContext → Frame → Handler (fun _ : Empty => Unit)}
    (files : Files) : CanEnd (connSystem edgePlatform jsonSerde edgeKeys noHandlers)
      (handleGlobalConn edgePlatform handlers 1 1 (edgeCalled 33 edgeIssue)) 0
      (edgeUnlocked files) (.done ()) (edgeReady files) := by
  have hentry : entryForExec (edgeUnlocked files) edgeIdentity.profileId 1000 =
      (some edgeEntry, edgeUnlocked files) := edge_entryFor rfl (by decide)
  have hinsert : (edgeUnlocked files).registry.insert (edgeUnlocked files).issued.length edgeGrant
      edgeEntry 2000 = .ok (edgeRecord, edgeRegistry) := rfl
  exact canEnd_issuing 1000 1700000002000 2000 (edge_called_commits 33 edgeIssue) rfl rfl hentry
    edge_grantFor hinsert

/-- The profile is unlocked and the grant is issued. -/
theorem edge_ready_run (handlers : HandlerContext → Frame → Handler (fun _ : Empty => Unit)) :
    ∃ ms threads files,
      (edgePool handlers).run (Pool.idle edgeStart) ms = some ⟨edgeReady files, threads⟩ ∧
      (∀ conn, 1 < conn → threads conn = none) ∧ EdgeLedger files := by
  -- the ledger starts
  have hname : ∀ label, Audit.validateTransitionName "edge" label = .ok () :=
    fun label => Audit.ensure_eq_ok.mpr (by decide)
  have hat : (0 : UInt64) < 1700000000000 := by decide
  have hfirst := Audit.length_record_le (Audit.plain_nextRecord (c := edgePlatform.toCrypto)
    (s := jsonSerde) (v := {}) edge_admits_genesis (show (0 : Nat) + 1 < 2 ^ 64 by decide))
  obtain ⟨checkpoint, files, hsteady, hhead⟩ :=
    Audit.steady_initializeGeneration jsonSerde_lawful hat (hname _) (hname _) hfirst
  obtain ⟨c, henv⟩ := exec_ledger (H := noHandlers) (w := edgeStart)
    (.initializeGeneration none "edge" "edge" 1700000000000) hsteady
  have hfiles : (edgeStart.setFiles edgeIdentity files).files edgeIdentity = files := by
    simp [World.setFiles]
  have hpending : (verifiedOf edgePlatform.toCrypto jsonSerde [edgeGenesis]).pendingIntents = [] :=
    rfl
  have hverified := hhead
  rw [← hfiles] at hverified
  have hunlocks : CanEnd (connSystem edgePlatform jsonSerde edgeKeys noHandlers)
      (handleGlobalConn edgePlatform handlers 1 0 (edgePrelude 32 edgeUnlock)) 0
      (edgeStart.setFiles edgeIdentity files) (.done ()) (edgeUnlocked files) :=
    canEnd_unlocking edgeCallKey 500 (edge_commits rfl rfl) rfl hverified hpending
  obtain ⟨hvalid0, hvalid1, -⟩ := edge_preludes_valid
  obtain ⟨ms0, hrun0⟩ := run_connection (run_env henv) hvalid0 rfl rfl hunlocks
  obtain ⟨ms1, hrun1⟩ := run_connection hrun0 hvalid1 rfl rfl (edge_issues files)
  refine ⟨ms1, _, files, hrun1, fun conn hconn => ?_, checkpoint, hhead⟩
  rw [Function.update_of_ne (Nat.ne_of_gt hconn),
    Function.update_of_ne (Nat.ne_of_gt (Nat.lt_of_succ_lt hconn))]

/-- The audit of the request under the grant. -/
def edgeOperation (conn : Nat) : GrantAuditOperation :=
  .new edgePlatform conn edgeRecord edgeExecPrelude 10000

/-- The intent of the command. -/
def edgeIntent (conn : Nat) : AuditEvent :=
  (edgeOperation conn).intent (UInt64.ofNat 1700000003000)

/-- The outcome of the command. -/
def edgeOutcome (conn : Nat) : AuditEvent :=
  (edgeOperation conn).outcome edgePlatform ⟨.unknown, "dispatch.no_terminal_result", []⟩
    (UInt64.ofNat 1700000004000)

theorem edge_admits_intent (conn : Nat) :
    Admitted (ledgerOf edgeKeys edgeIdentity) (edgeIntent conn) :=
  admitted_intent conn 10000 edgeRecord edgeExecPrelude (by decide) rfl

theorem edge_admits_outcome (conn : Nat) :
    Admitted (ledgerOf edgeKeys edgeIdentity) (edgeOutcome conn) :=
  admitted_outcome conn 10000 edgeRecord edgeExecPrelude (by decide) rfl
    (Audit.ensure_eq_ok.mpr (by decide)) (by decide)

/-- The request waits for its outcome. -/
def edgeAudited (files : Files) : World Unit :=
  { edgeReady files with audit := update (edgeReady files).audit 2 .pending }

/-- The intent was recorded. -/
def edgeIntended (files₀ files₁ : Files) : World Unit :=
  ((edgeAudited files₀).setFiles edgeIdentity files₁).record 2
    [.attempted edgeEntry (edgeIntent 2), .appended edgeEntry (edgeIntent 2)]

/-- The last unit was spent, and the request was dispatched. -/
def edgeDispatched (files₀ files₁ : Files) : World Unit :=
  (edgeIntended files₀ files₁).dispatch 2 edgeGrantId ⟨edgeRecord, edgeExecPrelude, edgeExec⟩ 3000 0

/-- The outcome is on its way. -/
def edgeFinalizing (files₀ files₁ : Files) : World Unit :=
  { edgeDispatched files₀ files₁ with
    audit := update (edgeDispatched files₀ files₁).audit 2 .finalizing }

theorem files_edgeFinalizing (files₀ files₁ : Files) :
    (edgeFinalizing files₀ files₁).files edgeIdentity = files₁ := by
  simp [edgeFinalizing, edgeDispatched, edgeIntended, World.dispatch, World.record, World.setFiles]

/-- The outcome was recorded. -/
def edgeAnswered (files₀ files₁ files₂ : Files) : World Unit :=
  ((edgeFinalizing files₀ files₁).setFiles edgeIdentity files₂).record 2
    [.attempted edgeEntry (edgeOutcome 2), .appended edgeEntry (edgeOutcome 2)]

/-- The intent and the outcome go into the ledger. -/
theorem edge_records {files0 : Files} (hledger : EdgeLedger files0) :
    ∃ m1 m2 files1 files2,
      connExec edgePlatform jsonSerde edgeKeys noHandlers (edgeAudited files0)
        (.append 2 edgeEntry (edgeIntent 2)) (.faults (replicate m1 .none)) =
          some (.ok (), edgeIntended files0 files1) ∧
      connExec edgePlatform jsonSerde edgeKeys noHandlers (edgeFinalizing files0 files1)
        (.append 2 edgeEntry (edgeOutcome 2)) (.faults (replicate m2 .none)) =
          some (.ok (), edgeAnswered files0 files1 files2) ∧
      journal jsonSerde files1 = [edgeGenesis, edgeIntent 2] ∧
      (files1.log.getD []).length ≤ 2 * (Audit.maxAuditRecordBytes + 1) := by
  obtain ⟨checkpoint, hhead⟩ := hledger
  have hsize : ∀ r : Audit.AuditRecord, r.Plain →
      (jsonSerde.record r).length ≤ Audit.maxAuditRecordBytes :=
    fun _ hplain => Audit.length_record_le hplain
  have hintent := Audit.takes_after_first (c := edgePlatform.toCrypto) (s := jsonSerde)
    edge_admits_genesis (edge_admits_intent 2) rfl rfl hsize
  have hmatches : (Audit.PendingIntentBinding.fromIntent (edgeIntent 2)).ensureMatchesOutcome
      (edgeOutcome 2) = .ok () := by
    simp only [Audit.PendingIntentBinding.ensureMatchesOutcome, check_eq_ok, Audit.ensure_eq_ok]
    exact ⟨rfl, rfl, rfl⟩
  have houtcome := Audit.takes_after_intent (c := edgePlatform.toCrypto)
    (s := jsonSerde) edge_admits_genesis
    (edge_admits_intent 2) (edge_admits_outcome 2) rfl rfl rfl rfl hmatches hsize
  obtain ⟨m1, files1, checkpoint1, hexec1, hhead1⟩ :=
    exec_append (H := noHandlers) jsonSerde_lawful 2 edgeEntry hhead hintent
  obtain ⟨m2, files2, checkpoint2, hexec2, -⟩ :=
    exec_append (H := noHandlers) jsonSerde_lawful 2 edgeEntry hhead1 houtcome
  have hrecord0 := hsize _ (Audit.plain_nextRecord (c := edgePlatform.toCrypto)
    (s := jsonSerde) (v := {}) edge_admits_genesis (show (0 : Nat) + 1 < 2 ^ 64 by decide))
  have hrecord1 : (jsonSerde.record (nextRecord edgePlatform.toCrypto jsonSerde
      (ledgerOf edgeKeys edgeEntry.identity) (verifiedOf edgePlatform.toCrypto jsonSerde
        [edgeGenesis]) (edgeIntent 2))).length ≤ Audit.maxAuditRecordBytes := hintent.record
  refine ⟨m1, m2, files1, files2, hexec1 _ (files_edgeReady files0),
    hexec2 _ (files_edgeFinalizing files0 files1),
    Audit.journal_of_log hhead1.log hhead1.carried, ?_⟩
  rw [hhead1.log]
  exact Audit.length_lines_le hrecord0 hrecord1

/-- What the third connection does. -/
def edgeHistory : List Event :=
  [.attempted edgeEntry (edgeIntent 2), .appended edgeEntry (edgeIntent 2), .spent 0,
    .dispatched ⟨edgeRecord, edgeExecPrelude, edgeExec⟩, .attempted edgeEntry (edgeOutcome 2),
    .appended edgeEntry (edgeOutcome 2)]

section Request

variable {S : AsyncSystem (World Unit) (ConnOp Empty) (ConnAns (fun _ => Unit)) (ConnChoice Unit)}
  {handlers : HandlerContext → Frame → Handler (fun _ : Empty => Unit)} {files0 files1 : Files}
  {c : ConnChoice Unit} {r : Ended Error Unit} {w : World Unit}
  (hquiet : Quiet edgePlatform jsonSerde edgeKeys noHandlers S [3000, 4000]
    [1700000003000, 1700000004000])
  (hnew : S.exec (edgeReady files0) (.auditNew (edgeOperation 2)) .plain =
    some ((), edgeAudited files0))
  (hintent : S.exec (edgeAudited files0) (.append 2 edgeEntry (edgeIntent 2)) c =
    some (.ok (), edgeIntended files0 files1))

include hquiet hnew hintent

/-- The request is dispatched, the handler fails, and then comes the outcome. -/
theorem edge_dispatches {e e' : Error} {w2 w3 : World Unit}
    (hhandler : CanEnd S (dispatchRootRequest edgePlatform handlers
      ⟨edgeEntry, some (edgeOperation 2), 10000⟩ edgeExec) 0 (edgeDispatched files0 files1)
      (.failed e) w2)
    {finalization : Except Error Unit}
    (hfinal : CanEnd S (attempt ((edgeOperation 2).finalizeUnknownIfPending edgePlatform) :
      ConnTask (fun _ : Empty => Unit) _) 0 w2 (.done finalization) w3)
    (herror : finalization = .ok () ∧ e' = e ∨ finalization = .error e') :
    CanEnd S (handleGlobalConn edgePlatform handlers 1 2 edgeExecPrelude) 0 (edgeReady files0)
      (.failed e') w3 := by
  have hleads : Leads S (handleGlobalConn edgePlatform handlers 1 2 edgeExecPrelude) 0
      (edgeReady files0) _ (edgeAudited files0) :=
    leads_auditGrantRequest hquiet (by simp) (by simp) edge_accepted rfl hnew
  apply hleads.canEnd
  exact canEnd_auditGrantRequest hquiet (by simp) (by simp) (show 3000 < 10000 by decide) hintent
    rfl rfl hhandler hfinal herror

/-- The server cannot be reached, and the outcome is recorded as unknown. -/
theorem edge_refuses {files2 : Files} {d : ConnChoice Unit}
    (houtcome : S.exec (edgeFinalizing files0 files1) (.append 2 edgeEntry (edgeOutcome 2)) d =
      some (.ok (), edgeAnswered files0 files1 files2)) :
    CanEnd S (handleGlobalConn edgePlatform refusing 1 2 edgeExecPrelude) 0 (edgeReady files0)
      (.failed edgeRefused) { edgeAnswered files0 files1 files2 with
        audit := update (edgeAnswered files0 files1 files2).audit 2 .complete } := by
  have hfinal : CanEnd S ((edgeOperation 2).finalizeUnknownIfPending edgePlatform :
      ConnTask (fun _ : Empty => Unit) _) 0 (edgeDispatched files0 files1) (.done ()) _ :=
    canEnd_finalizeUnknownIfPending hquiet rfl (show 4000 ∈ [3000, 4000] by simp)
      (show 1700000004000 ∈ [1700000003000, 1700000004000] by simp)
      (show 4000 < 10000 by decide) houtcome
  exact edge_dispatches hquiet hnew hintent (canEnd_refused rfl) hfinal.attempt_done
    (.inl ⟨rfl, rfl⟩)

end Request

/-- The three connections, one after the other. -/
theorem edge_run : ∃ ms cfg, (edgePool refusing).run (Pool.idle edgeStart) ms = some cfg ∧
    cfg.world.history = edgeHistory.map (Prod.mk 2) ∧ cfg.world.issued = [edgeRecord] ∧
    cfg.threads 2 = some (.ret (edgeExecPrelude, .failed edgeRefused)) := by
  obtain ⟨ms, threads, files0, hrun, hidle, hledger⟩ := edge_ready_run refusing
  obtain ⟨m1, m2, files1, files2, hintent, houtcome, -⟩ := edge_records hledger
  have hrefuses := edge_refuses (S := connSystem edgePlatform jsonSerde edgeKeys noHandlers)
    (c := .faults (replicate m1 .none)) (d := .faults (replicate m2 .none)) quiet_connSystem rfl
    hintent houtcome
  obtain ⟨ms2, hrun2⟩ := run_connection hrun edge_preludes_valid.2.2 rfl (hidle 2 (by decide))
    hrefuses
  exact ⟨ms2, _, hrun2, rfl, rfl, by simp⟩

theorem edge_request_accounted : ∃ ms cfg e,
    (edgePool refusing).run (Pool.idle edgeStart) ms = some cfg ∧
    cfg.threads 2 = some (.ret (edgeExecPrelude, .failed edgeRefused)) ∧
    Event.dispatched ⟨edgeRecord, edgeExecPrelude, edgeExec⟩ ∈ trace cfg.world.history 2 ∧
    IntentOf edgeExecPrelude e ∧
    e ∈ journal Audit.jsonSerde (cfg.world.files edgeIdentity) ∧
    cfg.world.remaining 0 + spentOn (spends cfg.world.history) 0 = 1 := by
  obtain ⟨ms, cfg, hrun, hhistory, hissued, hreturned⟩ := edge_run
  have htrace : trace cfg.world.history 2 = edgeHistory := by
    rw [hhistory]
    simp [trace, edgeHistory]
  obtain ⟨horder, -, -, hbudget⟩ :=
    grant_requests_accounted jsonSerde_lawful edgeStart_fresh hrun hreturned
  obtain ⟨e, hintent, hcarried, -⟩ := horder [_, _, _] _ [_, _] htrace
  have hleft := hbudget edgeRecord (by rw [hissued]; exact mem_singleton_self _)
  refine ⟨ms, cfg, e, hrun, hreturned, ?_, hintent, hcarried, hleft⟩
  rw [htrace]
  simp [edgeHistory]

theorem edge_dispatch_within_grant : ∃ ms cfg,
    (edgePool refusing).run (Pool.idle edgeStart) ms = some cfg ∧
    dispatches cfg.world.history = [(2, ⟨edgeRecord, edgeExecPrelude, edgeExec⟩)] ∧
    ((dispatches cfg.world.history).filter fun d => d.2.record = edgeRecord).length ≤ 1 ∧
    "ssh.exec" ∈ edgeGrant.operations ∧
    (edgeHolder, preludePopMessage edgePlatform edgeExecPrelude) ∈ edgeSigned := by
  obtain ⟨ms, cfg, hrun, hhistory, hissued, -⟩ := edge_run
  have hdispatches : dispatches cfg.world.history =
      [(2, ⟨edgeRecord, edgeExecPrelude, edgeExec⟩)] := by
    rw [hhistory]
    rfl
  have hunforgeable : ∀ key message signature,
      edgePlatform.ed25519Verify key message signature = .ok () → (key, message) ∈ edgeSigned := by
    intro key message signature hverify
    simp only [edgePlatform] at hverify
    split at hverify
    · rename_i h
      exact h.1
    · cases hverify
  obtain ⟨hbudget, hwithin, -⟩ :=
    dispatches_within_grants jsonSerde_lawful hunforgeable edgeStart_fresh hrun
  obtain ⟨-, hoperation, -, -, -, -, -, hsigned⟩ :=
    hwithin (2, ⟨edgeRecord, edgeExecPrelude, edgeExec⟩) (by rw [hdispatches]; simp)
  have hless := hbudget edgeRecord (by rw [hissued]; exact mem_singleton_self _)
  exact ⟨ms, cfg, hrun, hdispatches, hless, hoperation, hsigned⟩

end Serctl.Daemon
