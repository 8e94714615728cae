import Serctl.Audit.LedgerSafety
import Serctl.Daemon.Conn

/-!
# How requests can go

Runs of connections and of the ledger that nothing disturbs: a request is read, a response is
written, an event that the ledger takes is appended.  A connection that ends by itself is a run of
the daemon.
-/

namespace Serctl.Daemon

open Lib Lib.Task Ipc List GrantAuditOperation
open Function (update update_self update_idem)
open Audit (AuditEvent AuditCheckpoint AuditLedger Files LedgerCall Serde AtHead Admitted
  VerifiedLog isLowerHex_bytes newline nextRecord verifiedOf)

variable {HW HOp : Type} {HAns : HOp → Type} {HC : Type} {x : Platform} {s : Serde}
  {keys : ProfileIdentity → Bytes 32} {H : AsyncSystem HW HOp HAns HC} {n : Nat} {w w' : World HW}

theorem canEnd_ask {op : ConnOp HOp} {c : ConnChoice HC} {a : ConnAns HAns op}
    (h : connExec x s keys H w op c = some (a, w')) :
    CanEnd (connSystem x s keys H) (ask op : ConnTask HAns _) n w (.done a) w' :=
  CanEnd.call h

/-- The clock shows any time. -/
theorem canEnd_instantNow (now : Nat) :
    CanEnd (connSystem x s keys H) (ask .instantNow : ConnTask HAns _) n w (.done now) w :=
  canEnd_ask (c := .time now) rfl

/-! ## Reading and answering -/

variable {prelude : V6RequestPrelude} {frame : Frame}

/-- A request that arrives is read. -/
theorem canEnd_reading {S : ConnSystem HW HAns HC}
    {c : ConnChoice HC}
    (h : S.exec w (.readRoot prelude) c = some (.ok frame, w)) :
    CanEnd S (readAuthenticatedRequest prelude : ConnTask HAns _) n w (.done (some frame)) w := by
  have hread : CanEnd S (ask (.readRoot prelude) : ConnTask HAns _) (n + 1 + 1) w
      (.done (.ok frame)) w := CanEnd.call h
  have hinner : CanEnd S (timed (ask (.readRoot prelude) : ConnTask HAns _) : ConnTask HAns _)
      (n + 1) w (.done (some (.ok (.ok frame)))) w := hread.timed_done
  apply CanEnd.bind
  · exact (hinner.bind (CanEnd.orElseFail rfl)).timed_done
  · exact (CanEnd.orElseFail rfl).bind (CanEnd.pure _)

/-- The request that the prelude commits to can be read. -/
theorem canEnd_readAuthenticatedRequest (hroot : rootOkForRecv x prelude frame = true) :
    CanEnd (connSystem x s keys H) (readAuthenticatedRequest prelude : ConnTask HAns _) n w
      (.done (some frame)) w := by
  have hread : (connSystem x s keys H).exec w (.readRoot prelude) (.frame frame) =
      some (.ok frame, w) := by
    simp [connSystem, connExec, readRootExec, hroot]
  exact canEnd_reading hread

/-- An answer can be written. -/
theorem canEnd_respond :
    CanEnd (connSystem x s keys H) (respond x frame : ConnTask HAns _) n w (.done ()) w := by
  have hwrite : CanEnd (connSystem x s keys H)
      (writeFrameUntil x none frame (0 + ipcResponseWriteTimeout) : ConnTask HAns _) (n + 1) w
      (.done ()) w := by
    apply (CanEnd.pure frame).bind
    apply (canEnd_instantNow 0).bind
    have hlt : 0 < 0 + ipcResponseWriteTimeout := by decide
    apply (CanEnd.require hlt).bind
    have hframe : CanEnd (connSystem x s keys H) (ask (.writeFrame frame) : ConnTask HAns _)
        (n + 1 + 1) w (.done (.ok ())) w := canEnd_ask (c := .plain) rfl
    exact hframe.timed_done.bind (CanEnd.orElseFail rfl)
  apply (canEnd_instantNow 0).bind
  apply CanEnd.bind (canEnd_ask (c := .flag false) rfl)
  apply (CanEnd.require rfl).bind
  exact hwrite.timed_done.bind (CanEnd.orElseFail rfl)

/-! ## The ledger -/

variable {e : AuditEvent} {checkpoint : AuditCheckpoint} {terminal : AuditTerminal}

/-- An append that the ledger takes, on the log of which these are the events. -/
theorem exec_append (hs : s.Lawful) (conn : Nat) (entry : ProfilePoolEntry) {files : Files}
    {old : List UInt8} {events : List AuditEvent}
    (hhead : AtHead x.toCrypto s (ledgerOf keys entry.identity) files checkpoint old events)
    (htakes : Audit.Takes x.toCrypto s (ledgerOf keys entry.identity)
      (verifiedOf x.toCrypto s events) old e) :
    ∃ m files' checkpoint',
      (∀ w : World HW, w.files entry.identity = files →
        connExec x s keys H w (.append conn entry e) (.faults (replicate m .none)) =
          some (.ok (), (w.setFiles entry.identity files').record conn
            [.attempted entry e, .appended entry e])) ∧
      AtHead x.toCrypto s (ledgerOf keys entry.identity) files' checkpoint'
        (old ++ (s.record (nextRecord x.toCrypto s (ledgerOf keys entry.identity)
          (verifiedOf x.toCrypto s events) e) ++ [newline])) (events ++ [e]) := by
  have hon : Audit.OnChain x.toCrypto s (ledgerOf keys entry.identity) files
      (verifiedOf x.toCrypto s events) := ⟨checkpoint, hhead.stored, hhead.onChain⟩
  obtain ⟨checkpoint', files', events', hsteady, hhead', hevents⟩ :=
    Audit.steady_append hs hhead.log hhead.verified hon htakes
  cases hevents.symm.trans hhead.carried
  obtain ⟨m, hfollow⟩ := Prog.follow_of_steadily _ hsteady
  refine ⟨m, files', checkpoint', fun w hw => ?_, hhead'⟩
  rw [← hw] at hfollow
  simp only [connExec, appendExec, hfollow]

variable {conn : Nat} {at' : UInt64}

/-- The events of a request are such that the ledger may hold them. -/
theorem admitted_event {deadline : Nat} {record : GrantRecord}
    {phase : Audit.AuditPhase} {decision : Audit.AuditDecision} {code : String}
    (digest : Option (Bytes 32)) (hat : 0 < at')
    (hkind : Audit.validateToken prelude.operationKind Audit.maxOperationKindBytes
      "operation kind" = .ok ())
    (hcode : Audit.validateToken code Audit.maxReasonCodeBytes "reason code" = .ok ())
    (hphase : ((new x conn record prelude deadline).event phase decision code
      (digest.map fun d => Text.hexEncode d.val) at').validatePhase = .ok ()) :
    Admitted (ledgerOf keys record.entry.identity)
      ((new x conn record prelude deadline).event phase decision code
        (digest.map fun d => Text.hexEncode d.val) at') := by
  refine ⟨?_, rfl, rfl⟩
  simp only [AuditEvent.validate, Guard.check_eq_ok, Audit.ensure_eq_ok]
  refine ⟨?_, record.entry.identity.generation_pos, hat, hkind, hcode, ?_, ?_, ?_, hphase⟩
  · simp [Audit.validateProfileId, event, new,
      isLowerHex_bytes]
  · simp [Audit.validateDigest, event, new,
      GrantRecord.policyDigest, isLowerHex_bytes]
  · simp [Audit.validateDigest, event, new,
      isLowerHex_bytes]
  · cases digest with
    | none => rfl
    | some d =>
      simp [Audit.validateResultDigest, Audit.validateDigest, event,
        isLowerHex_bytes]

section

variable (conn deadline : Nat) (record : GrantRecord) (prelude : V6RequestPrelude) (hat : 0 < at')
    (hkind : Audit.validateToken prelude.operationKind Audit.maxOperationKindBytes
      "operation kind" = .ok ())

include hat hkind

theorem admitted_intent : Admitted (ledgerOf keys record.entry.identity)
      ((new x conn record prelude deadline).intent at') :=
  admitted_event none hat hkind (Audit.ensure_eq_ok.mpr (by decide)) rfl

theorem admitted_outcome
    (hcode : Audit.validateToken terminal.reasonCode Audit.maxReasonCodeBytes "reason code" =
      .ok ())
    (hdecision : terminal.decision ≠ .pending) :
    Admitted (ledgerOf keys record.entry.identity)
      ((new x conn record prelude deadline).outcome x terminal at') :=
  admitted_event (some _) hat hkind hcode (Audit.ensure_eq_ok.mpr ⟨hdecision, rfl⟩)

end

/-- A call of the ledger that succeeds is a move of the daemon. -/
theorem exec_ledger {identity : ProfileIdentity} (call : LedgerCall)
    {files : Files} (h : Audit.Ends (Audit.serve x.toCrypto s (ledgerOf keys identity) call)
      (w.files identity) checkpoint files) :
    ∃ c, connEnv x s keys H w c = some (w.setFiles identity files) := by
  obtain ⟨m, hfollow⟩ := Prog.follow_of_steadily _ h
  refine ⟨.ledger identity call (replicate m .none), ?_⟩
  simp only [connEnv, ledgerEnv, hfollow, Option.map_some]

/-- A ledger in which nothing is pending passes the verification of an unlock. -/
theorem exec_unlockWorker {identity : ProfileIdentity} (profile passphrase : String)
    (callKey : Bytes 32) {old : List UInt8} {events : List AuditEvent}
    (hhead : AtHead x.toCrypto s (ledgerOf keys identity) (w.files identity) checkpoint old events)
    (hpending : (verifiedOf x.toCrypto s events).pendingIntents = []) :
    ∃ c, connExec x s keys H w (.unlockWorker profile passphrase) c =
      some (.ok (.ok (identity, callKey)), w) := by
  have hcomplete : Audit.ensureComplete (verifiedOf x.toCrypto s events) true = .ok () := by
    simp [Audit.ensureComplete, hpending, Audit.ensure_eq_ok]
  have hverify : Audit.Ends (Audit.serve x.toCrypto s (ledgerOf keys identity)
      (.verify none true)) (w.files identity) checkpoint (w.files identity) :=
    Audit.steady_verify hhead rfl hcomplete
  obtain ⟨m, hfollow⟩ := Prog.follow_of_steadily _ hverify
  refine ⟨.unlocked identity callKey (replicate m .none), ?_⟩
  have hsame : w.setFiles identity (w.files identity) = w := by
    simp [World.setFiles]
  simp only [connExec, unlockWorkerExec, hfollow, hsame]

/-! ## Parts of a request -/

/-- The wall clock shows any time. -/
theorem canEnd_unixNow (now : Nat) :
    CanEnd (connSystem x s keys H) (ask .unixNow : ConnTask HAns _) n w
      (.done (UInt64.ofNat now)) w :=
  canEnd_ask (c := .time now) rfl

/-- The operations that neither start an audit nor publish an entry or a grant. -/
def IsUsual : ConnOp HOp → Prop
  | .auditNew _ => False
  | .insertEntry _ _ _ _ => False
  | .insertGrant _ _ _ => False
  | _ => True

/-- A system that answers usual operations as the daemon does, while its clocks show these times.
    Appends are left open. -/
structure Quiet (x : Platform) (s : Serde) (keys : ProfileIdentity → Bytes 32)
    (H : AsyncSystem HW HOp HAns HC)
    (S : ConnSystem HW HAns HC)
    (times walls : List Nat) : Prop where
  read : ∀ {w prelude frame}, rootOkForRecv x prelude frame = true →
    S.exec w (.readRoot prelude) (.frame frame) = some (.ok frame, w)
  instantNow : ∀ {w now}, now ∈ times → S.exec w .instantNow (.time now) = some (now, w)
  unixNow : ∀ {w now}, now ∈ walls →
    S.exec w .unixNow (.time now) = some (UInt64.ofNat now, w)
  plain : ∀ {w op a w'}, IsUsual op → connExec x s keys H w op .plain = some (a, w') →
    S.exec w op .plain = some (a, w')
  spend : ∀ {w conn record current r w'},
    connExec x s keys H w (.remainingCompareExchangeWeak conn record current) (.flag true) =
      some (r, w') →
    S.exec w (.remainingCompareExchangeWeak conn record current) (.flag true) = some (r, w')

/-- The daemon itself, at any times. -/
theorem quiet_connSystem {times walls : List Nat} :
    Quiet x s keys H (connSystem x s keys H) times walls where
  read hroot := by simp [connSystem, connExec, readRootExec, hroot]
  instantNow _ := rfl
  unixNow _ := rfl
  plain _ h := h
  spend h := h

section Parts

variable {S : ConnSystem HW HAns HC}
  {times walls : List Nat} {op : GrantAuditOperation} {c : ConnChoice HC} {now wallNow : Nat}

section

variable (hquiet : Quiet x s keys H S times walls)

include hquiet

theorem canEnd_append (htime : now ∈ times) (hnow : now < op.deadline)
    (h : S.exec w (.append op.conn op.entry e) c = some (.ok (), w')) :
    CanEnd S (op.append e : ConnTask HAns _) n w (.done ()) w' := by
  have hworker : CanEnd S (ask (.append op.conn op.entry e) : ConnTask HAns _) (n + 1) w
      (.done (.ok ())) w' := CanEnd.call h
  apply CanEnd.bind (CanEnd.call (hquiet.instantNow htime))
  apply (CanEnd.require hnow).bind
  exact hworker.timed_done.bind (CanEnd.orElseFail rfl)

theorem canEnd_recordIntent (htime : now ∈ times) (hwall : wallNow ∈ walls)
    (hnow : now < op.deadline)
    (h : S.exec w (.append op.conn op.entry (op.intent (UInt64.ofNat wallNow))) c =
      some (.ok (), w')) :
    CanEnd S (op.recordIntent : ConnTask HAns _) n w (.done ()) w' := by
  apply CanEnd.bind (CanEnd.call (hquiet.unixNow hwall))
  exact (canEnd_append hquiet htime hnow h).attempt_done.bind (CanEnd.pure ())

/-- The outcome of a request that has none. -/
theorem canEnd_recordOutcome (hpending : w.audit op.conn = .pending) (htime : now ∈ times)
    (hwall : wallNow ∈ walls) (hnow : now < op.deadline)
    (h : S.exec { w with audit := update w.audit op.conn .finalizing }
      (.append op.conn op.entry (op.outcome x terminal (UInt64.ofNat wallNow))) c =
        some (.ok (), w')) :
    CanEnd S (op.recordOutcome x terminal : ConnTask HAns _) n w (.done ())
      { w' with audit := update w'.audit op.conn .complete } := by
  have hswap : connExec x s keys H w (.auditCompareExchange op.conn .pending .finalizing) .plain =
      some (.ok (), { w with audit := update w.audit op.conn .finalizing }) := by
    simp [connExec, plainly, auditCompareExchangeExec, hpending]
  apply CanEnd.bind (CanEnd.call (hquiet.plain (by trivial) hswap))
  apply CanEnd.bind (CanEnd.call (hquiet.unixNow hwall))
  apply (canEnd_append hquiet htime hnow h).attempt_done.bind
  exact CanEnd.call (hquiet.plain (by trivial) rfl)

/-- A unit is spent at the first try. -/
theorem canEnd_spendBudget {fuel : Nat} {record : GrantRecord} {left : Nat}
    (hleft : w.remaining record.index = left + 1) :
    CanEnd S (spendBudget (fuel + 1) conn record : ConnTask HAns _) n w
      (.done (decide (left + 1 = 1))) { w.record conn [.spent record.index] with
        remaining := update w.remaining record.index left } := by
  have hload : connExec x s keys H w (.remainingLoad record) .plain = some (left + 1, w) := by
    simp [connExec, plainly, hleft]
  have hspend : connExec x s keys H w (.remainingCompareExchangeWeak conn record (left + 1))
      (.flag true) = some (.ok (), { w.record conn [.spent record.index] with
        remaining := update w.remaining record.index left }) := by
    simp [connExec, spendExec, hleft]
  apply CanEnd.bind (CanEnd.call (hquiet.plain (by trivial) hload))
  have hpos : ¬left + 1 = 0 := Nat.succ_ne_zero left
  simp only [spendFrom, hpos, if_false]
  exact CanEnd.bind (CanEnd.call (hquiet.spend hspend)) (CanEnd.pure _)

end

/-- An outcome that comes too late is not recorded, and the profile is quarantined. -/
theorem canEnd_recordOutcome_late (wallNow : Nat)
    (hpending : w.audit op.conn = .pending) (hlate : op.deadline ≤ now) :
    CanEnd (connSystem x s keys H) (op.recordOutcome x terminal : ConnTask HAns _) n w
      (.failed (Failure.context (.msg "authoritative audit persistence deadline expired")
        "persist authoritative grant outcome"))
      { w with
        audit := update w.audit op.conn .failed
        quarantined := update w.quarantined op.entry.index true } := by
  have hswap : connExec x s keys H w (.auditCompareExchange op.conn .pending .finalizing) .plain =
      some (.ok (), { w with audit := update w.audit op.conn .finalizing }) := by
    simp [connExec, plainly, auditCompareExchangeExec, hpending]
  have happend : CanEnd (connSystem x s keys H)
      (op.append (op.outcome x terminal (UInt64.ofNat wallNow)) : ConnTask HAns _) n
      { w with audit := update w.audit op.conn .finalizing }
      (.failed (.msg "authoritative audit persistence deadline expired"))
      { w with audit := update w.audit op.conn .finalizing } := by
    apply (canEnd_instantNow now).bind
    exact (CanEnd.require_fails (Nat.not_lt.mpr hlate)).bind_failed
  have hstore : connExec x s keys H { w with
      audit := update w.audit op.conn .finalizing } (.auditStore op.conn .failed) .plain =
      some ((), { w with audit := update w.audit op.conn .failed }) := by
    simp [connExec, plainly]
  apply (canEnd_ask hswap).bind
  apply (canEnd_unixNow wallNow).bind
  apply happend.attempt_failed.bind
  apply (canEnd_ask hstore).bind
  apply CanEnd.bind (canEnd_ask (c := .plain) rfl)
  exact CanEnd.fail _

end Parts

/-! ## Whole requests -/

section Requests

variable {handlers : HandlerContext → Frame → Handler HAns} {fuel : Nat}

/-- A profile whose ledger is in order is unlocked. -/
theorem canEnd_unlocking {identity : ProfileIdentity} {name passphrase : String}
    (callKey : Bytes 32) (unlockedAt : Nat)
    (hroot : rootOkForRecv x prelude (.unlock passphrase) = true)
    (hname : prelude.profileName = some name) {old : List UInt8} {events : List AuditEvent}
    (hhead : AtHead x.toCrypto s (ledgerOf keys identity) (w.files identity) checkpoint old events)
    (hpending : (verifiedOf x.toCrypto s events).pendingIntents = []) :
    CanEnd (connSystem x s keys H) (handleGlobalConn x handlers fuel conn prelude) 0 w (.done ())
      (unlockExec w identity name callKey (unlockedAt + credentialLeaseTtl)) := by
  obtain ⟨c, hworker⟩ := exec_unlockWorker (H := H) name passphrase callKey hhead hpending
  have hsnapshot : CanEnd (connSystem x s keys H)
      (ask (.unlockWorker name passphrase) : ConnTask HAns _) (0 + 1) w
      (.done (.ok (.ok (identity, callKey)))) w := canEnd_ask hworker
  have hunlock : CanEnd (connSystem x s keys H)
      (unlockProfile x prelude passphrase : ConnTask HAns _) 0 w
      (.done (x.base64Encode callKey.val))
      (unlockExec w identity name callKey (unlockedAt + credentialLeaseTtl)) := by
    apply CanEnd.bind (a := name) (CanEnd.orElseFail (by rw [hname]; rfl))
    apply hsnapshot.timed_done.bind
    apply CanEnd.bind (CanEnd.orElseFail rfl)
    apply CanEnd.bind (canEnd_ask (c := .plain) rfl)
    apply CanEnd.bind (CanEnd.orElseFail rfl)
    apply (canEnd_instantNow unlockedAt).bind
    apply CanEnd.bind (canEnd_ask (c := .plain) rfl)
    exact CanEnd.pure _
  apply (canEnd_readAuthenticatedRequest hroot).bind
  exact hunlock.attempt_done.bind canEnd_respond

/-- After a grant was issued. -/
def World.issue (w : World HW) (record : GrantRecord) (registry : GrantRegistryState) : World HW :=
  { w with
    registry := registry
    issued := w.issued ++ [record]
    remaining := update w.remaining record.index record.grant.budget }

/-- A grant that can be made for an entry of the pool is issued. -/
theorem canEnd_issuing {profile holderKey : String} {operations : List String}
    {budget ttlSecs : Nat} {profileId grantId : Bytes 16} {entry : ProfilePoolEntry}
    {grant : OperationGrant} {record : GrantRecord} {registry : GrantRegistryState}
    (now nowMs insertNow : Nat)
    (hroot : rootOkForRecv x prelude (.issueGrant profile operations budget ttlSecs holderKey) =
      true)
    (hname : prelude.profileName = some profile) (hprofile : prelude.profileId = some profileId)
    (hentry : entryForExec w profileId now = (some entry, w))
    (hgrant : grantFor x entry prelude profile operations budget ttlSecs holderKey profileId grantId
      (UInt64.ofNat nowMs).toNat = .ok grant)
    (hinsert : w.registry.insert w.issued.length grant entry insertNow = .ok (record, registry)) :
    CanEnd (connSystem x s keys H) (handleGlobalConn x handlers fuel conn prelude) 0 w (.done ())
      (w.issue record registry) := by
  have hfound : connExec x s keys H w (.entryFor profileId now) .plain = some (some entry, w) := by
    simp only [connExec, plainly, hentry]
  have hinserted : connExec x s keys H w (.insertGrant grant entry insertNow) .plain =
      some (.ok (), w.issue record registry) := by
    have hsame : record.grant = grant := (GrantRegistryState.insert_record hinsert).2.1
    simp only [connExec, plainly, insertGrantExec, hinsert, World.issue, hsame]
  have hissues : CanEnd (connSystem x s keys H) (issueGrant x prelude profile operations budget
      ttlSecs holderKey : ConnTask HAns _) 0 w (.done grant) (w.issue record registry) := by
    apply (CanEnd.require hname).bind
    apply CanEnd.bind (a := profileId) (CanEnd.orElseFail (by rw [hprofile]; rfl))
    apply (canEnd_instantNow now).bind
    apply (canEnd_ask hfound).bind
    apply CanEnd.bind (a := entry) (CanEnd.orElseFail rfl)
    apply (canEnd_unixNow nowMs).bind
    apply CanEnd.bind (canEnd_ask (c := .grantId grantId) rfl)
    apply CanEnd.bind (CanEnd.orElseFail hgrant)
    apply (canEnd_instantNow insertNow).bind
    apply (canEnd_ask hinserted).bind
    apply CanEnd.bind (CanEnd.orElseFail rfl)
    exact CanEnd.pure _
  apply (canEnd_readAuthenticatedRequest hroot).bind
  exact hissues.attempt_done.bind canEnd_respond

/-- The frames that are not root requests of a profile. -/
def isControl : Frame → Bool
  | .unlock _ => true
  | .listProfiles => true
  | .issueGrant _ _ _ _ _ => true
  | .shutdown _ => true
  | _ => false

theorem handleFrame_of_profile (h : isControl frame = false) :
    handleFrame x handlers fuel conn prelude frame = match prelude.grantId with
      | some grantId => handleGrantRequest x handlers fuel conn grantId prelude frame
      | none => handleProfileRequest x handlers prelude frame := by
  cases frame <;> first | rfl | cases h

/-- A request that its grant accepts: when its record is found at `now`, and the wall clock shows
    `wallNow`, the request has until `deadline`. -/
structure Accepted (x : Platform) (record : GrantRecord) (grantId : Bytes 16)
    (prelude : V6RequestPrelude) (frame : Frame) (now wallNow deadline : Nat) : Prop where
  root : rootOkForRecv x prelude frame = true
  profile : isControl frame = false
  grant : prelude.grantId = some grantId
  valid : record.validateRequest x prelude now (UInt64.ofNat wallNow).toNat = .ok ()
  binding : validateGrantFrameBinding frame = .ok ()
  identity : validateConnectionIdentityBinding frame record.entry.identity = .ok ()
  limit : grantDeadline record.expiresAt now (UInt64.ofNat wallNow).toNat
    prelude.requestedDeadlineUnixMs = .ok deadline

/-- After a unit was spent at `now`, so that `left` are left, and the request was dispatched. -/
def World.dispatch (w : World HW) (conn : Nat) (grantId : Bytes 16) (request : Dispatch)
    (now left : Nat) : World HW :=
  { w.record conn [.spent request.record.index] with
    remaining := update w.remaining request.record.index left
    registry := if left = 0 then
        w.registry.markTerminalIfSame grantId request.record .exhausted now
      else w.registry }.record conn [.dispatched request]

section

variable {S : ConnSystem HW HAns HC}
  {times walls : List Nat} {c : ConnChoice HC} {now wallNow deadline : Nat} {record : GrantRecord}
  {grantId : Bytes 16} {op : GrantAuditOperation} {w1 w2 w3 : World HW}

section

variable (hquiet : Quiet x s keys H S times walls)

include hquiet

/-- A request that its grant accepts comes to its audit. -/
theorem leads_auditGrantRequest (htime : now ∈ times) (hwall : wallNow ∈ walls)
    (haccepted : Accepted x record grantId prelude frame now wallNow deadline)
    (hlookup : w.registry.lookup grantId now = (.live record, w.registry))
    (hnew : S.exec w (.auditNew (.new x conn record prelude deadline)) .plain =
      some ((), { w with audit := update w.audit conn .pending })) :
    Leads S (handleGlobalConn x handlers fuel conn prelude) 0 w
      (auditGrantRequest x handlers fuel grantId record prelude frame
        (.new x conn record prelude deadline))
      { w with audit := update w.audit conn .pending } := by
  have hclock : CanEnd S (ask .instantNow : ConnTask HAns _) 0 w (.done now) w :=
    CanEnd.call (hquiet.instantNow htime)
  have hunix : CanEnd S (ask .unixNow : ConnTask HAns _) 0 w (.done (UInt64.ofNat wallNow)) w :=
    CanEnd.call (hquiet.unixNow hwall)
  have hfound : connExec x s keys H w (.lookup grantId now) .plain = some (.live record, w) := by
    simp only [connExec, plainly, hlookup]
  apply Leads.bind (canEnd_reading (hquiet.read haccepted.root))
  show Leads S (handleFrame x handlers fuel conn prelude frame) 0 w _ _
  rw [handleFrame_of_profile haccepted.profile, haccepted.grant]
  apply Leads.bind hclock
  apply Leads.bind (CanEnd.call (hquiet.plain (by trivial) hfound))
  apply Leads.bind hclock
  apply Leads.bind hunix
  simp only [haccepted.valid, haccepted.binding]
  apply Leads.bind (CanEnd.require record.bound_name)
  apply Leads.bind (CanEnd.orElseFail haccepted.identity)
  apply Leads.bind hclock
  apply Leads.bind hunix
  apply Leads.bind (CanEnd.orElseFail haccepted.limit)
  exact Leads.bind (CanEnd.call hnew) Leads.refl

/-- Once its intent is recorded, the request is dispatched.  If the handler fails, its error is
    reported, unless the outcome cannot be recorded. -/
theorem canEnd_auditGrantRequest (htime : now ∈ times) (hwall : wallNow ∈ walls)
    (hnow : now < op.deadline)
    (hintent : S.exec w (.append op.conn op.entry (op.intent (UInt64.ofNat wallNow))) c =
      some (.ok (), w1))
    (hopen : w1.quarantined record.entry.index = false) {left : Nat}
    (hleft : w1.remaining record.index = left + 1) {e : Error}
    (hhandler : CanEnd S (dispatchRootRequest x handlers ⟨record.entry, some op, op.deadline⟩ frame)
      0 (w1.dispatch op.conn grantId ⟨record, prelude, frame⟩ now left) (.failed e) w2)
    {finalization : Except Error Unit}
    (hfinal : CanEnd S (attempt (op.finalizeUnknownIfPending x) : ConnTask HAns _) 0 w2
      (.done finalization) w3)
    {e' : Error} (herror : finalization = .ok () ∧ e' = e ∨ finalization = .error e') :
    CanEnd S (auditGrantRequest x handlers (fuel + 1) grantId record prelude frame op) 0 w
      (.failed e') w3 := by
  have hplain : ∀ {w w' : World HW} {n : Nat} {op : ConnOp HOp} {a : ConnAns HAns op},
      IsUsual op → connExec x s keys H w op .plain = some (a, w') →
      CanEnd S (ask op : ConnTask HAns _) n w (.done a) w' :=
    fun hop h => CanEnd.call (hquiet.plain hop h)
  have hload : connExec x s keys H w1 (.quarantinedLoad record.entry) .plain =
      some (false, w1) := by
    simp only [connExec, plainly, hopen]
  have hrecorded : CanEnd S (op.recordIntent : ConnTask HAns _) 0 w (.done ()) w1 :=
    canEnd_recordIntent hquiet htime hwall hnow hintent
  -- the last unit also ends the grant
  have hmarked : CanEnd S (onlyIf (decide (left + 1 = 1) = true)
      (ask (.markTerminalIfSame grantId record .exhausted now)) : ConnTask HAns Unit) 0
      { w1.record op.conn [.spent record.index] with
        remaining := update w1.remaining record.index left } (.done ())
      { w1.record op.conn [.spent record.index] with
        remaining := update w1.remaining record.index left
        registry := if left = 0 then
            w1.registry.markTerminalIfSame grantId record .exhausted now
          else w1.registry } := by
    by_cases hlast : left = 0
    · subst hlast
      exact hplain (by trivial) rfl
    · have hmore : ¬left + 1 = 1 := by omega
      simp only [onlyIf, hmore, hlast, decide_false, Bool.false_eq_true, if_false]
      exact CanEnd.pure ()
  have hreport : ∀ w : World HW, CanEnd S (do
      check finalization
      check (Except.error e) : ConnTask HAns Unit) 0 w (.failed e') w := by
    intro w
    rcases herror with ⟨rfl, rfl⟩ | rfl
    · exact CanEnd.bind (CanEnd.orElseFail rfl) (CanEnd.fail _)
    · exact CanEnd.bind_failed (CanEnd.fail _)
  apply hrecorded.attempt_done.bind
  apply CanEnd.bind (hplain (by trivial) hload)
  apply CanEnd.bind (CanEnd.call (hquiet.instantNow htime))
  apply (canEnd_spendBudget hquiet hleft).attempt_done.bind
  apply hmarked.bind
  apply CanEnd.bind (hplain (by trivial) rfl)
  apply hhandler.attempt_failed.bind
  apply hfinal.bind
  exact CanEnd.bind (hplain (by trivial) rfl) (hreport w3)

/-- A request without an outcome gets one after its handler. -/
theorem canEnd_finalizeUnknownIfPending (hpending : w.audit op.conn = .pending)
    (htime : now ∈ times) (hwall : wallNow ∈ walls) (hnow : now < op.deadline)
    (houtcome : S.exec { w with audit := update w.audit op.conn .finalizing }
      (.append op.conn op.entry (op.outcome x ⟨.unknown, "dispatch.no_terminal_result", []⟩
        (UInt64.ofNat wallNow))) c = some (.ok (), w')) :
    CanEnd S (op.finalizeUnknownIfPending x : ConnTask HAns _) n w (.done ())
      { w' with audit := update w'.audit op.conn .complete } := by
  have hstate : connExec x s keys H w (.auditLoad op.conn) .plain = some (.pending, w) := by
    simp only [connExec, plainly, hpending]
  apply CanEnd.bind (CanEnd.call (hquiet.plain (by trivial) hstate))
  exact canEnd_recordOutcome hquiet hpending htime hwall hnow houtcome

end

/-- A handler that fails at once. -/
theorem canEnd_refused {context : HandlerContext} {e : Error}
    (h : handlers context frame = Task.fail e) :
    CanEnd S (dispatchRootRequest x handlers context frame) 0 w (.failed e) w := by
  have hrun : CanEnd S (runHandler x context.active (handlers context frame)) 1 w
      (.failed e) w := by
    rw [h]
    exact ⟨[], rfl⟩
  exact hrun.timed_failed.bind (CanEnd.fail _)

end

end Requests

/-! ## Runs of the daemon -/

section Runs

variable {handlers : HandlerContext → Frame → Handler HAns} {fuel : Nat}
  {cfg : DaemonConfig HW HAns}

/-- The handshake accepts the prelude. -/
theorem launch_eq (hvalid : prelude.validate = .ok ()) (hfresh : trace w.history conn = []) :
    (daemonPool x handlers s keys H fuel).launch conn prelude w =
      some (connProgram x handlers fuel conn prelude) := by
  simp [daemonPool, hvalid, hfresh]

variable {threads : Nat → Option (Prog (ConnOp HOp × Nat) (Timed (ConnAns HAns)) ConnReply)}
  {P : DaemonPool HW HAns HC}

section

variable {S : ConnSystem HW HAns HC}
    {r : Ended Error Unit}

/-- A connection that can end, in any system. -/
theorem run_ending (hsys : P.sys = S.inTimers)
    (hlaunch : P.launch conn prelude w = some (connProgram x handlers fuel conn prelude))
    (hidle : threads conn = none)
    (hend : CanEnd S (handleGlobalConn x handlers fuel conn prelude) 0 w r w') :
    ∃ ms, P.run ⟨w, threads⟩ ms =
      some ⟨w', update threads conn (some (.ret (prelude, r)))⟩ := by
  obtain ⟨cs, hcs⟩ := hend
  rw [← hsys] at hcs
  have hfollow : (connProgram x handlers fuel conn prelude).follow P.sys (cs ++ []) w =
      some (.ret (prelude, r), w') := Prog.follow_bind _ hcs
  exact ⟨_, Pool.run_start P hidle hlaunch hfollow⟩

/-- A connection that can end goes on from where a run of the daemon has come. -/
theorem run_connection {ms : DaemonMoves HC}
    (hrun : (daemonPool x handlers s keys H fuel).run cfg ms = some ⟨w, threads⟩)
    (hvalid : prelude.validate = .ok ()) (hfresh : trace w.history conn = [])
    (hidle : threads conn = none)
    (hend : CanEnd (connSystem x s keys H) (handleGlobalConn x handlers fuel conn prelude) 0 w r
      w') :
    ∃ ms', (daemonPool x handlers s keys H fuel).run cfg ms' =
      some ⟨w', update threads conn (some (.ret (prelude, r)))⟩ := by
  obtain ⟨ms', hms'⟩ := run_ending (P := daemonPool x handlers s keys H fuel) rfl
    (launch_eq hvalid hfresh) hidle hend
  exact ⟨ms ++ ms', by rw [Pool.run_append, hrun]; exact hms'⟩

end

/-- A change of a ledger is a run of the daemon. -/
theorem run_env {c : ConnChoice HC} (h : connEnv x s keys H w c = some w') :
    (daemonPool x handlers s keys H fuel).run (Pool.idle w) [.env (.go c)] =
      some ⟨w', fun _ => none⟩ := by
  have henv : (daemonPool x handlers s keys H fuel).sys.env w (.go c) = some w' := h
  simp [Pool.run, Pool.move, Pool.idle, henv]

end Runs

end Serctl.Daemon
