import Serctl.Audit.Ledger
import Serctl.Daemon.Audit
import Serctl.Lib.Pool
import Serctl.Lib.Task

/-!
# Connections

One connection carries one root request.  `handleGlobalConn` reads it, authorizes it, and hands it
to the handler of its kind; a request under a grant is dispatched only after its intent is in the
audit ledger and one unit of the grant's budget was spent, and ends with an outcome in the ledger.

The handlers are any programs that write responses and do operations of their own.  Connections
run concurrently, each operation may fail, each wait may be cut short by a timer, and the daemon may
stop at any point and start again.  A worker of the ledger that was given up may still finish later:
the ledger changes on its own, as far as its own operations change it.
-/

namespace Serctl.Daemon

open Lib Lib.Task Ipc Function
open Audit (AuditEvent AuditLedger Files LedgerCall Fault Serde)

/-! ## The world -/

/-- A request that was handed to its handler. -/
structure Dispatch where
  record : GrantRecord
  prelude : V6RequestPrelude
  frame : Frame
  deriving DecidableEq, Repr

/-- What happens to a request under a grant, in the order in which it happens. -/
inductive Event where
  | attempted (entry : ProfilePoolEntry) (event : AuditEvent)
  /-- The ledger has confirmed an append. -/
  | appended (entry : ProfilePoolEntry) (event : AuditEvent)
  /-- A unit of the budget was spent. -/
  | spent (record : Nat)
  | dispatched (request : Dispatch)
  deriving DecidableEq, Repr

/-- The state of the daemon and of the ledgers.  What can change about entries, records and
    requests is kept here under their names; `handlers` belongs to the handlers. -/
structure World (HW : Type) where
  history : List (Nat × Event)
  files : ProfileIdentity → Files
  pool : Table (Bytes 16) ProfilePoolEntry
  entries : Nat
  quarantined : Nat → Bool
  registry : GrantRegistryState
  issued : List GrantRecord
  remaining : Nat → Nat
  audit : Nat → AuditState
  handlers : HW

/-- What happened to the request of one connection. -/
def trace (history : List (Nat × Event)) (conn : Nat) : List Event :=
  (history.filter fun step => step.1 = conn).map Prod.snd

/-! ## Operations -/

/-- What a connection asks for. -/
inductive ConnOp (HOp : Type) where
  /-- Wait for the root request. -/
  | readRoot (prelude : V6RequestPrelude)
  | instantNow
  | unixNow
  | lookup (grantId : Bytes 16) (now : Nat)
  | markTerminalIfSame (grantId : Bytes 16) (record : GrantRecord) (kind : GrantTerminalKind)
      (now : Nat)
  | compatibilityAudit (line : GrantAuditLine)
  | entryFor (profileId : Bytes 16) (now : Nat)
  /-- Draw the identifier of a new grant. -/
  | randomGrantId
  | insertGrant (grant : OperationGrant) (entry : ProfilePoolEntry) (now : Nat)
  /-- Wait for the worker that decrypts a profile and verifies its ledger. -/
  | unlockWorker (profile passphrase : String)
  | connectUnlockedSession (profile : String)
  | insertEntry (identity : ProfileIdentity) (profile : String) (callKey : Bytes 32)
      (expiresAt : Nat)
  | listProfiles
  | verifyShutdown (profile passphrase : String)
  | requestShutdown
  /-- Wait for the worker that appends to the ledger. -/
  | append (conn : Nat) (entry : ProfilePoolEntry) (event : AuditEvent)
  /-- The audit of a request begins, and its outcome is pending. -/
  | auditNew (operation : GrantAuditOperation)
  | auditCompareExchange (conn : Nat) (current new : AuditState)
  | auditLoad (conn : Nat)
  | auditStore (conn : Nat) (state : AuditState)
  | quarantinedLoad (entry : ProfilePoolEntry)
  | quarantinedStore (entry : ProfilePoolEntry)
  | remainingLoad (record : GrantRecord)
  | remainingCompareExchangeWeak (conn : Nat) (record : GrantRecord) (current : Nat)
  | shuttingDown
  | writeFrame (frame : Frame)
  | invalidateSessions (entry : ProfilePoolEntry)
  /-- The request goes to its handler. -/
  | dispatch (conn : Nat) (request : Dispatch)
  /-- A request without a grant goes to its handler. -/
  | dispatchProfile (entry : ProfilePoolEntry) (prelude : V6RequestPrelude) (frame : Frame)
  /-- A loop that goes on. -/
  | spin
  | handler (op : HOp)

variable {HW HOp : Type} {HAns : HOp → Type} {HC : Type}

/-- What the operations return. -/
@[reducible] def ConnAns (HAns : HOp → Type) : ConnOp HOp → Type
  | .readRoot _ => Except Error Frame
  | .instantNow => Nat
  | .unixNow => UInt64
  | .lookup _ _ => GrantLookup
  | .entryFor _ _ => Option ProfilePoolEntry
  | .randomGrantId => Bytes 16
  | .insertGrant _ _ _ => Except Error Unit
  | .unlockWorker _ _ => Except Error (Except Error (ProfileIdentity × Bytes 32))
  | .connectUnlockedSession _ => Except Error Unit
  | .listProfiles => Except Error (Except Error Unit)
  | .verifyShutdown _ _ => Except Error (Except Error Unit)
  | .append _ _ _ => Except Error Unit
  | .auditCompareExchange _ _ _ => Except AuditState Unit
  | .auditLoad _ => AuditState
  | .quarantinedLoad _ => Bool
  | .remainingLoad _ => Nat
  | .remainingCompareExchangeWeak _ _ _ => Except Nat Unit
  | .shuttingDown => Bool
  | .writeFrame _ => Except Error Unit
  | .spin => Empty
  | .handler op => HAns op
  | _ => Unit

/-- What decides how an operation goes. -/
inductive ConnChoice (HC : Type) where
  | plain
  | time (value : Nat)
  | flag (value : Bool)
  | frame (value : Frame)
  | grantId (value : Bytes 16)
  /-- The profile that is decrypted, and the faults of the verification. -/
  | unlocked (identity : ProfileIdentity) (callKey : Bytes 32) (faults : List Fault)
  | fails (error : Error)
  /-- A worker does not return. -/
  | panics (error : Error)
  | faults (faults : List Fault)
  | ledger (identity : ProfileIdentity) (call : LedgerCall) (faults : List Fault)
  | handler (choice : HC)

/-! ## What the operations do -/

section Semantics

variable (x : Platform) (s : Serde) (keys : ProfileIdentity → Bytes 32)

/-- The ledger of a profile generation, under the key that the vault derives for it. -/
def ledgerOf (identity : ProfileIdentity) : AuditLedger :=
  ⟨identity.profileId, identity.generation, keys identity, identity.generation_pos⟩

/-- An error of the ledger, which nobody recognises by its type. -/
def ofLedger (e : Audit.Error) : Error := ⟨[], e.chain⟩

/-- The world after events of a connection. -/
def World.record (w : World HW) (conn : Nat) (events : List Event) : World HW :=
  { w with history := w.history ++ events.map fun event => (conn, event) }

/-- The world with other files of a ledger. -/
def World.setFiles (w : World HW) (identity : ProfileIdentity) (files : Files) : World HW :=
  { w with files := update w.files identity files }

/-- An append that the worker carries out from start to end, with the faults that it meets. -/
def appendExec (w : World HW) (conn : Nat) (entry : ProfilePoolEntry) (event : AuditEvent)
    (faults : List Fault) : Option (Except Error Unit × World HW) :=
  match Prog.follow Audit.auditSystem faults
      (Audit.append x.toCrypto s (ledgerOf keys entry.identity) event ())
      (w.files entry.identity) with
  | some (.ret (.ok _, _), files) => some (.ok (),
      (w.setFiles entry.identity files).record conn
        [.attempted entry event, .appended entry event])
  | some (.ret (.error e, _), files) => some (.error (ofLedger e),
      (w.setFiles entry.identity files).record conn [.attempted entry event])
  | _ => none

/-- Other users of a ledger, and workers that nobody waits for: any call, stopped anywhere. -/
def ledgerEnv (w : World HW) (identity : ProfileIdentity) (call : LedgerCall)
    (faults : List Fault) : Option (World HW) :=
  (Prog.follow Audit.auditSystem faults
    (Audit.serve x.toCrypto s (ledgerOf keys identity) call ()) (w.files identity)).map
      fun (_, files) => w.setFiles identity files

/-- A grant is put into the registry. -/
def insertGrantExec (w : World HW) (grant : OperationGrant) (entry : ProfilePoolEntry)
    (now : Nat) : Except Error Unit × World HW :=
  match w.registry.insert w.issued.length grant entry now with
  | .ok (record, registry) => (.ok (), { w with
      registry := registry
      issued := w.issued ++ [record]
      remaining := update w.remaining record.index grant.budget })
  | .error e => (.error e, w)

/-- Drop an entry that has expired, and return the one that is left. -/
def entryForExec (w : World HW) (profileId : Bytes 16) (now : Nat) :
    Option ProfilePoolEntry × World HW :=
  let pool := w.pool.keep fun id entry => ¬(id = profileId ∧ entry.expiresAt ≤ now)
  (pool.find profileId, { w with pool := pool })

/-- A new entry, which is not quarantined. -/
def unlockExec (w : World HW) (identity : ProfileIdentity) (profile : String)
    (callKey : Bytes 32) (expiresAt : Nat) : World HW :=
  { w with
    pool := w.pool.insert identity.profileId ⟨w.entries, identity, profile, callKey, expiresAt⟩
    quarantined := update w.quarantined w.entries false
    entries := w.entries + 1 }

/-- The worker of an unlock: the ledger has to be complete. -/
def unlockWorkerExec (w : World HW) : ConnChoice HC →
    Option (Except Error (Except Error (ProfileIdentity × Bytes 32)) × World HW)
  | .unlocked identity callKey faults =>
    match Prog.follow Audit.auditSystem faults
        (Audit.serve x.toCrypto s (ledgerOf keys identity) (.verify none true) ())
        (w.files identity) with
    | some (.ret (.ok _, _), files) => some (.ok (.ok (identity, callKey)),
        w.setFiles identity files)
    | some (.ret (.error e, _), files) => some (.ok (.error ((ofLedger e).context
        "verify authenticated profile audit ledger")), w.setFiles identity files)
    | _ => none
  | .fails e => some (.ok (.error e), w)
  | .panics e => some (.error e, w)
  | _ => none

/-- A weak compare-and-exchange may fail although the value is the expected one. -/
def spendExec (w : World HW) (conn : Nat) (record : GrantRecord) (current : Nat) :
    ConnChoice HC → Option (Except Nat Unit × World HW)
  | .flag true =>
    if w.remaining record.index = current then
      some (.ok (), { w.record conn [.spent record.index] with
        remaining := update w.remaining record.index (current - 1) })
    else none
  | .flag false => some (.error (w.remaining record.index), w)
  | _ => none

/-- The state of an audit changes, if it is what was expected. -/
def auditCompareExchangeExec (w : World HW) (conn : Nat) (current new : AuditState) :
    Except AuditState Unit × World HW :=
  if w.audit conn = current then (.ok (), { w with audit := update w.audit conn new })
  else (.error (w.audit conn), w)

/-- An operation that fails with any error, or succeeds. -/
def orFails {α : Type} (w : World HW) (value : α) :
    ConnChoice HC → Option (Except Error α × World HW)
  | .plain => some (.ok value, w)
  | .fails e => some (.error e, w)
  | _ => none

/-- A worker that fails with any error, or succeeds, or does not return. -/
def workerExec (w : World HW) : ConnChoice HC → Option (Except Error (Except Error Unit) × World HW)
  | .plain => some (.ok (.ok ()), w)
  | .fails e => some (.ok (.error e), w)
  | .panics e => some (.error e, w)
  | _ => none

/-- A request arrives. -/
def readRootExec (w : World HW) (prelude : V6RequestPrelude) :
    ConnChoice HC → Option (Except Error Frame × World HW)
  | .frame frame =>
    if rootOkForRecv x prelude frame then some (.ok frame, w)
    else some (.error (.msg "IPC v6 root request does not match the handshake prelude"), w)
  | .fails e => some (.error e, w)
  | _ => none

/-- An operation without a choice. -/
def plainly {α : Type} (result : α × World HW) : ConnChoice HC → Option (α × World HW)
  | .plain => some result
  | _ => none

variable (H : AsyncSystem HW HOp HAns HC)

/-- An operation of a handler changes what belongs to the handlers. -/
def handlerExec (w : World HW) (op : HOp) : ConnChoice HC → Option (HAns op × World HW)
  | .handler c => (H.exec w.handlers op c).map fun (a, handlers) =>
      (a, { w with handlers := handlers })
  | _ => none

/-- **What each operation does.** -/
def connExec (w : World HW) (op : ConnOp HOp) (choice : ConnChoice HC) :
    Option (ConnAns HAns op × World HW) :=
  match op, choice with
  | .readRoot prelude, choice => readRootExec x w prelude choice
  | .instantNow, .time t => some (t, w)
  | .unixNow, .time t => some (UInt64.ofNat t, w)
  | .lookup grantId now, choice =>
    plainly ((w.registry.lookup grantId now).1,
      { w with registry := (w.registry.lookup grantId now).2 }) choice
  | .markTerminalIfSame grantId record kind now, choice =>
    plainly ((), { w with
      registry := w.registry.markTerminalIfSame grantId record kind now }) choice
  | .compatibilityAudit _, choice => plainly ((), w) choice
  | .entryFor profileId now, choice => plainly (entryForExec w profileId now) choice
  | .randomGrantId, .grantId id => some (id, w)
  | .insertGrant grant entry now, choice => plainly (insertGrantExec w grant entry now) choice
  | .unlockWorker _ _, choice => unlockWorkerExec x s keys w choice
  | .connectUnlockedSession _, choice => orFails w () choice
  | .insertEntry identity profile callKey expiresAt, choice =>
    plainly ((), unlockExec w identity profile callKey expiresAt) choice
  | .listProfiles, choice => workerExec w choice
  | .verifyShutdown _ _, choice => workerExec w choice
  | .requestShutdown, choice => plainly ((), w) choice
  | .append conn entry event, .faults faults => appendExec x s keys w conn entry event faults
  | .append conn entry event, .panics e =>
    some (.error (e.context "join authoritative audit persistence"),
      w.record conn [.attempted entry event])
  | .auditNew operation, choice =>
    plainly ((), { w with audit := update w.audit operation.conn .pending }) choice
  | .auditCompareExchange conn current new, choice =>
    plainly (auditCompareExchangeExec w conn current new) choice
  | .auditLoad conn, choice => plainly (w.audit conn, w) choice
  | .auditStore conn state, choice =>
    plainly ((), { w with audit := update w.audit conn state }) choice
  | .quarantinedLoad entry, choice => plainly (w.quarantined entry.index, w) choice
  | .quarantinedStore entry, choice =>
    plainly ((), { w with
      quarantined := update w.quarantined entry.index true }) choice
  | .remainingLoad record, choice => plainly (w.remaining record.index, w) choice
  | .remainingCompareExchangeWeak conn record current, choice =>
    spendExec w conn record current choice
  | .shuttingDown, .flag b => some (b, w)
  | .writeFrame _, choice => orFails w () choice
  | .invalidateSessions _, choice => plainly ((), w) choice
  | .dispatch conn request, choice => plainly ((), w.record conn [.dispatched request]) choice
  | .dispatchProfile _ _ _, choice => plainly ((), w) choice
  | .handler op, choice => handlerExec H w op choice
  | _, _ => none

/-- What an operation leaves behind when a timer ends the wait for it.  Whatever the worker of the
    ledger still does, it does on its own. -/
def connDrop (w : World HW) (op : ConnOp HOp) (choice : ConnChoice HC) : Option (World HW) :=
  match op, choice with
  | .readRoot _, .plain => some w
  | .unlockWorker _ _, .plain => some w
  | .connectUnlockedSession _, .plain => some w
  | .listProfiles, .plain => some w
  | .verifyShutdown _ _, .plain => some w
  | .append conn entry event, .plain => some (w.record conn [.attempted entry event])
  | .writeFrame _, .plain => some w
  | .invalidateSessions _, .plain => some w
  | .handler op, .handler c =>
    (H.drop w.handlers op c).map fun handlers => { w with handlers := handlers }
  | _, _ => none

/-- Only ledgers, and what belongs to the handlers, change on their own. -/
def connEnv (w : World HW) (choice : ConnChoice HC) : Option (World HW) :=
  match choice with
  | .ledger identity call faults => ledgerEnv x s keys w identity call faults
  | .handler c => (H.env w.handlers c).map fun handlers => { w with handlers := handlers }
  | _ => none

/-- A restart forgets the unlocked profiles and the grants, and keeps the ledgers. -/
def connCrash (w : World HW) (choice : ConnChoice HC) : Option (World HW) :=
  match choice with
  | .handler c => (H.crash w.handlers c).map fun handlers =>
      { w with pool := .empty, registry := {}, handlers := handlers }
  | _ => none

/-- The operations of connections, the other parties, and crashes. -/
def connSystem : AsyncSystem (World HW) (ConnOp HOp) (ConnAns HAns) (ConnChoice HC) where
  exec := connExec x s keys H
  env := connEnv x s keys H
  crash := connCrash H
  drop := connDrop H

end Semantics

/-! ## Recording intents and outcomes -/

/-- The programs of connections. -/
abbrev ConnTask (HAns : HOp → Type) (α : Type) := Task Error (ConnOp HOp) (ConnAns HAns) α

/-- Issue an operation. -/
def ask (op : ConnOp HOp) : ConnTask HAns (ConnAns HAns op) := call op

/-- The value of a check, or an early return with its error. -/
def check {α : Type} (r : Except Error α) : ConnTask HAns α := orElseFail id r

namespace GrantAuditOperation

/-- What the wait for the worker has come to. -/
def joined : Option (Except Error (Except Error Unit)) → Except Error Unit
  | some (.ok result) => result
  | some (.error e) => .error e
  | none => .error (.msg "authoritative audit persistence exceeded its deadline")

/-- Append to the ledger in time, or fail. -/
def append (op : GrantAuditOperation) (event : AuditEvent) : ConnTask HAns Unit := do
  let now ← ask .instantNow
  require (now < op.deadline) (.msg "authoritative audit persistence deadline expired")
  let result ← timed (ask (.append op.conn op.entry event))
  check (joined result)

/-- The intent goes to the ledger first. -/
def recordIntent (op : GrantAuditOperation) : ConnTask HAns Unit := do
  let now ← ask .unixNow
  let result ← attempt (op.append (op.intent now))
  match result with
  | .ok _ => pure ()
  | .error e => do
    ask (.quarantinedStore op.entry)
    fail (e.context "persist authoritative grant intent")

variable (x : Platform)

/-- The outcome goes to the ledger. -/
def persistOutcome (op : GrantAuditOperation) (terminal : AuditTerminal) :
    ConnTask HAns Unit := do
  let now ← ask .unixNow
  let result ← attempt (op.append (op.outcome x terminal now))
  match result with
  | .ok _ => ask (.auditStore op.conn .complete)
  | .error e => do
    ask (.auditStore op.conn .failed)
    ask (.quarantinedStore op.entry)
    fail (e.context "persist authoritative grant outcome")

/-- Only one outcome is ever recorded. -/
def recordOutcome (op : GrantAuditOperation) (terminal : AuditTerminal) : ConnTask HAns Unit := do
  let swapped ← ask (.auditCompareExchange op.conn .pending .finalizing)
  match swapped with
  | .ok _ => op.persistOutcome x terminal
  | .error .complete => pure ()
  | .error .failed => fail (.msg "authoritative audit outcome persistence failed")
  | .error _ => fail (.msg "authoritative audit outcome is already being finalized")

/-- A request that is denied has an outcome, too. -/
def recordDenied (op : GrantAuditOperation) (reasonCode : String) : ConnTask HAns Unit :=
  op.recordOutcome x ⟨.denied, reasonCode, []⟩

/-- A response that ends the request is replaced if its outcome cannot be recorded. -/
def beforeTerminalFrame (op : GrantAuditOperation) (frame : Frame) :
    ConnTask HAns (Option Frame) :=
  match terminalForFrame op.operationKind frame with
  | none => pure none
  | some terminal => do
    let result ← attempt (op.recordOutcome x terminal)
    match result with
    | .ok _ => pure none
    | .error _ => pure (some unrecordedFrame)

/-- After the handler: an outcome that is missing is unknown, and one that was interrupted is a
    failure of the ledger. -/
def finalizeUnknownIfPending (op : GrantAuditOperation) : ConnTask HAns Unit := do
  let state ← ask (.auditLoad op.conn)
  match state with
  | .pending => op.recordOutcome x ⟨.unknown, "dispatch.no_terminal_result", []⟩
  | .complete => pure ()
  | .failed => fail (.msg "authoritative audit outcome persistence failed")
  | .finalizing => do
    ask (.auditStore op.conn .failed)
    ask (.quarantinedStore op.entry)
    fail (.msg "authoritative audit outcome finalization was interrupted")

end GrantAuditOperation

/-! ## Writing responses -/

/-- How long one response may take, in milliseconds. -/
def ipcResponseWriteTimeout : Nat := 2 * 1000

/-- The error of a response that was not written. -/
def writeFailure (message : String) : Error := .typed .ipcResponseWriteFailure message

section Programs

variable (x : Platform)

/-- The frame that is written in the end. -/
def terminalFrame (active : Option GrantAuditOperation) (frame : Frame) :
    ConnTask HAns Frame :=
  match active with
  | none => pure frame
  | some op => do
    let replacement ← op.beforeTerminalFrame x frame
    return replacement.getD frame

/-- What the wait for the writer has come to. -/
def written : Option (Except Error (Except Error Unit)) → Except Error Unit
  | some (.ok (.ok _)) => .ok ()
  | some (.ok (.error e)) => .error (writeFailure ("IPC response write failed: " ++ e.alternate))
  | some (.error e) => .error e
  | none => .error (writeFailure "IPC response write exceeded its deadline")

/-- While a request under a grant is dispatched, the outcome that a response stands for is
    recorded before the response is written. -/
def writeFrameUntil (active : Option GrantAuditOperation) (frame : Frame)
    (requestDeadline : Nat) : ConnTask HAns Unit := do
  let frame ← terminalFrame x active frame
  let now ← ask .instantNow
  require (now < requestDeadline) (writeFailure "IPC response write exceeded its deadline")
  let result ← timed (ask (.writeFrame frame))
  check (written result)

def shuttingDownError : Error := writeFailure "daemon shutting down during IPC response write"

/-- Write a frame, unless the daemon shuts down. -/
def writeFrameOrShutdown (frame : Frame) (requestDeadline : Nat) : ConnTask HAns Unit := do
  let down ← ask .shuttingDown
  require (down = false) shuttingDownError
  let result ← timed (writeFrameUntil x none frame requestDeadline)
  check (result.getD (.error shuttingDownError))

/-- Answer and be done. -/
def respond (frame : Frame) : ConnTask HAns Unit := do
  let now ← ask .instantNow
  writeFrameOrShutdown x frame (now + ipcResponseWriteTimeout)

/-- An error as it is shown. -/
def terminalSafeError (e : Error) : String := x.escapeDebug e.alternate

/-- Answer with an error. -/
def respondError (e : Error) : ConnTask HAns Unit := respond x (.error (terminalSafeError x e))

/-! ## Handlers -/

/-- A handler writes responses, until a deadline, and does operations of its own. -/
inductive HandlerOp (HOp : Type) where
  | writeFrameUntil (frame : Frame) (requestDeadline : Nat)
  | own (op : HOp)

/-- What the operations of handlers return. -/
@[reducible] def HandlerAns (HAns : HOp → Type) : HandlerOp HOp → Type
  | .writeFrameUntil _ _ => Except Error Unit
  | .own op => HAns op

/-- The programs that carry requests out. -/
abbrev Handler (HAns : HOp → Type) := Task Error (HandlerOp HOp) (HandlerAns HAns) Unit

/-- How a task without errors ended, as the answer of an operation. -/
def asAnswer {α : Type} : Ended Empty α → Except Nat α
  | .done a => .ok a
  | .cut timer => .error timer

/-- The operations of a handler while a request is active. -/
def handlerCall (active : Option GrantAuditOperation) :
    (c : HandlerOp HOp × Nat) →
      Prog (ConnOp HOp × Nat) (Timed (ConnAns HAns)) (Timed (HandlerAns HAns) c)
  | (.writeFrameUntil frame requestDeadline, n) =>
    attempt (writeFrameUntil x active frame requestDeadline) n >>= fun r => .ret (asAnswer r)
  | (.own op, n) => .ask (.handler op, n) .ret

/-- A handler while a request is active. -/
def runHandler (active : Option GrantAuditOperation) (handler : Handler HAns) :
    ConnTask HAns Unit :=
  fun n => (handler n).expand (handlerCall x active)

/-- What a handler is given. -/
structure HandlerContext where
  entry : ProfilePoolEntry
  active : Option GrantAuditOperation
  authorizationDeadline : Nat
  deriving DecidableEq, Repr

variable (handlers : HandlerContext → Frame → Handler HAns)

/-- The handler runs until the authorization ends. -/
def dispatchRootRequest (context : HandlerContext) (frame : Frame) : ConnTask HAns Unit := do
  let result ← timed (runHandler x context.active (handlers context frame))
  match result with
  | some r => check r
  | none => do
    ask (.invalidateSessions context.entry)
    fail (.msg "profile authorization lease expired")

/-! ## Requests under a grant -/

/-- The loop of the compare-and-exchange; `fuel` bounds its rounds. -/
def spendFrom (conn : Nat) (record : GrantRecord) : Nat → Nat → ConnTask HAns Bool
  | 0, _ => do
    let never ← ask .spin
    nomatch never
  | fuel + 1, remaining =>
    if remaining = 0 then fail (.msg "grant budget exhausted")
    else do
      let swapped ← ask (.remainingCompareExchangeWeak conn record remaining)
      match swapped with
      | .ok _ => pure (remaining = 1)
      | .error current => spendFrom conn record fuel current

/-- Spend one unit; was it the last one? -/
def spendBudget (fuel conn : Nat) (record : GrantRecord) : ConnTask HAns Bool := do
  let remaining ← ask (.remainingLoad record)
  spendFrom conn record fuel remaining

/-- Frames under a grant name what they are about. -/
def validateGrantFrameBinding : Frame → Except Error Unit
  | .download _ _ none _ _ _ _ _ _ _ _ =>
    .error (.msg "grant-authorized downloads require a local-target commitment")
  | .transferCancel _ none =>
    .error (.msg "grant-authorized transfer cancellation requires an operation context id")
  | _ => .ok ()

/-- A frame that names a profile generation names the right one. -/
def validateConnectionIdentityBinding (frame : Frame) (identity : ProfileIdentity) :
    Except Error Unit :=
  match frame with
  | .connectionIdentity profileId profileGeneration =>
    ensure (profileId = identity.profileId ∧ profileGeneration = identity.generation)
      "SSH connection identity request does not match the authorized profile generation"
  | _ => .ok ()

/-- The end of the authorization: that of the grant or the one the request asks for, whichever
    comes first. -/
def grantDeadline (expiresAt now wallNow requestedDeadlineUnixMs : Nat) : Except Error Nat := do
  ensure (wallNow ≤ requestedDeadlineUnixMs) "requested deadline has expired"
  let requested ← orBail (checkedAdd now (requestedDeadlineUnixMs - wallNow))
    "requested deadline exceeds the monotonic clock range"
  ensure (now < min expiresAt requested) "profile authorization lease expired"
  return min expiresAt requested

/-- What is said about a grant that is not live. -/
def terminalGrantMessage : GrantLookup → String
  | .exhausted => "grant budget exhausted"
  | .expired => "grant has expired"
  | _ => unknownGrantError

def auditUnavailable : Frame :=
  .error "profile audit is unavailable; operation denied and outcome unknown"

/-- The diagnostic line of a request that was dispatched. -/
def dispatchedOutcome (finalization outcome : Except Error Unit) : String :=
  match finalization, outcome with
  | .error _, _ => "authoritative outcome persistence failed; profile quarantined"
  | .ok _, .ok _ => "accepted"
  | .ok _, .error _ => "rejected: dispatch failure"

/-- The handler, and after it the outcome if there is none yet. -/
def dispatchGrantRequest (record : GrantRecord) (prelude : V6RequestPrelude) (frame : Frame)
    (op : GrantAuditOperation) : ConnTask HAns Unit := do
  ask (.dispatch op.conn ⟨record, prelude, frame⟩)
  let outcome ← attempt (dispatchRootRequest x handlers ⟨record.entry, some op, op.deadline⟩ frame)
  let finalization ← attempt (op.finalizeUnknownIfPending x)
  ask (.compatibilityAudit
    (record.compatibilityLine prelude (dispatchedOutcome finalization outcome)))
  check finalization
  check outcome

/-- A request that finds the budget empty. -/
def denyExhausted (record : GrantRecord) (prelude : V6RequestPrelude) (op : GrantAuditOperation)
    (e : Error) : ConnTask HAns Unit := do
  let denied ← attempt (op.recordDenied x "grant.budget_exhausted")
  ask (.compatibilityAudit
    (record.compatibilityLine prelude "rejected: grant budget exhausted"))
  match denied with
  | .ok _ => respondError x e
  | .error _ => respond x auditUnavailable

/-- Spend one unit of the budget, and dispatch. -/
def spendAndDispatch (fuel : Nat) (grantId : Bytes 16) (record : GrantRecord)
    (prelude : V6RequestPrelude) (frame : Frame) (op : GrantAuditOperation) :
    ConnTask HAns Unit := do
  let spendNow ← ask .instantNow
  let spent ← attempt (spendBudget fuel op.conn record)
  match spent with
  | .ok exhausted => do
    onlyIf (exhausted = true)
      (ask (.markTerminalIfSame grantId record .exhausted spendNow))
    dispatchGrantRequest x handlers record prelude frame op
  | .error e => do
    ask (.markTerminalIfSame grantId record .exhausted spendNow)
    denyExhausted x record prelude op e

/-- A quarantined profile denies the request. -/
def denyQuarantined (record : GrantRecord) (prelude : V6RequestPrelude)
    (op : GrantAuditOperation) : ConnTask HAns Unit := do
  let denied ← attempt (op.recordDenied x "quarantine.mutation_denied")
  match denied with
  | .ok _ => do
    ask (.compatibilityAudit
      (record.compatibilityLine prelude "rejected: profile quarantined"))
    respond x (.error "profile is quarantined; mutation operations are disabled")
  | .error _ => respond x auditUnavailable

/-- Record the intent; without it the request goes no further. -/
def auditGrantRequest (fuel : Nat) (grantId : Bytes 16) (record : GrantRecord)
    (prelude : V6RequestPrelude) (frame : Frame) (op : GrantAuditOperation) :
    ConnTask HAns Unit := do
  let recorded ← attempt op.recordIntent
  match recorded with
  | .error e => do
    ask (.compatibilityAudit
      (record.compatibilityLine prelude "rejected: authoritative intent persistence failed"))
    respondError x e
  | .ok _ => do
    let quarantined ← ask (.quarantinedLoad record.entry)
    if quarantined = true ∧ operationAllowedWhileQuarantined prelude.operationKind = false then
      denyQuarantined x record prelude op
    else spendAndDispatch x handlers fuel grantId record prelude frame op

/-- A request whose grant accepts it. -/
def serveGrantRequest (fuel conn : Nat) (grantId : Bytes 16) (record : GrantRecord)
    (prelude : V6RequestPrelude) (frame : Frame) : ConnTask HAns Unit := do
  require (record.entry.profile = record.grant.profileName)
    (.msg "profile name does not match its profile id")
  check (validateConnectionIdentityBinding frame record.entry.identity)
  let now ← ask .instantNow
  let wallNow ← ask .unixNow
  let deadline ← check
    (grantDeadline record.expiresAt now wallNow.toNat prelude.requestedDeadlineUnixMs)
  ask (.auditNew (.new x conn record prelude deadline))
  auditGrantRequest x handlers fuel grantId record prelude frame
    (.new x conn record prelude deadline)

/-- A request that its grant refuses. -/
def rejectGrantRequest (grantId : Bytes 16) (record : GrantRecord) (prelude : V6RequestPrelude)
    (now : Nat) (e : Error) : ConnTask HAns Unit := do
  onlyIf (record.isExpired now = true)
    (ask (.markTerminalIfSame grantId record .expired now))
  ask (.compatibilityAudit
    (record.compatibilityLine prelude ("rejected: " ++ terminalSafeError x e)))
  respondError x e

/-- **A request under a grant.** -/
def handleGrantRequest (fuel conn : Nat) (grantId : Bytes 16) (prelude : V6RequestPrelude)
    (frame : Frame) : ConnTask HAns Unit := do
  let now ← ask .instantNow
  let found ← ask (.lookup grantId now)
  match found with
  | .live record => do
    let checkNow ← ask .instantNow
    let nowMs ← ask .unixNow
    match record.validateRequest x prelude checkNow nowMs.toNat,
      validateGrantFrameBinding frame with
    | .error e, _ => rejectGrantRequest x grantId record prelude checkNow e
    | .ok _, .error e => do
      ask (.compatibilityAudit
        (record.compatibilityLine prelude "rejected: missing local-target commitment"))
      respondError x e
    | .ok _, .ok _ => serveGrantRequest x handlers fuel conn grantId record prelude frame
  | terminal => respond x (.error (terminalGrantMessage terminal))

/-! ## Requests under a profile's call key -/

/-- A request under a call key is not audited. -/
def serveProfileRequest (entry : ProfilePoolEntry) (prelude : V6RequestPrelude) (frame : Frame) :
    ConnTask HAns Unit := do
  let expected ← check (orBail prelude.profileName "profile name is required for this operation")
  require (entry.profile = expected) (.msg "profile name does not match its profile id")
  check (validateConnectionIdentityBinding frame entry.identity)
  let proof ← check (orBail prelude.profileProof "profile call proof is required")
  check (verifyProfilePreludeProof x entry.callKey proof prelude)
  let now ← ask .instantNow
  require (now < entry.expiresAt) (.msg "profile authorization lease expired")
  let quarantined ← ask (.quarantinedLoad entry)
  if quarantined = true ∧ operationAllowedWhileQuarantined prelude.operationKind = false then
    respond x (.error "profile is quarantined; mutation operations are disabled")
  else do
    ask (.dispatchProfile entry prelude frame)
    dispatchRootRequest x handlers ⟨entry, none, entry.expiresAt⟩ frame

/-- A request with a profile's call key. -/
def handleProfileRequest (prelude : V6RequestPrelude) (frame : Frame) : ConnTask HAns Unit :=
  match prelude.profileId with
  | none => respond x (.error "profile id is required for this operation")
  | some profileId => do
    let now ← ask .instantNow
    let found ← ask (.entryFor profileId now)
    match found with
    | none => respond x (.error "profile is locked: unlock it first")
    | some entry => serveProfileRequest x handlers entry prelude frame

/-! ## Control requests -/

/-- How long an unlocked profile stays unlocked, in milliseconds. -/
def credentialLeaseTtl : Nat := 30 * 60 * 1000

/-- What the wait for the worker of an unlock has come to. -/
def unlockSnapshot {α : Type} : Option (Except Error (Except Error (Except Error α))) →
    Except Error α
  | some (.ok (.ok result)) => result
  | some (.ok (.error e)) => .error (e.context "join daemon unlock worker")
  | some (.error e) => .error e
  | none => .error (.msg "daemon unlock exceeded its setup deadline")

/-- Once there is a session, the entry goes into the pool. -/
def publishEntry (name : String) (unlocked : ProfileIdentity × Bytes 32) :
    ConnTask HAns String := do
  let connected ← ask (.connectUnlockedSession name)
  check connected
  let unlockedAt ← ask .instantNow
  ask (.insertEntry unlocked.1 name unlocked.2 (unlockedAt + credentialLeaseTtl))
  return x.base64Encode unlocked.2.val

/-- The ledger is verified before there is a session. -/
def unlockProfile (prelude : V6RequestPrelude) (passphrase : String) : ConnTask HAns String := do
  let name ← check (orBail prelude.profileName
    "unlock requires a profile name in the handshake prelude")
  let snapshot ← timed (ask (.unlockWorker name passphrase))
  let unlocked ← check (unlockSnapshot snapshot)
  publishEntry x name unlocked

/-- The operations in order, each once. -/
def uniqueOperations (operations : List String) : List String :=
  (operations.mergeSort fun a b => a ≤ b).eraseReps

/-- The grant that a request asks for. -/
def grantFor (entry : ProfilePoolEntry) (prelude : V6RequestPrelude) (profile : String)
    (operations : List String) (budget ttlSecs : Nat) (holderKey : String) (profileId : Bytes 16)
    (grantId : Bytes 16) (nowMs : Nat) : Except Error OperationGrant := do
  ensure (entry.profile = profile) "grant profile name does not match its profile id"
  let proof ← orBail prelude.profileProof "grant issuance requires a profile call proof"
  verifyProfilePreludeProof x entry.callKey proof prelude
  ensure (uniqueOperations operations ≠ [] ∧
      (uniqueOperations operations).all (grantableOperationKinds.contains ·) = true)
    "grant contains a non-grantable or empty operation kind"
  let decoded ← inContext (x.base64Decode holderKey) "decode grant holder public key"
  let key ← ofLength 32 decoded "grant holder key must decode to 32 bytes"
  inContext (x.ed25519Key key) "grant holder public key is invalid"
  OperationGrant.newWithTtl grantId profile profileId entry.identity.generation
    (uniqueOperations operations) budget key nowMs ttlSecs

/-- Issue a grant. -/
def issueGrant (prelude : V6RequestPrelude) (profile : String) (operations : List String)
    (budget ttlSecs : Nat) (holderKey : String) : ConnTask HAns OperationGrant := do
  require (prelude.profileName = some profile)
    (.msg "grant issuance must target the unlocked issuing profile")
  let profileId ← check
    (orBail prelude.profileId "grant issuance requires the issuing profile id")
  let now ← ask .instantNow
  let found ← ask (.entryFor profileId now)
  let entry ← check (orBail found "profile is locked: unlock it first")
  let nowMs ← ask .unixNow
  let grantId ← ask .randomGrantId
  let grant ← check (grantFor x entry prelude profile operations budget ttlSecs holderKey profileId
    grantId nowMs.toNat)
  let insertNow ← ask .instantNow
  let inserted ← ask (.insertGrant grant entry insertNow)
  check inserted
  return grant

/-- The answer to the request for a grant. -/
def grantIssuedFrame (grant : OperationGrant) : Frame :=
  .grantIssued (Text.hexEncode grant.grantId.val) grant.profileGeneration grant.issuedUnixMs
    grant.expiresUnixMs

/-- Answer with the frame of a result, or with its error. -/
def respondWith {α : Type} (frame : α → Frame) : Except Error α → ConnTask HAns Unit
  | .ok a => respond x (frame a)
  | .error e => respondError x e

/-- A request to shut down. -/
def handleShutdown (prelude : V6RequestPrelude) (passphrase : String) : ConnTask HAns Unit := do
  let profile ← check (orBail prelude.profileName
    "shutdown requires a profile name in the handshake prelude")
  let verified ← timed (ask (.verifyShutdown profile passphrase))
  match verified with
  | none => fail (.msg "daemon shutdown authorization exceeded its deadline")
  | some (.error e) => fail e
  | some (.ok (.error e)) => fail (e.context "join daemon shutdown verifier")
  | some (.ok (.ok (.error e))) => respondError x e
  | some (.ok (.ok (.ok _))) => do
    respond x .ack
    ask .requestShutdown

/-! ## Root requests -/

/-- The kind of the frame decides; all other kinds are root requests of a profile. -/
def handleFrame (fuel conn : Nat) (prelude : V6RequestPrelude) : Frame → ConnTask HAns Unit
  | .unlock passphrase => do
    let unlocked ← attempt (unlockProfile x prelude passphrase)
    respondWith x .profileAuthorized unlocked
  | .listProfiles => do
    let joined ← ask .listProfiles
    let listed ← check (joined.mapError (·.context "join profile catalog worker"))
    respondWith x (fun _ => .profileList) listed
  | .issueGrant profile operations budget ttlSecs holderKey => do
    let issued ← attempt (issueGrant x prelude profile operations budget ttlSecs holderKey)
    respondWith x grantIssuedFrame issued
  | .shutdown passphrase => handleShutdown x prelude passphrase
  | frame =>
    match prelude.grantId with
    | some grantId => handleGrantRequest x handlers fuel conn grantId prelude frame
    | none => handleProfileRequest x handlers prelude frame

/-- The wait for the root request: nothing if the daemon is shutting down. -/
def readAuthenticatedRequest (prelude : V6RequestPrelude) : ConnTask HAns (Option Frame) := do
  let result ← timed (do
    let read ← timed (ask (.readRoot prelude))
    match read with
    | none => fail (.msg "authenticated IPC connection exceeded its idle deadline")
    | some (.error e) => fail e
    | some (.ok r) => check r)
  match result with
  | none => pure none
  | some r => do
    let frame ← check r
    return some frame

/-- **A connection**: one request and its answer. -/
def handleGlobalConn (fuel conn : Nat) (prelude : V6RequestPrelude) : ConnTask HAns Unit := do
  let frame ← readAuthenticatedRequest prelude
  match frame with
  | none => pure ()
  | some frame => handleFrame x handlers fuel conn prelude frame

/-! ## The daemon -/

/-- A connection's prelude, and how its handler ended. -/
abbrev ConnReply := V6RequestPrelude × Ended Error Unit

/-- No timer is around a connection. -/
def connProgram (fuel conn : Nat) (prelude : V6RequestPrelude) :
    Prog (ConnOp HOp × Nat) (Timed (ConnAns HAns)) ConnReply :=
  handleGlobalConn x handlers fuel conn prelude 0 >>= fun r => .ret (prelude, r)

/-- Connections with preludes that the handshake accepts, each under a name of its own. -/
def daemonPool (s : Serde) (keys : ProfileIdentity → Bytes 32)
    (H : AsyncSystem HW HOp HAns HC) (fuel : Nat) :
    Pool Nat V6RequestPrelude (World HW) (ConnOp HOp × Nat) (Timed (ConnAns HAns))
      (Firing (ConnChoice HC)) ConnReply where
  sys := (connSystem x s keys H).inTimers
  launch conn prelude w :=
    if prelude.validate = .ok () ∧ trace w.history conn = [] then
      some (connProgram x handlers fuel conn prelude)
    else none

end Programs

/-- The systems that connections run in. -/
abbrev ConnSystem (HW : Type) (HAns : HOp → Type) (HC : Type) :=
  AsyncSystem (World HW) (ConnOp HOp) (ConnAns HAns) (ConnChoice HC)

/-- The pools of connections. -/
abbrev DaemonPool (HW : Type) (HAns : HOp → Type) (HC : Type) :=
  Pool Nat V6RequestPrelude (World HW) (ConnOp HOp × Nat) (Timed (ConnAns HAns))
    (Firing (ConnChoice HC)) ConnReply

/-- The world, and where each connection is. -/
abbrev DaemonConfig (HW : Type) (HAns : HOp → Type) :=
  Pool.Config Nat (World HW) (ConnOp HOp × Nat) (Timed (ConnAns HAns)) ConnReply

/-- The moves of a run. -/
abbrev DaemonMoves (HC : Type) := List (Pool.Move Nat V6RequestPrelude (Firing (ConnChoice HC)))

end Serctl.Daemon
