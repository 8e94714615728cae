import Serctl.Daemon.Registry

/-!
# The registry of managed tunnels

A managed tunnel is kept open by a worker.  The registry holds one record for each, which the
worker finishes when the tunnel has ended.  Whoever wants a tunnel to end requests its
cancellation and waits for the worker; a canceller that has waited too long finishes the record
itself, and so does the daemon when it shuts down.

Every operation on the registry is done under one lock, so it is a function of the registry.  An
operation may fail after it has already changed something, so each returns the registry next to
its result.  Cancelling and waiting is a task that takes turns with everybody else.
-/

namespace Serctl.Daemon

open Lib Lib.Guard Ipc

/-! ## Limits -/

/-- How long finished records are kept, in milliseconds. -/
def managedTunnelRecordRetention : Nat := 15 * 60 * 1000
def maxActiveManagedTunnelsPerProfile : Nat := 8
def maxActiveManagedTunnelsGlobal : Nat := 32
def maxCompletedManagedTunnelsPerProfile : Nat := 16
def maxCompletedManagedTunnelsGlobal : Nat := 128

/-- The next number of 64 bits, or the last one. -/
def saturatingSucc (n : Nat) : Nat := (checkedSucc n).getD n

/-! ## Records -/

/-- The profile generation that a tunnel belongs to. -/
structure ManagedTunnelOwner where
  profileId : Bytes 16
  generation : UInt64
  deriving DecidableEq, Repr

/-- What a tunnel says once it is open. -/
structure TunnelReady where
  mode : TunnelMode
  bindHost : String
  bindPort : Nat
  deriving DecidableEq, Repr

/-- The first status of a tunnel.  Its revision is 1 with an operation context, and 0 without. -/
def managedTunnelStatus (owner : ManagedTunnelOwner) (tunnelId : TunnelId) (spec : TunnelSpec)
    (ready : TunnelReady) (deadlineUnixMs : Nat) (operationContextId : Option OperationContextId)
    (nowUnixMs : Nat) : Except Error TunnelStatus := do
  ensure (ready.mode = spec.mode) "SSH tunnel readiness mode does not match the request"
  let targetHost := match spec.mode with
    | .localForward | .remoteForward => some "127.0.0.1"
    | .dynamic => none
  let status : TunnelStatus :=
    { schemaVersion := tunnelStatusSchemaVersion
      tunnelId := tunnelId
      profileId := Text.hexEncode owner.profileId.val
      profileGeneration := owner.generation
      mode := ready.mode
      bindHost := ready.bindHost
      bindPort := ready.bindPort
      targetHost := targetHost
      targetPort := spec.targetPort
      deadlineUnixMs := deadlineUnixMs
      stage := .ready
      updatedUnixMs := nowUnixMs
      operationContextId := operationContextId
      revision := if operationContextId.isSome then 1 else 0 }
  status.validate
  return status

/-- What is known about one tunnel.  Its cancellation, its completion and its idle guard are
    shared with others, so they are named. -/
structure ManagedTunnelRecord where
  owner : ManagedTunnelOwner
  status : TunnelStatus
  cancellation : Nat
  completion : Nat
  finishedAt : Option Nat
  finishedOrder : Option Nat
  contextDiscovered : Bool
  idleGuard : Option Nat
  deriving DecidableEq, Repr

instance : Shelved ManagedTunnelRecord ManagedTunnelOwner :=
  ⟨ManagedTunnelRecord.owner, ManagedTunnelRecord.finishedAt, ManagedTunnelRecord.finishedOrder⟩

/-- Identifiers are compared as texts. -/
instance : LT TunnelId := ⟨fun left right => left.val < right.val⟩

instance : DecidableLT TunnelId := fun left right =>
  inferInstanceAs (Decidable (left.val < right.val))

instance : Snapshot.Subject ManagedTunnelRecord TunnelStatus where
  noun := "managed tunnel"
  shown := ManagedTunnelRecord.status
  context := fun record => record.status.operationContextId
  discovered := ManagedTunnelRecord.contextDiscovered
  markDiscovered := fun record => { record with contextDiscovered := true }

/-- A stage in which a tunnel has ended. -/
def isTerminal (stage : TunnelStage) : Bool := stage = .closed || stage = .unknown

/-- The tunnels that the daemon knows of. -/
structure ManagedTunnelRegistry where
  records : Table TunnelId ManagedTunnelRecord
  nextFinishedOrder : Nat

namespace ManagedTunnelRegistry

/-- The records by their identifiers. -/
abbrev Records := Table TunnelId ManagedTunnelRecord

/-- No tunnels. -/
def empty : ManagedTunnelRegistry := ⟨.empty, 0⟩

/-- The registry with one record replaced, or added. -/
def put (r : ManagedTunnelRegistry) (tunnelId : TunnelId) (record : ManagedTunnelRecord) :
    ManagedTunnelRegistry :=
  { r with records := r.records.insert tunnelId record }

/-- Records are dropped some time after they have finished. -/
def pruneLocked (records : Records) (now : Nat) : Records :=
  Shelf.prune managedTunnelRecordRetention records now

/-- The first that were finished go where there are too many. -/
def enforceFinishedCapsLocked (records : Records) (owner : ManagedTunnelOwner) : Records :=
  Shelf.enforceCaps maxCompletedManagedTunnelsPerProfile maxCompletedManagedTunnelsGlobal records
    owner

/-! ## Operations -/

/-- The checks on a new tunnel, before the registry is locked. -/
def checkNew (owner : ManagedTunnelOwner) (status : TunnelStatus) : Except Error Unit := do
  status.validate
  ensure (status.profileId = Text.hexEncode owner.profileId.val ∧
      status.profileGeneration = owner.generation)
    "tunnel status identity does not match its owner"
  ensure (status.stage = .ready) "new tunnel must enter the registry ready"

/-- Is there room for one more tunnel? -/
def checkRoom (records : Records) (owner : ManagedTunnelOwner) (status : TunnelStatus) :
    Except Error Unit := do
  ensure (records.countP Shelf.isActive < maxActiveManagedTunnelsGlobal)
    "global active tunnel capacity is exhausted"
  ensure (records.countP (fun record => record.owner == owner && Shelf.isActive record) <
    maxActiveManagedTunnelsPerProfile) "profile active tunnel capacity is exhausted"
  ensure ((records.find status.tunnelId).isNone = true) "tunnel id is already registered"

/-- The record of a new tunnel. -/
def newRecord (owner : ManagedTunnelOwner) (status : TunnelStatus)
    (cancellation completion idleGuard : Nat) : ManagedTunnelRecord :=
  ⟨owner, status, cancellation, completion, none, none, false, some idleGuard⟩

/-- A tunnel is registered. -/
def begin (r : ManagedTunnelRegistry) (owner : ManagedTunnelOwner) (status : TunnelStatus)
    (cancellation completion idleGuard now : Nat) : Except Error Unit × ManagedTunnelRegistry :=
  match checkNew owner status with
  | .error e => (.error e, r)
  | .ok _ =>
    let r := { r with records := pruneLocked r.records now }
    match checkRoom r.records owner status with
    | .error e => (.error e, r)
    | .ok _ =>
      (.ok (), r.put status.tunnelId (newRecord owner status cancellation completion idleGuard))

/-- The status with another stage. -/
def staged (status : TunnelStatus) (stage : TunnelStage) (nowUnixMs : Nat) : TunnelStatus :=
  { status with stage := stage, updatedUnixMs := nowUnixMs }

/-- The status with the next revision, where it belongs to an operation context. -/
def revised (status : TunnelStatus) : Option TunnelStatus :=
  if status.operationContextId.isSome then
    (checkedSucc status.revision).map fun revision => { status with revision := revision }
  else some status

/-- The record as it is kept once it has finished: it gives its idle guard back. -/
def finished (record : ManagedTunnelRecord) (status : TunnelStatus) (now order : Nat) :
    ManagedTunnelRecord :=
  { record with
    status := status
    finishedAt := some now
    finishedOrder := some order
    idleGuard := none }

/-- The record that a worker finishes. -/
def finishable (records : Records) (owner : ManagedTunnelOwner) (tunnelId : TunnelId) :
    Except Error ManagedTunnelRecord := do
  let record ← orBail (records.find tunnelId) "tunnel is not registered"
  ensure (record.owner = owner) "tunnel was not found for this profile"
  return record

/-- The result, the registry, and the completion whose waiters are notified.  The stage is
    assigned before the revision is found to be exhausted. -/
def finishWorker (r : ManagedTunnelRegistry) (owner : ManagedTunnelOwner) (tunnelId : TunnelId)
    (stage : TunnelStage) (now nowUnixMs : Nat) :
    Except Error Unit × ManagedTunnelRegistry × Option Nat :=
  if isTerminal stage = false then
    (.error (.msg "managed tunnel terminal stage is invalid"), r, none)
  else
    let records := pruneLocked r.records now
    match checkedSucc r.nextFinishedOrder with
    | none =>
      (.error (.msg "managed tunnel completion order is exhausted"), { r with records := records },
        none)
    | some next =>
      match finishable records owner tunnelId with
      | .error e => (.error e, ⟨records, next⟩, none)
      | .ok record =>
        if record.finishedAt.isSome then (.ok (), ⟨records, next⟩, none)
        else match revised (staged record.status stage nowUnixMs) with
          | none => (.error (.msg "managed tunnel revision is exhausted"),
              ⟨records.insert tunnelId
                { record with status := staged record.status stage nowUnixMs }, next⟩, none)
          | some status => (.ok (), ⟨enforceFinishedCapsLocked
              (records.insert tunnelId (finished record status now r.nextFinishedOrder)) owner,
              next⟩, some record.completion)

/-- The records that are visited. -/
def matching (records : Records) (owner : ManagedTunnelOwner) (tunnelId : Option TunnelId) :
    List (TunnelId × ManagedTunnelRecord) :=
  records.entries.filter fun entry =>
    entry.2.owner = owner ∧ tunnelId.all (· = entry.2.status.tunnelId) = true

/-- The snapshots have to be of one record if a context is given, and fit a frame. -/
def checkSnapshots (x : Platform) (operationContextId : Option OperationContextId)
    (shown : List TunnelStatus) : Except Error (List TunnelStatus) := do
  let sorted := shown.mergeSort fun left right => left.tunnelId.val ≤ right.tunnelId.val
  ensure (operationContextId = none ∨ sorted.length = 1)
    "managed tunnel operation context does not match this daemon instance and object"
  ensure ((x.frameJson (.managedTunnelStatusInfo sorted)).length ≤ maxControlFrame - 1)
    "managed tunnel status snapshot exceeds the control-frame bound"
  return sorted

/-- The records that a client may see. -/
def snapshots (x : Platform) (r : ManagedTunnelRegistry) (owner : ManagedTunnelOwner)
    (tunnelId : Option TunnelId) (operationContextId : Option OperationContextId)
    (enforceContextDiscovery : Bool) (now : Nat) :
    Except Error (List TunnelStatus) × ManagedTunnelRegistry :=
  let records := pruneLocked r.records now
  let (shown, discovered) := Snapshot.visit operationContextId enforceContextDiscovery
    (matching records owner tunnelId)
  (shown >>= checkSnapshots x operationContextId,
    { r with records := Snapshot.discover records discovered })

/-- The checks on a cancellation. -/
def cancellable (r : ManagedTunnelRegistry) (owner : ManagedTunnelOwner) (tunnelId : TunnelId)
    (operationContextId : Option OperationContextId) : Except Error ManagedTunnelRecord := do
  let record ← orBail (r.records.find tunnelId) "tunnel was not found for this profile"
  ensure (record.owner = owner) "tunnel was not found for this profile"
  match record.status.operationContextId with
  | none => return record
  | some actual => do
    let expected ← orBail operationContextId
      "managed tunnel operation context is required for cancellation"
    ensure (actual = expected)
      "managed tunnel operation context does not match this daemon instance and object"
    return record

/-- The status and the completion, the registry, and the cancellation that was triggered.  The
    stage is assigned before the revision is found to be exhausted. -/
def requestCancel (r : ManagedTunnelRegistry) (owner : ManagedTunnelOwner) (tunnelId : TunnelId)
    (operationContextId : Option OperationContextId) (nowUnixMs : Nat) :
    Except Error (TunnelStatus × Nat) × ManagedTunnelRegistry × Option Nat :=
  match cancellable r owner tunnelId operationContextId with
  | .error e => (.error e, r, none)
  | .ok record =>
    if record.finishedAt = none ∧ record.status.stage ≠ .cancelling then
      match revised (staged record.status .cancelling nowUnixMs) with
      | none => (.error (.msg "managed tunnel revision is exhausted"),
          r.put tunnelId { record with status := staged record.status .cancelling nowUnixMs }, none)
      | some status => (.ok (status, record.completion),
          r.put tunnelId { record with status := status }, some record.cancellation)
    else (.ok (record.status, record.completion), r, none)

/-- What a canceller is to cancel. -/
structure CancelTarget where
  owner : ManagedTunnelOwner
  tunnelId : TunnelId
  operationContextId : Option OperationContextId
  deriving DecidableEq, Repr

/-- The record of a tunnel that is cancelled by the shutdown. -/
def shutDown (record : ManagedTunnelRecord) (nowUnixMs : Nat) : ManagedTunnelRecord :=
  let status := staged record.status .cancelling nowUnixMs
  { record with status :=
      if status.operationContextId.isSome then
        { status with revision := saturatingSucc status.revision }
      else status }

/-- What a canceller needs to know about a record. -/
def targetOf (record : ManagedTunnelRecord) : CancelTarget :=
  ⟨record.owner, record.status.tunnelId, record.status.operationContextId⟩

/-- The first part of the shutdown: every active tunnel is cancelled.  The result are the tunnels
    to wait for, and the cancellations that were triggered. -/
def cancelAll (r : ManagedTunnelRegistry) (now nowUnixMs : Nat) :
    List CancelTarget × ManagedTunnelRegistry × List Nat :=
  let records := pruneLocked r.records now
  let active := records.values.filter Shelf.isActive
  (active.map targetOf,
    { r with records := records.mapValues fun _ record =>
        if Shelf.isActive record then shutDown record nowUnixMs else record },
    active.map ManagedTunnelRecord.cancellation)

end ManagedTunnelRegistry

/-! ## Tasks -/

open ManagedTunnelRegistry

/-- The registry, how often the waiters of each completion were notified, and the cancellations
    that were triggered. -/
structure TunnelWorld where
  registry : ManagedTunnelRegistry
  notified : Nat → Nat
  cancelled : List Nat

namespace TunnelWorld

/-- No tunnels, and nobody told of anything. -/
def new : TunnelWorld := ⟨.empty, fun _ => 0, []⟩

/-- Those who wait for a completion are told. -/
def notify (w : TunnelWorld) : Option Nat → TunnelWorld
  | none => w
  | some completion =>
    { w with notified := Function.update w.notified completion (w.notified completion + 1) }

/-- Tunnels are told to stop. -/
def trigger (w : TunnelWorld) (cancellations : List Nat) : TunnelWorld :=
  { w with cancelled := cancellations ++ w.cancelled }

/-- The worker of a tunnel has ended. -/
def finishWorker (w : TunnelWorld) (owner : ManagedTunnelOwner) (tunnelId : TunnelId)
    (stage : TunnelStage) (now nowUnixMs : Nat) : Except Error Unit × TunnelWorld :=
  let (result, registry, completion) := w.registry.finishWorker owner tunnelId stage now nowUnixMs
  (result, { w with registry := registry }.notify completion)

/-- A tunnel is to stop. -/
def requestCancel (w : TunnelWorld) (target : CancelTarget) (nowUnixMs : Nat) :
    Except Error (TunnelStatus × Nat) × TunnelWorld :=
  let (result, registry, cancellation) := w.registry.requestCancel target.owner target.tunnelId
    target.operationContextId nowUnixMs
  (result, { w with registry := registry }.trigger cancellation.toList)

/-- The records that a client may see. -/
def snapshots (x : Platform) (w : TunnelWorld) (owner : ManagedTunnelOwner)
    (tunnelId : Option TunnelId) (operationContextId : Option OperationContextId)
    (enforceContextDiscovery : Bool) (now : Nat) :
    Except Error (List TunnelStatus) × TunnelWorld :=
  let (result, registry) := w.registry.snapshots x owner tunnelId operationContextId
    enforceContextDiscovery now
  (result, { w with registry := registry })

/-- All tunnels are to stop. -/
def cancelAll (w : TunnelWorld) (now nowUnixMs : Nat) : List CancelTarget × TunnelWorld :=
  let (targets, registry, cancellations) := w.registry.cancelAll now nowUnixMs
  (targets, { w with registry := registry }.trigger cancellations)

end TunnelWorld

/-- Where a canceller has got to. -/
inductive CancelPhase where
  | requesting
  /-- It is about to listen for the completion. -/
  | listening (completion : Nat)
  /-- It has listened since the completion was notified `seen` times. -/
  | looking (completion seen : Nat)
  | waiting (completion seen : Nat)
  | finishing
  | reporting
  | done (result : Except Error TunnelStatus)

/-- What a turn reads: the clocks, and whether the deadline has passed. -/
structure Turn where
  now : Nat
  nowUnixMs : Nat
  expired : Bool

/-- The status of the one tunnel that was asked for. -/
def onlyStatus (result : Except Error (List TunnelStatus)) : Except Error TunnelStatus := do
  let shown ← result
  orBail shown.head? "tunnel was not found for this profile"

/-- One turn of a canceller.  It waits until it is notified or its deadline has passed. -/
def cancelAndWait (x : Platform) (target : CancelTarget) (turn : Turn) (w : TunnelWorld) :
    CancelPhase → Option (CancelPhase × TunnelWorld)
  | .requesting =>
    match w.requestCancel target turn.nowUnixMs with
    | (.error e, w) => some (.done (.error e), w)
    | (.ok (initial, completion), w) =>
      if isTerminal initial.stage then some (.done (.ok initial), w)
      else some (.listening completion, w)
  | .listening completion => some (.looking completion (w.notified completion), w)
  | .looking completion seen =>
    let (result, w) := w.snapshots x target.owner (some target.tunnelId)
      target.operationContextId false turn.now
    match onlyStatus result with
    | .error e => some (.done (.error e), w)
    | .ok current =>
      if isTerminal current.stage then some (.done (.ok current), w)
      else some (.waiting completion seen, w)
  | .waiting completion seen =>
    if seen < w.notified completion then some (.listening completion, w)
    else if turn.expired then some (.finishing, w)
    else none
  | .finishing =>
    match w.finishWorker target.owner target.tunnelId .unknown turn.now turn.nowUnixMs with
    | (.error e, w) => some (.done (.error e), w)
    | (.ok _, w) => some (.reporting, w)
  | .reporting =>
    let (result, w) := w.snapshots x target.owner (some target.tunnelId)
      target.operationContextId false turn.now
    some (.done (onlyStatus result), w)
  | .done _ => none

/-- Where the shutdown has got to. -/
inductive ShutdownPhase where
  | marking
  | cancelling (target : CancelTarget) (phase : CancelPhase) (rest : List CancelTarget)
  | finishing (target : CancelTarget) (rest : List CancelTarget)
  | done

/-- The next tunnel to wait for. -/
def ShutdownPhase.next : List CancelTarget → ShutdownPhase
  | [] => .done
  | target :: rest => .cancelling target .requesting rest

/-- One turn of the shutdown. -/
def shutdownAll (x : Platform) (turn : Turn) (w : TunnelWorld) :
    ShutdownPhase → Option (ShutdownPhase × TunnelWorld)
  | .marking =>
    let (targets, w) := w.cancelAll turn.now turn.nowUnixMs
    some (.next targets, w)
  | .cancelling _ (.done (.ok _)) rest => some (.next rest, w)
  | .cancelling target (.done (.error _)) rest => some (.finishing target rest, w)
  | .cancelling target phase rest =>
    (cancelAndWait x target turn w phase).map fun (phase, w) =>
      (.cancelling target phase rest, w)
  | .finishing target rest =>
    some (.next rest,
      (w.finishWorker target.owner target.tunnelId .unknown turn.now turn.nowUnixMs).2)
  | .done => none

/-! ## Runs -/

/-- Those who wait on the registry. -/
inductive TunnelTask where
  | cancel (target : CancelTarget) (phase : CancelPhase)
  | shutdown (phase : ShutdownPhase)

/-- The world and the tasks that are under way. -/
structure TunnelConfig where
  world : TunnelWorld
  tasks : Nat → Option TunnelTask

/-- What may happen next: an operation by anybody, a new task, or a turn of a task; and the loops
    over the map may see its records in another order from now on. -/
inductive TunnelMove where
  | begin (owner : ManagedTunnelOwner) (status : TunnelStatus)
      (cancellation completion idleGuard now : Nat)
  | finishWorker (owner : ManagedTunnelOwner) (tunnelId : TunnelId) (stage : TunnelStage)
      (now nowUnixMs : Nat)
  | requestCancel (target : CancelTarget) (nowUnixMs : Nat)
  | snapshots (owner : ManagedTunnelOwner) (tunnelId : Option TunnelId)
      (operationContextId : Option OperationContextId) (enforceContextDiscovery : Bool) (now : Nat)
  | cancelAndWait (task : Nat) (target : CancelTarget)
  | shutdownAll (task : Nat)
  | turn (task : Nat) (turn : Turn)
  | rearrange (order : Table.Arrangement TunnelId ManagedTunnelRecord)

namespace TunnelConfig

/-- Nothing has happened yet. -/
def start : TunnelConfig := ⟨.new, fun _ => none⟩

/-- Somebody starts to wait. -/
def launch (c : TunnelConfig) (task : Nat) (t : TunnelTask) : TunnelConfig :=
  { c with tasks := Function.update c.tasks task (some t) }

/-- One turn of a task. -/
def turn (x : Platform) (turn : Turn) (w : TunnelWorld) :
    TunnelTask → Option (TunnelTask × TunnelWorld)
  | .cancel target phase =>
    (Daemon.cancelAndWait x target turn w phase).map fun (phase, w) => (.cancel target phase, w)
  | .shutdown phase =>
    (Daemon.shutdownAll x turn w phase).map fun (phase, w) => (.shutdown phase, w)

/-- One move. -/
def step (x : Platform) (c : TunnelConfig) : TunnelMove → Option TunnelConfig
  | .begin owner status cancellation completion idleGuard now =>
    some { c with world := { c.world with
      registry := (c.world.registry.begin owner status cancellation completion idleGuard now).2 } }
  | .finishWorker owner tunnelId stage now nowUnixMs =>
    some { c with world := (c.world.finishWorker owner tunnelId stage now nowUnixMs).2 }
  | .requestCancel target nowUnixMs =>
    some { c with world := (c.world.requestCancel target nowUnixMs).2 }
  | .snapshots owner tunnelId operationContextId enforceContextDiscovery now =>
    some { c with world := (c.world.snapshots x owner tunnelId operationContextId
      enforceContextDiscovery now).2 }
  | .cancelAndWait task target => some (c.launch task (.cancel target .requesting))
  | .shutdownAll task => some (c.launch task (.shutdown .marking))
  | .turn task t => do
    let current ← c.tasks task
    let (next, world) ← TunnelConfig.turn x t c.world current
    return { c with world := world }.launch task next
  | .rearrange order => some { c with world := { c.world with
      registry := { c.world.registry with
        records := order.arrange c.world.registry.records } } }

/-- The configuration after a list of moves, if each of them can be made. -/
def run (x : Platform) (c : TunnelConfig) : List TunnelMove → Option TunnelConfig
  | [] => some c
  | move :: moves => do
    let c ← c.step x move
    c.run x moves

end TunnelConfig

end Serctl.Daemon
