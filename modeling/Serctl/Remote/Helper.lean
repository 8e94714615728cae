import Serctl.Lib.Act
import Serctl.Lib.Pool
import Serctl.Remote.Journal
import Serctl.Remote.Prepare
import Serctl.Remote.Session

/-!
# The helper

The helper serves one session over its standard streams: it greets its controller, checks a request
and runs the job, or it answers a query for a receipt.  One thread reads frames, one writes them
from a queue of eight, and two read what the job prints; the main thread never waits for the writer.

The loops of the main thread have no bound, so a program here takes a number of rounds and stops
where they are used up.
-/

namespace Serctl.Remote.Helper

open Lib Lib.Guard
open Policy (PolicyDocument)

/-! ## What the threads exchange -/

/-- What the reader thread hands on. -/
inductive InputEvent where
  | frame (envelope : Envelope)
  | error (error : ProtocolError)
  | closed
  deriving DecidableEq, Repr

/-- The streams of the child. -/
inductive StreamKind where
  | stdout
  | stderr
  deriving DecidableEq, Repr

/-- What a thread that reads a stream hands on. -/
inductive ChildEvent where
  | chunk (kind : StreamKind) (data : List UInt8)
  | closed (kind : StreamKind)
  | readFailed (kind : StreamKind)
  deriving DecidableEq, Repr

/-- A frame for the relay, and whether its fate is to be told. -/
structure OutputCommand where
  frame : Frame
  acknowledged : Bool
  deriving DecidableEq, Repr

/-- The threads that the main thread starts. -/
inductive Thread where
  | input
  | output
  | stream (kind : StreamKind)
  deriving DecidableEq, Repr

def outputReadBytes : Nat := maxOutputChunk

/-- The number of commands that the queue holds. -/
def queueCapacity : Nat := 8

/-- The queue and the thread behind it. -/
structure Sink where
  /-- The thread is running. -/
  relaying : Bool := false
  queue : List OutputCommand := []
  /-- Taken from the queue and not yet written. -/
  inFlight : Option OutputCommand := none
  sequence : UInt64 := 0
  /-- The frames that were written as a whole. -/
  written : List Envelope := []
  /-- What was acknowledged. -/
  acknowledged : Option Bool := none
  deriving DecidableEq, Repr

/-- What became of the bytes of a frame. -/
inductive WriteResult where
  | sent
  | unflushed
  | failed
  deriving DecidableEq, Repr

namespace Sink

/-- A command is put in the queue, if the thread runs and there is room. -/
def trySend (sink : Sink) (command : OutputCommand) : Bool × Sink :=
  if sink.relaying = false ∨ queueCapacity ≤ sink.queue.length then (false, sink)
  else (true, { sink with queue := sink.queue ++ [command] })

/-- The thread takes the next command. -/
def take (sink : Sink) : Option Sink :=
  match sink.relaying, sink.inFlight, sink.queue with
  | true, none, command :: queue => some { sink with inFlight := some command, queue := queue }
  | _, _, _ => none

/-- The acknowledgement of a command, if one was asked for. -/
def acknowledge (sink : Sink) (command : OutputCommand) (succeeded : Bool) : Sink :=
  if command.acknowledged then { sink with acknowledged := some succeeded } else sink

/-- The thread ends; what is queued is never written. -/
def stop (sink : Sink) : Sink := { sink with relaying := false, inFlight := none, queue := [] }

/-- A frame was written. -/
def record (sink : Sink) (envelope : Envelope) : Sink :=
  { sink with written := sink.written ++ [envelope] }

/-- The thread has tried to write the frame in flight. -/
def write (sink : Sink) (result : WriteResult) : Option Sink :=
  match sink.relaying, sink.inFlight with
  | true, some command =>
    let envelope : Envelope := ⟨sink.sequence, command.frame⟩
    match encode envelope, result with
    | .ok _, .sent =>
      let sink := sink.record envelope
      -- the thread ends without an acknowledgement when the numbers are used up
      if sink.sequence.toNat = 2 ^ 64 - 1 then some sink.stop
      else some ({ sink with
        sequence := sink.sequence + 1
        inFlight := none }.acknowledge command true)
    | .ok _, .unflushed => some ((sink.record envelope).acknowledge command false).stop
    | _, _ => some (sink.acknowledge command false).stop
  | _, _ => none

end Sink

/-! ## The world -/

/-- What the threads and the host hold. -/
structure World where
  sink : Sink := {}
  /-- The state of the thread that reads frames, while it is running. -/
  reader : Option ControllerSessionValidator := none
  /-- The frames that the main thread has received. -/
  received : List Frame := []
  journals : JobId → Option JobRecord
  receipts : JobId → Option (List UInt8)
  /-- The last reading of the monotonic clock, in nanoseconds. -/
  instant : Nat := 0
  /-- The readings of the wall clock. -/
  readings : List UInt64 := []
  spawned : Bool := false
  /-- The streams of the child that are still read. -/
  stdoutOpen : Bool := false
  stderrOpen : Bool := false

/-- Why nothing was loaded. -/
inductive LoadError where
  | notFound
  | other (message : String)
  deriving DecidableEq, Repr

/-- What there is to receive without waiting. -/
inductive TryReceived where
  | event (event : InputEvent)
  | empty
  | disconnected
  deriving DecidableEq, Repr

/-- The calls that write to the store of jobs. -/
inductive StoreCall where
  | createJournal (record : JobRecord)
  | updateJournal (record : JobRecord)
  | persistReceipt (receipt : AuthenticatedReceipt)

/-- What the main thread asks for. -/
inductive Op where
  | startThread (thread : Thread)
  | procStatus
  | host
  | unixMs
  | instantNow
  | receiveInput
  | tryReceiveInput
  | trySend (command : OutputCommand)
  | awaitAcknowledgement
  | store (call : StoreCall)
  | loadJournal (jobId : JobId)
  | loadReceipt (jobId : JobId)
  | spawn (command : Command)
  | kill
  | tryWait
  | tryReceiveChild

/-- The answers.  An exit status is the code, if the child was not ended by a signal. -/
abbrev Ans : Op → Type
  | .startThread _ => Except String Unit
  | .procStatus => Option String
  | .host => Host
  | .unixMs => Option UInt64
  | .instantNow => Nat
  | .receiveInput => Option InputEvent
  | .tryReceiveInput => TryReceived
  | .trySend _ => Bool
  | .awaitAcknowledgement => Bool
  | .store _ => Except String Unit
  | .loadJournal _ => Except LoadError JobRecord
  | .loadReceipt _ => Except LoadError (List UInt8)
  | .spawn _ => Except String Unit
  | .kill => Bool
  | .tryWait => Except String (Option (Option Int32))
  | .tryReceiveChild => Option ChildEvent

/-- What is up to the host, the controller and the child. -/
inductive Choice where
  /-- The call succeeds. -/
  | quiet
  /-- The call fails, having taken effect or not. -/
  | fault (message : String) (done : Bool)
  /-- There is nothing yet. -/
  | nothing
  | status (text : Option String)
  | host (answers : Host)
  | clock (reading : Option UInt64)
  | instant (reading : Nat)
  | input (bytes : List UInt8)
  | inputClosed
  | inputFailed (error : ProtocolError)
  | child (event : ChildEvent)
  | exited (code : Option Int32)
  | take
  | write (result : WriteResult)

/-- The thread that reads frames: it stops at the first frame out of order. -/
def readInput (validator : ControllerSessionValidator)
    (read : Except ProtocolError (Option Envelope)) :
    InputEvent × Option ControllerSessionValidator :=
  match read with
  | .ok (some envelope) => match validator.validate envelope with
    | .ok validator => (.frame envelope, some validator)
    | .error error => (.error error, none)
  | .ok none => (.closed, none)
  | .error error => (.error error, none)

/-- The frames of an event. -/
def InputEvent.frames : InputEvent → List Frame
  | .frame envelope => [envelope.frame]
  | _ => []

/-- The reader thread hands on what it has read. -/
def World.deliver (w : World) (validator : ControllerSessionValidator)
    (read : Except ProtocolError (Option Envelope)) : InputEvent × World :=
  let (event, reader) := readInput validator read
  (event, { w with reader := reader, received := w.received ++ event.frames })

/-- The next event from the controller. -/
def World.nextInput (w : World) (validator : ControllerSessionValidator) :
    Choice → Option (InputEvent × World)
  | .input bytes => some (w.deliver validator ((decodeExact bytes).map some))
  | .inputClosed => some (w.deliver validator (.ok none))
  | .inputFailed error => some (w.deliver validator (.error error))
  | _ => none

def World.setJournal (w : World) (record : JobRecord) : World :=
  { w with journals := Function.update w.journals record.identity.jobId (some record) }

def World.setReceipt (w : World) (receipt : AuthenticatedReceipt) : World :=
  { w with
    receipts := Function.update w.receipts receipt.body.identity.jobId (some receipt.encode) }

/-- Journals are created once and then replaced; receipts are created once. -/
def StoreCall.possible (w : World) : StoreCall → Bool
  | .createJournal record => (w.journals record.identity.jobId).isNone
  | .updateJournal record => (w.journals record.identity.jobId).isSome
  | .persistReceipt receipt => (w.receipts receipt.body.identity.jobId).isNone

/-- The error of a call that is not possible. -/
def StoreCall.refusal : StoreCall → String
  | .createJournal _ | .persistReceipt _ => "publish protected file"
  | .updateJournal _ => "inspect protected file"

/-- The world after a call. -/
def World.store (w : World) : StoreCall → World
  | .createJournal record | .updateJournal record => w.setJournal record
  | .persistReceipt receipt => w.setReceipt receipt

/-- The journal of a job. -/
def World.loadJournal (w : World) (jobId : JobId) : Except LoadError JobRecord :=
  match w.journals jobId with
  | none => .error .notFound
  | some record => match checkJournal jobId record with
    | .ok () => .ok record
    | .error message => .error (.other message)

def World.streamOpen (w : World) : StreamKind → Bool
  | .stdout => w.stdoutOpen
  | .stderr => w.stderrOpen

def World.setStream (w : World) (state : Bool) : StreamKind → World
  | .stdout => { w with stdoutOpen := state }
  | .stderr => { w with stderrOpen := state }

/-- An event from a stream that is still read.  A chunk is what one read returned. -/
def World.childEvent (w : World) : ChildEvent → Option World
  | .chunk kind data =>
    if w.streamOpen kind = true ∧ 0 < data.length ∧ data.length ≤ outputReadBytes then some w
    else none
  | .closed kind | .readFailed kind =>
    if w.streamOpen kind = true then some (w.setStream false kind) else none

/-- The world after a thread was started. -/
def World.startThread (w : World) : Thread → World
  | .input => { w with reader := some {} }
  | .output => { w with sink := { w.sink with relaying := true } }
  | .stream kind => w.setStream true kind

/-- **What each call does.** -/
def exec (w : World) : (op : Op) → Choice → Option (Ans op × World)
  | .startThread thread, .quiet => some (.ok (), w.startThread thread)
  | .startThread _, .fault message _ => some (.error message, w)
  | .procStatus, .status text => some (text, w)
  | .host, .host answers => some (answers, w)
  | .unixMs, .clock reading =>
    some (reading, { w with readings := w.readings ++ reading.toList })
  | .instantNow, .instant reading =>
    if w.instant ≤ reading then some (reading, { w with instant := reading }) else none
  | .receiveInput, choice => match w.reader with
    | none => some (none, w)
    | some validator => (w.nextInput validator choice).map fun (event, w) => (some event, w)
  | .tryReceiveInput, choice => match w.reader, choice with
    | none, _ => some (.disconnected, w)
    | some _, .nothing => some (.empty, w)
    | some validator, choice =>
      (w.nextInput validator choice).map fun (event, w) => (.event event, w)
  | .trySend command, .quiet =>
    let (sent, sink) := w.sink.trySend command
    some (sent, { w with sink := sink })
  | .awaitAcknowledgement, .nothing => some (false, w)
  | .awaitAcknowledgement, .quiet => w.sink.acknowledged.map fun succeeded => (succeeded, w)
  | .store call, .quiet =>
    if call.possible w then some (.ok (), w.store call) else some (.error call.refusal, w)
  | .store call, .fault message done =>
    some (.error message, if call.possible w && done then w.store call else w)
  | .loadJournal jobId, .quiet => some (w.loadJournal jobId, w)
  | .loadJournal _, .fault message _ => some (.error (.other message), w)
  | .loadReceipt jobId, .quiet => match w.receipts jobId with
    | some bytes => some (.ok bytes, w)
    | none => some (.error .notFound, w)
  | .loadReceipt _, .fault message _ => some (.error (.other message), w)
  | .spawn _, .quiet => some (.ok (), { w with spawned := true })
  | .spawn _, .fault message _ => some (.error message, w)
  | .kill, .quiet => some (true, w)
  | .kill, .fault _ _ => some (false, w)
  | .tryWait, .nothing => some (.ok none, w)
  | .tryWait, .exited code => some (.ok (some code), w)
  | .tryWait, .fault message _ => some (.error message, w)
  | .tryReceiveChild, .nothing => some (none, w)
  | .tryReceiveChild, .child event => (w.childEvent event).map fun w => (some event, w)
  | _, _ => none

/-- What a call that writes can do. -/
theorem exec_store {w w' : World} {call : StoreCall} {a : Except String Unit} {c : Choice}
    (h : exec w (.store call) c = some (a, w')) :
    (a = .ok () ∧ call.possible w = true ∧ w' = w.store call) ∨
      ((∃ e, a = .error e) ∧ (w' = w ∨ call.possible w = true ∧ w' = w.store call)) := by
  cases c <;> simp only [exec, Option.some.injEq, Prod.mk.injEq, reduceCtorEq] at h
  case quiet =>
    split_ifs at h with hpossible
    · cases h
      exact .inl ⟨rfl, hpossible, rfl⟩
    · cases h
      exact .inr ⟨⟨_, rfl⟩, .inl rfl⟩
  case fault message done =>
    obtain ⟨rfl, rfl⟩ := h
    refine .inr ⟨⟨_, rfl⟩, ?_⟩
    split_ifs with hdone
    · exact .inr ⟨(Bool.and_eq_true_iff.mp hdone).1, rfl⟩
    · exact .inl rfl

/-- The thread that writes frames. -/
def relay (w : World) : Choice → Option World
  | .take => w.sink.take.map fun sink => { w with sink := sink }
  | .write result => (w.sink.write result).map fun sink => { w with sink := sink }
  | _ => none

/-- A helper that is killed does nothing more, and a run may stop anywhere. -/
def system : System World Op Ans Choice where
  exec := exec
  env := relay
  crash _ _ := none

/-! ## The main thread -/

/-- How the main thread fails. -/
inductive HelperError where
  | failed (message : String)
  | protocol (error : ProtocolError)
  | load (error : LoadError)
  | panicked
  /-- The rounds are used up: the thread is still running. -/
  | bound
  deriving DecidableEq, Repr

/-- Programs of the main thread. -/
abbrev Main (σ α : Type) := Act σ HelperError Op Ans α

namespace Main

variable {σ : Type}

/-- A call that succeeds, or fails with the message that the context gives it. -/
def succeed (context : String → String) (call : Main σ (Except String Unit)) : Main σ Unit := do
  let result ← call
  Act.orElseFail (fun message => .failed (context message)) result

def startThread (thread : Thread) (context : String → String) : Main σ Unit :=
  succeed context (Act.call (Op.startThread thread))

def store (call : StoreCall) : Main σ Unit := succeed id (Act.call (Op.store call))

def spawn (command : Command) : Main σ Unit :=
  succeed (fun _ => "spawn fixed executable") (Act.call (Op.spawn command))

def tryWait (context : String) : Main σ (Option (Option Int32)) := do
  let status ← Act.call Op.tryWait
  Act.orElseFail (fun _ => .failed context) status

def effectiveUid : Main σ UInt32 := do
  let status ← Act.call Op.procStatus
  Act.orElseFail .failed (Helper.effectiveUid status)

def unixMs : Main σ UInt64 := do
  let reading ← Act.call Op.unixMs
  Act.orElseFail .failed (Helper.unixMs reading)

/-- The envelope of an event. -/
def envelopeOf : Option InputEvent → Except HelperError Envelope
  | some (.frame envelope) => .ok envelope
  | some (.error error) => .error (.protocol error)
  | some .closed | none => .error (.failed "remote protocol input closed")

def receiveInput : Main σ Envelope := do
  let event ← Act.call Op.receiveInput
  Act.orElseFail id (envelopeOf event)

/-- Never waits for the relay. -/
def tryFrame (frame : Frame) : Main σ Bool := Act.call (Op.trySend ⟨frame, false⟩)

/-- The receipt and then the exit, whose fate is waited for. -/
def tryFinal (receipt exit : Frame) : Main σ Bool := do
  let sent ← tryFrame receipt
  if sent then
    let sent ← Act.call (Op.trySend ⟨exit, true⟩)
    if sent then Act.call Op.awaitAcknowledgement else pure false
  else pure false

/-- The first frame is a greeting. -/
def helloOf : Frame → Except HelperError HelloFrame
  | .hello hello => .ok hello
  | _ => .error (.failed "first frame is not Hello")

/-- How both kinds of sessions begin. -/
def greet (features : UInt64) : Main σ UInt32 := do
  let envelope ← receiveInput
  let hello ← Act.orElseFail id (helloOf envelope.frame)
  Act.require (hello.effectiveUid = 0) (.failed "controller Hello must not claim an EUID")
  let uid ← effectiveUid
  Act.require (uid ≠ 0) (.failed "remote helper refuses UID 0")
  let sent ← tryFrame (.hello ⟨UInt32.ofNat maxFramePayload, features, uid⟩)
  Act.require (sent = true) (.failed "remote output relay is unavailable")
  pure uid

end Main

open Main

/-! ## A job -/

def heartbeatInterval : Nat := 250 * 10 ^ 6
def cancelWait : Nat := 2 * 10 ^ 9

/-- Why a job is stopped. -/
inductive Termination where
  | cancelled
  | deadline
  | outputLimit
  | outputRead
  | protocolViolation
  deriving DecidableEq, Repr

/-- The local variables of the loop.  What was hashed of each stream is kept as it is. -/
structure JobVars where
  journal : JobRecord
  started : Nat
  nextHeartbeat : Nat
  heartbeatOrdinal : UInt64 := 0
  stdoutOffset : UInt64 := 0
  stderrOffset : UInt64 := 0
  stdoutHashed : List UInt8 := []
  stderrHashed : List UInt8 := []
  stdoutClosed : Bool := false
  stderrClosed : Bool := false
  status : Option (Option Int32) := none
  termination : Option Termination := none
  killStarted : Option Nat := none
  relayAvailable : Bool := true

/-- The variables at the start of the loop. -/
def JobVars.initial (journal : JobRecord) (started : Nat) : JobVars where
  journal := journal
  started := started
  nextHeartbeat := started

/-- Steps of a job. -/
abbrev Job := Main JobVars Unit

/-- The relay is given up. -/
def loseRelay : Job := Act.assign fun v => { v with relayAvailable := false }

/-- The first reason to end the job stays. -/
def terminate (termination : Termination) : Job :=
  Act.assign fun v => { v with termination := v.termination.or (some termination) }

/-- The deadlines of the relay and of the job. -/
def checkDeadlines (start : StartFrame) : Job := do
  let now ← Main.unixMs
  -- the relay is given up, the job is not
  Act.onlyIf (start.relayDeadlineUnixMs < now) loseRelay
  Act.onlyIf (start.remoteDeadlineUnixMs ≤ now) (terminate .deadline)

/-- What a frame that arrives while the job is running means for it. -/
def terminationOf (start : StartFrame) : Frame → Termination
  | .cancel cancel => if cancel.jobId = start.jobId then .cancelled else .protocolViolation
  | _ => .protocolViolation

/-- Take all events that have arrived from the controller. -/
def drainInput (start : StartFrame) : Nat → Job
  | 0 => Act.fail .bound
  | rounds + 1 => do
    let received ← Act.call Op.tryReceiveInput
    match received with
    | .event (.frame envelope) => do
      terminate (terminationOf start envelope.frame)
      drainInput start rounds
    | .event (.error _) => do
      loseRelay
      drainInput start rounds
    | .event .closed | .disconnected => loseRelay
    | .empty => pure ()

/-- The child is killed once. -/
def killChild : Job := do
  let v ← Act.vars
  Act.onlyIf (v.termination.isSome ∧ v.killStarted = none ∧ v.status = none) do
    let killed ← Act.call Op.kill
    if killed then
      let now ← Act.call Op.instantNow
      Act.assign fun v => { v with killStarted := some now }
    else
      let status ← tryWait "inspect child after kill failure"
      Act.assign fun v => { v with status := status }

/-- Give up on a child that was killed and does not end. -/
def giveUp : Job := do
  let v ← Act.vars
  let now ← Main.unixMs
  let journal ← Act.orElseFail .failed (v.journal.markUnknown now)
  Act.assign fun v => { v with journal := journal }
  store (.updateJournal journal)
  Act.fail (.failed "child termination could not be confirmed within the bounded wait")

/-- The wait for a killed child has an end. -/
def boundWait : Job := do
  let v ← Act.vars
  match v.killStarted with
  | some killedAt => do
    let now ← Act.call Op.instantNow
    Act.onlyIf (killedAt + cancelWait < now ∧ v.status = none) giveUp
  | none => pure ()

/-- Deliver a frame while the relay is available. -/
def relayFrame (frame : Frame) : Job := do
  let v ← Act.vars
  Act.onlyIf (v.relayAvailable = true) do
    let sent ← tryFrame frame
    Act.onlyIf (sent = false) loseRelay

/-- What was read of a stream. -/
def JobVars.offset (v : JobVars) : StreamKind → UInt64
  | .stdout => v.stdoutOffset
  | .stderr => v.stderrOffset

/-- The chunk goes into the digest. -/
def JobVars.hash (v : JobVars) (data : List UInt8) : StreamKind → JobVars
  | .stdout => { v with stdoutHashed := v.stdoutHashed ++ data }
  | .stderr => { v with stderrHashed := v.stderrHashed ++ data }

/-- The chunk is counted. -/
def JobVars.advance (v : JobVars) (length : UInt64) : StreamKind → JobVars
  | .stdout => { v with stdoutOffset := saturatingAdd v.stdoutOffset length }
  | .stderr => { v with stderrOffset := saturatingAdd v.stderrOffset length }

/-- A frame for a chunk. -/
def outputFrame (output : OutputFrame) : StreamKind → Frame
  | .stdout => .stdout output
  | .stderr => .stderr output

/-- The output of the job with a chunk more. -/
def JobVars.projected (v : JobVars) (length : UInt64) : UInt64 :=
  saturatingAdd (saturatingAdd v.stdoutOffset v.stderrOffset) length

/-- A chunk, unless it is too much. -/
def takeChunk (start : StartFrame) (kind : StreamKind) (data : List UInt8) : Job := do
  let v ← Act.vars
  -- a chunk beyond the limit is dropped, and a shorter one may still come after it
  if start.maxOutputBytes < v.projected (UInt64.ofNat data.length) then terminate .outputLimit
  else
    Act.assign (·.hash data kind)
    relayFrame (outputFrame ⟨start.jobId, v.offset kind, data⟩ kind)
    Act.assign (·.advance (UInt64.ofNat data.length) kind)

/-- What comes from the streams. -/
def takeChildEvent (start : StartFrame) : ChildEvent → Job
  | .chunk kind data => takeChunk start kind data
  | .closed .stdout => Act.assign fun v => { v with stdoutClosed := true }
  | .closed .stderr => Act.assign fun v => { v with stderrClosed := true }
  | .readFailed _ => terminate .outputRead

/-- Take all events that have arrived from the streams of the child. -/
def drainChild (start : StartFrame) : Nat → Job
  | 0 => Act.fail .bound
  | rounds + 1 => do
    let received ← Act.call Op.tryReceiveChild
    match received with
    | some event => do
      takeChildEvent start event
      drainChild start rounds
    | none => pure ()

/-- Has the child ended? -/
def pollStatus : Job := do
  let v ← Act.vars
  Act.onlyIf (v.status = none) do
    let status ← tryWait "poll child status"
    Act.assign fun v => { v with status := status }

/-- Whole milliseconds between two instants. -/
def elapsedMs (started now : Nat) : UInt64 :=
  UInt64.ofNat (min ((now - started) / 10 ^ 6) (2 ^ 64 - 1))

/-- A heartbeat: journal first, then the frame. -/
def beat (start : StartFrame) : Job := do
  Act.assign fun v => { v with heartbeatOrdinal := saturatingAdd v.heartbeatOrdinal 1 }
  let v ← Act.vars
  let elapsed ← Act.call Op.instantNow
  let heartbeat : HeartbeatFrame :=
    ⟨start.jobId, v.heartbeatOrdinal, elapsedMs v.started elapsed, v.stdoutOffset, v.stderrOffset⟩
  let now ← Main.unixMs
  let journal ← Act.orElseFail .failed (v.journal.observeHeartbeat heartbeat now)
  Act.assign fun v => { v with journal := journal }
  store (.updateJournal journal)
  relayFrame (.heartbeat heartbeat)
  let now ← Act.call Op.instantNow
  Act.assign fun v => { v with nextHeartbeat := now + heartbeatInterval }

/-- A heartbeat, if it is time. -/
def heartbeat (start : StartFrame) : Job := do
  let v ← Act.vars
  let now ← Act.call Op.instantNow
  Act.onlyIf (v.nextHeartbeat ≤ now) (beat start)

/-- One round of the loop. -/
def jobRound (start : StartFrame) (rounds : Nat) : Job := do
  checkDeadlines start
  drainInput start rounds
  killChild
  boundWait
  drainChild start rounds
  pollStatus
  heartbeat start

/-- The child has ended and all of its output was taken. -/
def JobVars.done (v : JobVars) : Prop :=
  v.status ≠ none ∧ v.stdoutClosed = true ∧ v.stderrClosed = true

instance (v : JobVars) : Decidable v.done := inferInstanceAs (Decidable (_ ∧ _ ∧ _))

/-- The loop, and the loops in it, go on for a number of rounds. -/
def jobLoop (start : StartFrame) (rounds : Nat) : Nat → Job
  | 0 => Act.fail .bound
  | left + 1 => do
    jobRound start rounds
    let v ← Act.vars
    Act.onlyIf (¬v.done) (jobLoop start rounds left)

/-- How the job ended. -/
def JobVars.outcome (v : JobVars) : ReceiptOutcome :=
  match v.termination with
  | some .cancelled => .cancelled
  | some .deadline => .deadlineExceeded
  | some .outputLimit | some .outputRead | some .protocolViolation => .exited 125
  | none => .exited (v.status.join.getD 125)

/-- The last stage of a job. -/
def stageOf : ReceiptOutcome → JobStage
  | .exited code => if code = 0 then .completed else .failed
  | .cancelled => .cancelled
  | .deadlineExceeded => .failed

/-- What the receipt says. -/
def JobVars.receiptBody (v : JobVars) (start : StartFrame) (prepared : PreparedJob)
    (completed : UInt64) : ReceiptBody where
  identity := prepared.identity
  runAsUid := start.runAsUid
  deadlines := prepared.deadlines
  maxOutputBytes := start.maxOutputBytes
  stdoutDigest := Sha256.digest v.stdoutHashed
  stderrDigest := Sha256.digest v.stderrHashed
  outcome := v.outcome
  completedUnixMs := completed

/-- What comes after the loop. -/
def finishJob (start : StartFrame) (prepared : PreparedJob) : Job := do
  let v ← Act.vars
  let completed ← Main.unixMs
  let receipt ← Act.orElseFail .failed
    (AuthenticatedReceipt.issue (v.receiptBody start prepared completed) start.receiptToken)
  store (.persistReceipt receipt)
  store (.updateJournal
    { v.journal with stage := stageOf v.outcome, updatedUnixMs := completed })
  Act.onlyIf (v.relayAvailable = true) do
    let _ ← tryFinal (.receipt ⟨start.jobId, receipt.encode⟩)
      (.exit ⟨start.jobId, v.outcome.toExit, completed⟩)

/-- The journal of the job, up to the start of its child. -/
def submitJob {σ : Type} (start : StartFrame) (prepared : PreparedJob) : Main σ JobRecord := do
  let now ← Main.unixMs
  let submitted ← Act.orElseFail .failed (JobRecord.submitted prepared.identity prepared.deadlines
    start.runAsUid start.maxOutputBytes now)
  store (.createJournal submitted)
  let now ← Main.unixMs
  let running ← Act.orElseFail .failed (submitted.markRunning now)
  store (.updateJournal running)
  return running

/-- The start of the child, up to the loop. -/
def startJob {σ : Type} (start : StartFrame) (prepared : PreparedJob) : Main σ JobVars := do
  let journal ← submitJob start prepared
  spawn (makeCommand prepared.executable start prepared.cwd)
  startThread (.stream .stdout) id
  startThread (.stream .stderr) id
  let started ← Act.call Op.instantNow
  return JobVars.initial journal started

/-- **A job**, from its journal to its receipt. -/
def runJob {σ : Type} (rounds : Nat) (start : StartFrame) (prepared : PreparedJob) :
    Main σ Unit := do
  let v ← startJob start prepared
  let (result, _) ← Act.within v do
    jobLoop start rounds rounds
    finishJob start prepared
  Act.orElseFail id result

/-! ## Sessions -/

/-- The message of an error; cutting a character in two is a panic. -/
def boundedMessage (error : String) : Except HelperError String :=
  if Text.byteLen error ≤ maxErrorMessageBytes then .ok error
  else match Text.truncate error maxErrorMessageBytes with
    | some message => .ok message
    | none => .error .panicked

/-- The second frame is a request for a job. -/
def startOf : Frame → Except HelperError StartFrame
  | .start start => .ok start
  | _ => .error (.failed "second frame is not Start")

/-- Tell the controller why its request is denied. -/
def denyStart {σ : Type} (start : StartFrame) (error : String) : Main σ Unit := do
  let message ← Act.orElseFail id (boundedMessage error)
  let _ ← tryFrame (.error ⟨some start.jobId, "start_denied", message, false⟩)
  Act.fail (.failed error)

/-- Serve one job; `parse` is the parser of policy documents. -/
def serveStdio (parse : List UInt8 → Except String PolicyDocument) (rounds : Nat) :
    Main Unit Unit := do
  startThread .input fun _ => "spawn bounded protocol reader"
  startThread .output fun _ => "spawn bounded output relay"
  let _ ← greet supportedFeatureBits
  let envelope ← receiveInput
  let start ← Act.orElseFail id (startOf envelope.frame)
  let host ← Act.call Op.host
  match prepare parse host start with
  | .ok prepared => runJob rounds start prepared
  | .error error => denyStart start error

/-- The second frame is a query. -/
def queryOf : Frame → Except HelperError QueryReceiptFrame
  | .queryReceipt query => .ok query
  | _ => .error (.failed "second frame is not QueryReceipt")

/-- The answer that there is no receipt. -/
def receiptError (jobId : JobId) (code : String) (retryable : Bool) : Frame :=
  .error ⟨some jobId, code, code, retryable⟩

/-- The code is the same at all stages. -/
def missingReceiptCode (_journalStage : JobStage) : String := "job_unknown"

/-- Answer that there is no receipt. -/
def refuse {σ : Type} (jobId : JobId) (code : String) (retryable : Bool) : Main σ Unit := do
  let _ ← tryFrame (receiptError jobId code retryable)

/-- Answer with a receipt that was found. -/
def answerQuery {σ : Type} (record : JobRecord) (query : QueryReceiptFrame) (now : UInt64)
    (receiptBytes : List UInt8) : Main σ Unit :=
  match verifyQueryReceipt record receiptBytes query now with
  | .ok body => do
    let delivered ← tryFinal (.receipt ⟨query.jobId, receiptBytes⟩)
      (.exit ⟨query.jobId, body.outcome.toExit, body.completedUnixMs⟩)
    Act.require (delivered = true)
      (.failed "receipt relay is unavailable; authenticated receipt remains persisted")
  | .error _ => refuse query.jobId "receipt_denied" false

/-- Look for the receipt of a job that is journaled. -/
def queryJournaled {σ : Type} (record : JobRecord) (query : QueryReceiptFrame) :
    Main σ Unit := do
  let now ← Main.unixMs
  if record.deadlines.resultRetentionUnixMs < now then
    refuse query.jobId "receipt_expired" false
  else
    let found ← Act.call (Op.loadReceipt query.jobId)
    match found with
    | .ok receiptBytes => answerQuery record query now receiptBytes
    | .error .notFound => refuse query.jobId (missingReceiptCode record.stage) true
    | .error error => Act.fail (.load error)

/-- Answer one query for a receipt. -/
def receiptStdio : Main Unit Unit := do
  startThread .input fun _ => "spawn receipt protocol reader"
  startThread .output fun _ => "spawn bounded output relay"
  let uid ← greet featureReceiptQuery
  let envelope ← receiveInput
  let query ← Act.orElseFail id (queryOf envelope.frame)
  let host ← Act.call Op.host
  let _ ← Act.orElseFail .failed (fixedJobStore host uid)
  let found ← Act.call (Op.loadJournal query.jobId)
  match found with
  | .ok record => queryJournaled record query
  | .error .notFound => refuse query.jobId "job_unknown" false
  | .error error => Act.fail (.load error)

end Serctl.Remote.Helper
