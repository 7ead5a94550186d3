import Kide.Lib.Run
import Kide.Protocol
import Mathlib.Logic.Function.Basic

/-!
# The worker supervisor

On-demand lifecycle of disposable workers (`supervisor.rs`). A supervisor owns at most one child
process; every process Core ever starts is an incarnation with a number of its own.

* `WorkerEnvironment` is everything the code does not decide: the clock, whether a process exited,
  whether it can be spawned, what its pipes do and what it answers. Each question is asked at the next
  tick of `Workers.clock`, so an environment is any behaviour of any worker.
* `Workers.log` is a ghost, newest event first: what was started, written and accepted, and in which
  state a request found its process.
-/

namespace Kide
open Runs

/-- Command and lifetime limits for one disposable backend implementation. -/
structure WorkerLaunch where
  program : String
  args : List String
  workingDirectory : Option String
  environment : List (String × String)
  idleTimeout : Nat
  requestTimeout : Nat
deriving DecidableEq, Repr

structure RunningWorker where
  incarnation : Nat
  requestIds : List String
  lastActivity : Nat
deriving DecidableEq, Repr

structure WorkerSupervisor where
  launch : WorkerLaunch
  running : Option RunningWorker
  starts : Nat
deriving DecidableEq, Repr

def WorkerSupervisor.new (launch : WorkerLaunch) : WorkerSupervisor := ⟨launch, none, 0⟩

/-- Errors carry what the source puts into them; the causes below Core (I/O, framing, decoding) do not. -/
inductive WorkerSupervisorError where
  | start (program : String)
  | frame
  | invalidResponse
  | timedOut (timeout : Nat)
  | exited
  | requestIdMismatch (expected received : String)
  | duplicateRequestId (requestId : String)
  | incompatibleProtocol (found supported : Nat)
  | workerReported (error : WorkerError)
  | invalidHandshake (received : WorkerMessage)
deriving DecidableEq

/-! ## The environment -/

inductive WriteOutcome where
  | written | notEncodable | failed
deriving DecidableEq, Repr

/-- What `recv_timeout` and the decoder make of the worker's stdout. -/
inductive Received where
  | envelope (envelope : WorkerEnvelope)
  | undecodable | frameError | disconnected | timeout
deriving DecidableEq

structure WorkerEnvironment where
  now : Nat → Nat
  exited : Nat → Bool
  spawns : Nat → Bool
  writes : Nat → WriteOutcome
  receives : Nat → WorkerEnvelope → Received

/-! ## The state -/

inductive WorkerEvent where
  /-- A request found its process idle past its limit (`expired`) or gone (`exited`). -/
  | requested (message : WorkerMessage) (expired exited : Bool)
  | started (incarnation : Nat)
  | wrote (incarnation : Nat) (envelope : WorkerEnvelope)
  /-- An accepted handshake. -/
  | handshook (incarnation : Nat) (capabilities : WorkerCapabilities)
deriving DecidableEq

/-- Names a supervisor. -/
abbrev Handle := Nat

structure Workers where
  supervisors : Handle → WorkerSupervisor
  created : Nat
  spawned : Nat
  clock : Nat
  log : List WorkerEvent

abbrev WorkerRun := Run Workers WorkerSupervisorError

namespace Workers

def setRunning (handle : Handle) (running : Option RunningWorker) (workers : Workers) : Workers :=
  { workers with
    supervisors := Function.update workers.supervisors handle { workers.supervisors handle with running } }

variable (env : WorkerEnvironment)

def tick {ε : Type} : Run Workers ε Nat := fun workers =>
  (.ok workers.clock, { workers with clock := workers.clock + 1 })

def record {ε : Type} (event : WorkerEvent) : Run Workers ε Unit :=
  update fun workers => { workers with log := event :: workers.log }

def newSupervisor {ε : Type} (launch : WorkerLaunch) : Run Workers ε Handle := fun workers =>
  (.ok workers.created,
    { workers with
      supervisors := Function.update workers.supervisors workers.created (.new launch)
      created := workers.created + 1 })

def running {ε : Type} (handle : Handle) : Run Workers ε (Option RunningWorker) := fun workers =>
  (.ok (workers.supervisors handle).running, workers)

/-- Stops the child without modifying the durable index. -/
def stop {ε : Type} (handle : Handle) : Run Workers ε Unit := update (setRunning handle none)

/-- Reaps a child that has been idle long enough; returns whether one was stopped. -/
def reapIdle {ε : Type} (handle : Handle) : Run Workers ε Bool := do
  let tick ← tick
  let workers ← read
  let expired := (workers.supervisors handle).running.any fun running =>
    (workers.supervisors handle).launch.idleTimeout ≤ env.now tick - running.lastActivity
  if expired then
    stop handle
    pure true
  else pure false

/-- Drops a child that has exited; returns whether one was dropped. -/
def discardExited {ε : Type} (handle : Handle) : Run Workers ε Bool := do
  let tick ← tick
  let running ← running handle
  if running.isSome && env.exited tick then
    stop handle
    pure true
  else pure false

def isRunning {ε : Type} (handle : Handle) : Run Workers ε Bool := do
  let _ ← discardExited env handle
  let running ← running handle
  pure running.isSome

def spawn (handle : Handle) : WorkerRun Unit := do
  let tick ← tick
  if env.spawns tick then
    update fun workers =>
      { workers with
        supervisors := Function.update workers.supervisors handle
          ⟨(workers.supervisors handle).launch, some ⟨workers.spawned, [], env.now tick⟩,
            (workers.supervisors handle).starts + 1⟩
        spawned := workers.spawned + 1
        log := .started workers.spawned :: workers.log }
  else do
    let workers ← read
    fail (.start (workers.supervisors handle).launch.program)

/-- Returns whether an exited process had to be replaced. -/
def ensureRunning (handle : Handle) : WorkerRun Bool := do
  let exited ← discardExited env handle
  let running ← running handle
  if running.isSome then pure exited
  else do
    spawn env handle
    pure exited

/-- `request_ids.insert` on the process that will get the request; returns its incarnation. -/
def registerRequest (handle : Handle) (requestId : String) : WorkerRun Nat := do
  let running ← running handle
  match running with
  | none => fail .exited
  | some running =>
    if requestId ∈ running.requestIds then fail (.duplicateRequestId requestId)
    else do
      update (setRunning handle (some { running with requestIds := requestId :: running.requestIds }))
      pure running.incarnation

/-- `running.last_activity = Instant::now()` -/
def touch {ε : Type} (handle : Handle) : Run Workers ε Unit := do
  let tick ← tick
  update fun workers => workers.setRunning handle
    ((workers.supervisors handle).running.map fun running => { running with lastActivity := env.now tick })

/-- Encodes and writes one frame. -/
def writeFrame (handle : Handle) (incarnation : Nat) (envelope : WorkerEnvelope) : WorkerRun Unit := do
  let tick ← tick
  match env.writes tick with
  | .notEncodable => fail .invalidResponse
  | .failed => do
    record (.wrote incarnation envelope)
    fail .frame
  | .written => do
    record (.wrote incarnation envelope)
    touch env handle

/-- What becomes of the answer to `requestId`. -/
def acceptEnvelope (handle : Handle) (requestId : String) (envelope : WorkerEnvelope) :
    WorkerRun WorkerEnvelope :=
  if envelope.protocolVersion ≠ WORKER_PROTOCOL_VERSION then do
    stop handle
    fail (.incompatibleProtocol envelope.protocolVersion WORKER_PROTOCOL_VERSION)
  else if envelope.requestId ≠ requestId then do
    stop handle
    fail (.requestIdMismatch requestId envelope.requestId)
  else
    match envelope.message with
    | .error error => fail (.workerReported error)
    | _ => do
      touch env handle
      pure envelope

def receive (handle : Handle) (request : WorkerEnvelope) (timeout : Nat) : WorkerRun WorkerEnvelope := do
  let tick ← tick
  match env.receives tick request with
  | .frameError => do
    stop handle
    fail .frame
  | .disconnected => do
    stop handle
    fail .exited
  | .timeout => do
    stop handle
    fail (.timedOut timeout)
  | .undecodable => fail .invalidResponse
  | .envelope envelope => acceptEnvelope env handle request.requestId envelope

def validateProtocolVersion (envelope : WorkerEnvelope) : Except WorkerSupervisorError Unit :=
  if envelope.protocolVersion = WORKER_PROTOCOL_VERSION then .ok ()
  else .error (.incompatibleProtocol envelope.protocolVersion WORKER_PROTOCOL_VERSION)

/-- Sends exactly one protocol envelope. -/
def requestWithTimeout (handle : Handle) (request : WorkerEnvelope) (timeout : Nat) :
    WorkerRun WorkerEnvelope := do
  lift (validateProtocolVersion request)
  let expired ← reapIdle env handle
  let exited ← ensureRunning env handle
  record (.requested request.message expired exited)
  let incarnation ← registerRequest handle request.requestId
  writeFrame env handle incarnation request
  let workers ← read
  receive env handle request (min timeout (workers.supervisors handle).launch.requestTimeout)

def request (handle : Handle) (request : WorkerEnvelope) : WorkerRun WorkerEnvelope := do
  let workers ← read
  requestWithTimeout env handle request (workers.supervisors handle).launch.requestTimeout

/-- The version of the core that speaks. -/
def CORE_VERSION : String := "0.1.0"

/-- A handshake answer counts when its protocol version is supported. -/
def acceptHandshake (handle : Handle) : WorkerMessage → WorkerRun WorkerCapabilities
  | .handshakeResponse capabilities =>
    if capabilities.protocolVersion ≠ WORKER_PROTOCOL_VERSION then do
      stop handle
      fail (.incompatibleProtocol capabilities.protocolVersion WORKER_PROTOCOL_VERSION)
    else do
      update fun workers =>
        { workers with
          log := ((workers.supervisors handle).running.toList.map fun running =>
            .handshook running.incarnation capabilities) ++ workers.log }
      pure capabilities
  | received => fail (.invalidHandshake received)

/-- Starts the worker if needed and validates its static capabilities. -/
def handshake (handle : Handle) (requestId : String) : WorkerRun WorkerCapabilities := do
  let response ← request env handle (.new requestId (.handshakeRequest CORE_VERSION))
  acceptHandshake handle response.message

end Workers

end Kide
