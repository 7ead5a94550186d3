import Kide.Lib.Trace
import Kide.Workers.Supervisor

/-!
# Supervisor and workers, step by step

The supervisor of `supervisor.rs` together with the processes it starts, as a step relation: every
interleaving of the caller of `request_with_timeout`, of the workers and of their reader threads is a run.

* A process has a stdin, of which only the request ids count, a stdout, and its own reader thread and
  channel. A worker may write anything at any time, but names a request id only after it received it.
  What a reader thread still sends into the channel of a stopped process is never taken out again.
* `CallState` is where the caller stands. Steps of the workers and of the reader threads are possible in
  each of its states.
* `trace` is a ghost; an emission carries its stamp through stdout and channel.
-/

namespace Kide
open Traces

/-- What a worker writes to its stdout. -/
inductive WorkerOutput where
  | envelope (envelope : WorkerEnvelope)
  /-- A protobuf envelope that is no canonical one. -/
  | undecodable
  /-- Bytes that are no frame. -/
  | garbage
deriving DecidableEq

structure Emission where
  stamp : Nat
  output : WorkerOutput
deriving DecidableEq

structure WorkerProcess where
  received : List String
  stdout : List Emission
  channel : List Emission
  /-- The reader thread has not returned. -/
  reading : Bool
  exited : Bool
deriving DecidableEq

def WorkerProcess.spawned : WorkerProcess := ⟨[], [], [], true, false⟩

/-- Where a call of `request_with_timeout` stands: before `reap_idle`, `discard_exited`, the spawn,
`request_ids.insert`, `write_frame` and `recv_timeout`. -/
inductive CallState where
  | idle
  | reaping (request : WorkerEnvelope)
  | discarding (request : WorkerEnvelope)
  | spawning (request : WorkerEnvelope)
  | registering (request : WorkerEnvelope)
  | writing (request : WorkerEnvelope) (incarnation : Nat)
  | waiting (request : WorkerEnvelope) (incarnation written : Nat)
deriving DecidableEq

/-- An `Ok` of `request_with_timeout`: what it returned, to which request, and where both come from. -/
structure ReturnedAnswer where
  request : WorkerEnvelope
  incarnation : Nat
  written : Nat
  emitted : Nat
  envelope : WorkerEnvelope
deriving DecidableEq

inductive ExchangeEvent where
  | started (incarnation : Nat)
  | wrote (incarnation : Nat) (request : WorkerEnvelope)
  | emitted (incarnation : Nat) (output : WorkerOutput)
  | returned (answer : ReturnedAnswer)
  | failed (request : WorkerEnvelope) (error : WorkerSupervisorError)
deriving DecidableEq

structure Exchange where
  supervisor : WorkerSupervisor
  processes : Nat → WorkerProcess
  /-- Incarnations from here on have not been used. -/
  spawned : Nat
  call : CallState
  trace : List ExchangeEvent

namespace Exchange

def new (launch : WorkerLaunch) : Exchange := ⟨.new launch, fun _ => .spawned, 0, .idle, []⟩

variable (x : Exchange)

def setRunning (running : Option RunningWorker) : Exchange := { x with supervisor := { x.supervisor with running } }

def setProcess (incarnation : Nat) (process : WorkerProcess) : Exchange :=
  { x with processes := Function.update x.processes incarnation process }

def setCall (call : CallState) : Exchange := { x with call }

def record (event : ExchangeEvent) : Exchange := { x with trace := event :: x.trace }

/-- `Err` of the call in progress. -/
def returnError (request : WorkerEnvelope) (error : WorkerSupervisorError) : Exchange :=
  (x.record (.failed request error)).setCall .idle

/-- `WorkerSupervisor::stop` -/
def stop : Exchange :=
  match x.supervisor.running with
  | none => x
  | some running =>
    (x.setProcess running.incarnation { x.processes running.incarnation with exited := true }).setRunning none

def emit (incarnation : Nat) (output : WorkerOutput) : Exchange :=
  (x.setProcess incarnation
    { x.processes incarnation with
      stdout := (x.processes incarnation).stdout ++ [⟨x.trace.length, output⟩] }).record (.emitted incarnation output)

/-- The reader thread sends on what it read and returns after the first error. -/
def readFrame (incarnation : Nat) (emission : Emission) (rest : List Emission) : Exchange :=
  x.setProcess incarnation
    { x.processes incarnation with
      stdout := rest
      channel := (x.processes incarnation).channel ++ [emission]
      reading := emission.output ≠ .garbage }

def spawn (incarnation now : Nat) : Exchange :=
  { x with
    supervisor := ⟨x.supervisor.launch, some ⟨incarnation, [], now⟩, x.supervisor.starts + 1⟩
    processes := Function.update x.processes incarnation .spawned
    spawned := incarnation + 1
    trace := .started incarnation :: x.trace }

def deliver (incarnation : Nat) (request : WorkerEnvelope) : Exchange :=
  (x.setProcess incarnation
    { x.processes incarnation with
      received := request.requestId :: (x.processes incarnation).received }).record (.wrote incarnation request)

def touch (now : Nat) : Exchange :=
  x.setRunning (x.supervisor.running.map fun running => { running with lastActivity := now })

end Exchange

/-- What becomes of a message taken from the channel; an error says whether it stops the process. -/
def judgeOutput (requestId : String) : WorkerOutput → Except (WorkerSupervisorError × Bool) WorkerEnvelope
  | .garbage => .error (.frame, true)
  | .undecodable => .error (.invalidResponse, false)
  | .envelope envelope =>
    if envelope.protocolVersion ≠ WORKER_PROTOCOL_VERSION then
      .error (.incompatibleProtocol envelope.protocolVersion WORKER_PROTOCOL_VERSION, true)
    else if envelope.requestId ≠ requestId then
      .error (.requestIdMismatch requestId envelope.requestId, true)
    else
      match envelope.message with
      | .error error => .error (.workerReported error, false)
      | _ => .ok envelope

namespace Exchange

variable (x : Exchange)

/-- `recv_timeout` took `emission`; `rest` stays in the channel. -/
def receive (request : WorkerEnvelope) (incarnation written now : Nat) (emission : Emission) (rest : List Emission) :
    Exchange :=
  let taken := x.setProcess incarnation { x.processes incarnation with channel := rest }
  match judgeOutput request.requestId emission.output with
  | .error (error, true) => taken.stop.returnError request error
  | .error (error, false) => taken.returnError request error
  | .ok envelope =>
    ((taken.touch now).record (.returned ⟨request, incarnation, written, emission.stamp, envelope⟩)).setCall .idle

/-- One step of the caller, of a worker or of a reader thread. -/
inductive Step (x : Exchange) : Exchange → Prop
  | emit (incarnation : Nat) (output : WorkerOutput) (halive : (x.processes incarnation).exited = false)
      (hreceived : ∀ envelope, output = .envelope envelope → envelope.requestId ∈ (x.processes incarnation).received) :
      Step x (x.emit incarnation output)
  | exit (incarnation : Nat) : Step x (x.setProcess incarnation { x.processes incarnation with exited := true })
  | readFrame (incarnation : Nat) (emission : Emission) (rest : List Emission)
      (hreading : (x.processes incarnation).reading = true)
      (hstdout : (x.processes incarnation).stdout = emission :: rest) : Step x (x.readFrame incarnation emission rest)
  | readEnd (incarnation : Nat) (hstdout : (x.processes incarnation).stdout = []) :
      Step x (x.setProcess incarnation { x.processes incarnation with reading := false })
  -- between two requests: the public `reap_idle`, `stop` and `is_running`
  | stop (hcall : x.call = .idle) : Step x x.stop
  | discard (running : RunningWorker) (hcall : x.call = .idle) (hrunning : x.supervisor.running = some running)
      (hexited : (x.processes running.incarnation).exited = true) : Step x (x.setRunning none)
  -- `request_with_timeout`
  | refuse (request : WorkerEnvelope) (hcall : x.call = .idle)
      (hversion : request.protocolVersion ≠ WORKER_PROTOCOL_VERSION) :
      Step x (x.returnError request (.incompatibleProtocol request.protocolVersion WORKER_PROTOCOL_VERSION))
  | enter (request : WorkerEnvelope) (hcall : x.call = .idle)
      (hversion : request.protocolVersion = WORKER_PROTOCOL_VERSION) : Step x (x.setCall (.reaping request))
  | reapExpired (request : WorkerEnvelope) (hcall : x.call = .reaping request) :
      Step x (x.stop.setCall (.discarding request))
  | reapFresh (request : WorkerEnvelope) (hcall : x.call = .reaping request) : Step x (x.setCall (.discarding request))
  | discardExited (request : WorkerEnvelope) (running : RunningWorker) (hcall : x.call = .discarding request)
      (hrunning : x.supervisor.running = some running) (hexited : (x.processes running.incarnation).exited = true) :
      Step x ((x.setRunning none).setCall (.spawning request))
  | discardNone (request : WorkerEnvelope) (hcall : x.call = .discarding request) :
      Step x (x.setCall (.spawning request))
  | alreadyRunning (request : WorkerEnvelope) (running : RunningWorker) (hcall : x.call = .spawning request)
      (hrunning : x.supervisor.running = some running) : Step x (x.setCall (.registering request))
  | spawn (request : WorkerEnvelope) (incarnation now : Nat) (hcall : x.call = .spawning request)
      (hrunning : x.supervisor.running = none) (hfresh : x.spawned ≤ incarnation) :
      Step x ((x.spawn incarnation now).setCall (.registering request))
  | spawnFails (request : WorkerEnvelope) (hcall : x.call = .spawning request) (hrunning : x.supervisor.running = none) :
      Step x (x.returnError request (.start x.supervisor.launch.program))
  | duplicate (request : WorkerEnvelope) (running : RunningWorker) (hcall : x.call = .registering request)
      (hrunning : x.supervisor.running = some running) (hused : request.requestId ∈ running.requestIds) :
      Step x (x.returnError request (.duplicateRequestId request.requestId))
  | register (request : WorkerEnvelope) (running : RunningWorker) (hcall : x.call = .registering request)
      (hrunning : x.supervisor.running = some running) (hfresh : request.requestId ∉ running.requestIds) :
      Step x ((x.setRunning (some { running with requestIds := request.requestId :: running.requestIds })).setCall
        (.writing request running.incarnation))
  | notEncodable (request : WorkerEnvelope) (incarnation : Nat) (hcall : x.call = .writing request incarnation) :
      Step x (x.returnError request .invalidResponse)
  -- a failing write may or may not have brought the request to the worker
  | writeFails (request : WorkerEnvelope) (incarnation : Nat) (hcall : x.call = .writing request incarnation) :
      Step x (x.returnError request .frame)
  | writeBreaks (request : WorkerEnvelope) (incarnation : Nat) (hcall : x.call = .writing request incarnation) :
      Step x ((x.deliver incarnation request).returnError request .frame)
  | write (request : WorkerEnvelope) (incarnation now : Nat) (hcall : x.call = .writing request incarnation) :
      Step x (((x.deliver incarnation request).touch now).setCall (.waiting request incarnation x.trace.length))
  | receive (request : WorkerEnvelope) (incarnation written now : Nat) (emission : Emission) (rest : List Emission)
      (hcall : x.call = .waiting request incarnation written)
      (hchannel : (x.processes incarnation).channel = emission :: rest) :
      Step x (x.receive request incarnation written now emission rest)
  | timeout (request : WorkerEnvelope) (incarnation written limit : Nat)
      (hcall : x.call = .waiting request incarnation written) (hchannel : (x.processes incarnation).channel = []) :
      Step x (x.stop.returnError request (.timedOut limit))
  | disconnected (request : WorkerEnvelope) (incarnation written : Nat)
      (hcall : x.call = .waiting request incarnation written) (hchannel : (x.processes incarnation).channel = [])
      (hreading : (x.processes incarnation).reading = false) : Step x (x.stop.returnError request .exited)

end Exchange

end Kide
