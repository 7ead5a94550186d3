import Kide.Workers.Supervisor

/-!
# Handshake before work

When a request that is not a handshake reaches a process that has answered one, and what the
supervisor does about it.

* `HandshakeBeforeWork`: every such write in the log comes after an accepted handshake of the same
  incarnation, with the capability the request needs;
* `Calm`: no such request found its process idle past the limit or gone, and whoever is sent the batch
  of the provenance path lists file analysis;
* the supervisor keeps the first while the second holds: a handshake leaves the handle `Serving`
  (`handshake_serving`), a request over a serving handle is justified and leaves it serving
  (`requestWithTimeout_serving`); `Qualified` packs the two for callers.
-/

namespace Kide
open Runs

def WorkerMessage.isHandshake : WorkerMessage → Bool
  | .handshakeRequest _ => true
  | _ => false

/-- The capability a request needs of the worker that gets it. -/
def WorkerMessage.SupportedBy (message : WorkerMessage) (capabilities : WorkerCapabilities) : Prop :=
  match message with
  | .analyzeBatchRequest _ => .fileAnalysisSnapshot ∈ capabilities.capabilities
  | .semanticQueryRequest request =>
    ∃ capability ∈ capabilities.semanticQueryCapabilities,
      capability.name = request.capabilityName ∧ capability.version = request.capabilityVersion
  | _ => True

instance (message : WorkerMessage) (capabilities : WorkerCapabilities) : Decidable (message.SupportedBy capabilities) :=
  match message with
  | .analyzeBatchRequest _ => inferInstanceAs (Decidable (_ ∈ capabilities.capabilities))
  | .semanticQueryRequest _ => inferInstanceAs (Decidable (∃ capability ∈ capabilities.semanticQueryCapabilities, _))
  | .handshakeRequest _ | .handshakeResponse _ | .projectManifestRequest _ | .projectManifestResponse _
  | .analysisBatchResponse _ | .artifactDiscoveryRequest _ | .artifactDiscoveryResponse _
  | .artifactMaterializationRequest _ | .artifactMaterializationResponse _ | .semanticQueryResponse _ | .error _
  | .other _ => .isTrue trivial

def WorkerMessage.isAnalyzeBatch : WorkerMessage → Bool
  | .analyzeBatchRequest _ => true
  | _ => false

/-- The batch request of the provenance path, whose handshake looks at no capability. -/
def WorkerEnvelope.Unchecked (envelope : WorkerEnvelope) : Prop :=
  envelope.message.isAnalyzeBatch = true ∧ envelope.requestId = "index-batch"

instance (envelope : WorkerEnvelope) : Decidable envelope.Unchecked :=
  inferInstanceAs (Decidable (_ ∧ _))

theorem WorkerEnvelope.Unchecked.supportedBy {envelope : WorkerEnvelope} {capabilities : WorkerCapabilities}
    (h : envelope.Unchecked) (hanalyzes : .fileAnalysisSnapshot ∈ capabilities.capabilities) :
    envelope.message.SupportedBy capabilities := by
  obtain ⟨protocolVersion, requestId, message⟩ := envelope
  cases message with
  | analyzeBatchRequest request => exact hanalyzes
  | _ => cases h.1

/-! ## The property of a log -/

/-- A compatible handshake of the incarnation. -/
def WorkerEvent.Admits (incarnation : Nat) (message : WorkerMessage) : WorkerEvent → Prop
  | .handshook answering capabilities =>
    answering = incarnation ∧ capabilities.protocolVersion = WORKER_PROTOCOL_VERSION ∧ message.SupportedBy capabilities
  | _ => False

/-- A write of work is justified by a compatible handshake of the same incarnation before it. -/
def WorkerEvent.Justified (earlier : List WorkerEvent) : WorkerEvent → Prop
  | .wrote incarnation envelope =>
    envelope.message.isHandshake = false → ∃ event ∈ earlier, event.Admits incarnation envelope.message
  | _ => True

inductive HandshakeBeforeWork : List WorkerEvent → Prop
  | nil : HandshakeBeforeWork []
  | cons {event : WorkerEvent} {earlier : List WorkerEvent} (justified : event.Justified earlier)
      (before : HandshakeBeforeWork earlier) : HandshakeBeforeWork (event :: earlier)

/-- A request that is no handshake found its process neither expired nor exited. -/
def WorkerEvent.FoundRunning : WorkerEvent → Prop
  | .requested message expired exited => message.isHandshake = false → expired = false ∧ exited = false
  | _ => True

/-- A handshake answer of the incarnation lists file analysis. -/
def WorkerEvent.Analyzes (incarnation : Nat) : WorkerEvent → Prop
  | .handshook answering capabilities => answering = incarnation → .fileAnalysisSnapshot ∈ capabilities.capabilities
  | _ => True

/-- Whoever is sent the unchecked batch request lists file analysis in all its handshake answers. -/
def WorkerEvent.SentToAnalyzer (log : List WorkerEvent) : WorkerEvent → Prop
  | .wrote incarnation envelope => envelope.Unchecked → ∀ event ∈ log, event.Analyzes incarnation
  | _ => True

structure Calm (log : List WorkerEvent) : Prop where
  noRestart : ∀ event ∈ log, event.FoundRunning
  batchWorkers : ∀ event ∈ log, event.SentToAnalyzer log

section
variable (incarnation : Nat) (message : WorkerMessage) (log : List WorkerEvent)

instance : DecidablePred (WorkerEvent.Admits incarnation message)
  | .handshook _ _ => inferInstanceAs (Decidable (_ ∧ _ ∧ _))
  | .requested _ _ _ | .started _ | .wrote _ _ => .isFalse id

instance : DecidablePred (WorkerEvent.Justified log)
  | .wrote _ _ => inferInstanceAs (Decidable (_ → ∃ event ∈ log, _))
  | .requested _ _ _ | .started _ | .handshook _ _ => .isTrue trivial

instance HandshakeBeforeWork.decidable : DecidablePred HandshakeBeforeWork
  | [] => .isTrue .nil
  | event :: earlier =>
    have := HandshakeBeforeWork.decidable earlier
    decidable_of_iff (event.Justified earlier ∧ HandshakeBeforeWork earlier)
      ⟨fun h => .cons h.1 h.2, fun h => by cases h; exact ⟨‹_›, ‹_›⟩⟩

instance : DecidablePred WorkerEvent.FoundRunning
  | .requested _ _ _ => inferInstanceAs (Decidable (_ → _ ∧ _))
  | .started _ | .wrote _ _ | .handshook _ _ => .isTrue trivial

instance : DecidablePred (WorkerEvent.Analyzes incarnation)
  | .handshook _ _ => inferInstanceAs (Decidable (_ → _))
  | .requested _ _ _ | .started _ | .wrote _ _ => .isTrue trivial

instance : DecidablePred (WorkerEvent.SentToAnalyzer log)
  | .wrote _ _ => inferInstanceAs (Decidable (_ → ∀ event ∈ log, _))
  | .requested _ _ _ | .started _ | .handshook _ _ => .isTrue trivial

instance : Decidable (Calm log) :=
  decidable_of_iff ((∀ event ∈ log, event.FoundRunning) ∧ ∀ event ∈ log, event.SentToAnalyzer log)
    ⟨fun h => ⟨h.1, h.2⟩, fun h => ⟨h.noRestart, h.batchWorkers⟩⟩

end

theorem WorkerEvent.SentToAnalyzer.of_append {new log : List WorkerEvent} {event : WorkerEvent}
    (h : event.SentToAnalyzer (new ++ log)) : event.SentToAnalyzer log := by
  cases event with
  | wrote incarnation envelope =>
    exact fun hunchecked event hevent => h hunchecked event (List.mem_append_right _ hevent)
  | _ => trivial

theorem Calm.of_append {new log : List WorkerEvent} (h : Calm (new ++ log)) : Calm log :=
  ⟨fun event hevent => h.noRestart event (List.mem_append_right _ hevent),
    fun event hevent => (h.batchWorkers event (List.mem_append_right _ hevent)).of_append⟩

theorem Calm.of_cons {event : WorkerEvent} {log : List WorkerEvent} (h : Calm (event :: log)) : Calm log :=
  Calm.of_append (show Calm ([event] ++ log) from h)

/-- Not a write of work. -/
def WorkerEvent.Quiet : WorkerEvent → Prop
  | .wrote _ envelope => envelope.message.isHandshake = true
  | _ => True

theorem WorkerEvent.Quiet.justified {event : WorkerEvent} (h : event.Quiet) (earlier : List WorkerEvent) :
    event.Justified earlier := by
  cases event with
  | wrote incarnation envelope =>
    intro hwork
    have hshake : envelope.message.isHandshake = true := h
    rw [hshake] at hwork
    cases hwork
  | _ => trivial

theorem HandshakeBeforeWork.append {new log : List WorkerEvent} (h : HandshakeBeforeWork log)
    (hnew : ∀ event ∈ new, event.Quiet) : HandshakeBeforeWork (new ++ log) := by
  induction new with
  | nil => exact h
  | cons event new ih =>
    exact .cons ((hnew event List.mem_cons_self).justified _) (ih fun e he => hnew e (List.mem_cons_of_mem _ he))

/-! ## What a supervisor call touches -/

/-- A call on `handle` leaves the other supervisors alone and appends `allowed` events. -/
structure Extends (allowed : WorkerEvent → Prop) (handle : Handle) (before after : Workers) : Prop where
  log : ∃ new, after.log = new ++ before.log ∧ ∀ event ∈ new, allowed event
  others : ∀ other, other ≠ handle → after.supervisors other = before.supervisors other
  created : after.created = before.created

namespace Extends
variable {allowed allowed' : WorkerEvent → Prop} {handle : Handle} {a b c : Workers}

theorem refl (allowed : WorkerEvent → Prop) (handle : Handle) (a : Workers) : Extends allowed handle a a :=
  ⟨⟨[], rfl, fun _ h => (nomatch h)⟩, fun _ _ => rfl, rfl⟩

theorem trans (hab : Extends allowed handle a b) (hbc : Extends allowed handle b c) : Extends allowed handle a c := by
  obtain ⟨new, hnew, hallowed⟩ := hab.log
  obtain ⟨new', hnew', hallowed'⟩ := hbc.log
  refine ⟨⟨new' ++ new, ?_, ?_⟩, fun other h => (hbc.others other h).trans (hab.others other h),
    hbc.created.trans hab.created⟩
  · rw [hnew', hnew, List.append_assoc]
  · intro event hevent
    rcases List.mem_append.1 hevent with h | h
    · exact hallowed' event h
    · exact hallowed event h

theorem mono (h : Extends allowed handle a b) (hsub : ∀ event, allowed event → allowed' event) :
    Extends allowed' handle a b := by
  obtain ⟨new, hnew, hallowed⟩ := h.log
  exact ⟨⟨new, hnew, fun event he => hsub event (hallowed event he)⟩, h.others, h.created⟩

theorem setRunning (allowed : WorkerEvent → Prop) (handle : Handle) (running : Option RunningWorker) (a : Workers) :
    Extends allowed handle a (a.setRunning handle running) :=
  ⟨⟨[], rfl, fun _ h => (nomatch h)⟩, fun _ h => Function.update_of_ne h _ _, rfl⟩

theorem mem_log (h : Extends allowed handle a b) {event : WorkerEvent} (hmem : event ∈ a.log) : event ∈ b.log := by
  obtain ⟨new, hnew, -⟩ := h.log
  rw [hnew]
  exact List.mem_append_right _ hmem

theorem calm (h : Extends allowed handle a b) (hcalm : Calm b.log) : Calm a.log := by
  obtain ⟨new, hnew, -⟩ := h.log
  rw [hnew] at hcalm
  exact hcalm.of_append

end Extends

section Calls
variable {ε α β : Type} {allowed : WorkerEvent → Prop} {handle : Handle}

/-- Shorthand for the runs of one supervisor. -/
abbrev Stays (allowed : WorkerEvent → Prop) (handle : Handle) (x : Run Workers ε α) : Prop :=
  Within (Extends allowed handle) x

theorem Stays.bind {x : Run Workers ε β} {f : β → Run Workers ε α} (hx : Stays allowed handle x)
    (hf : ∀ b, Stays allowed handle (f b)) : Stays allowed handle (x >>= f) :=
  Within.bind (R := Extends allowed handle) (fun _ _ _ => Extends.trans) hx hf

theorem Stays.pure (a : α) : Stays allowed handle (Pure.pure a : Run Workers ε α) :=
  Within.pure (Extends.refl allowed handle) a

theorem Stays.fail (e : ε) : Stays allowed handle (Runs.fail e : Run Workers ε α) :=
  Within.fail (Extends.refl allowed handle) e

theorem Stays.read : Stays allowed handle (Runs.read : Run Workers ε Workers) :=
  Within.read (Extends.refl allowed handle)

theorem Stays.lift (r : Except ε α) : Stays allowed handle (Runs.lift r : Run Workers ε α) :=
  Within.lift (Extends.refl allowed handle) r

namespace Workers
variable (env : WorkerEnvironment)

theorem tick_stays : Stays allowed handle (tick : Run Workers ε Nat) := fun _ =>
  ⟨⟨[], rfl, fun _ h => (nomatch h)⟩, fun _ _ => rfl, rfl⟩

theorem running_stays : Stays allowed handle (running handle : Run Workers ε (Option RunningWorker)) :=
  Extends.refl allowed handle

theorem record_stays {event : WorkerEvent} (h : allowed event) :
    Stays allowed handle (record event : Run Workers ε Unit) := fun _ =>
  ⟨⟨[event], rfl, fun _ he => List.mem_singleton.1 he ▸ h⟩, fun _ _ => rfl, rfl⟩

theorem stop_stays : Stays allowed handle (stop handle : Run Workers ε Unit) :=
  Extends.setRunning allowed handle none

theorem stopFail_stays (e : ε) :
    Stays allowed handle (do stop handle; fail e : Run Workers ε α) :=
  stop_stays.bind fun _ => Stays.fail e

theorem reapIdle_stays : Stays allowed handle (reapIdle env handle : Run Workers ε Bool) := by
  refine tick_stays.bind fun tick => Stays.read.bind fun workers => ?_
  dsimp only
  split
  · exact stop_stays.bind fun _ => Stays.pure true
  · exact Stays.pure false

theorem discardExited_stays : Stays allowed handle (discardExited env handle : Run Workers ε Bool) := by
  refine tick_stays.bind fun tick => running_stays.bind fun running => ?_
  split
  · exact stop_stays.bind fun _ => Stays.pure true
  · exact Stays.pure false

theorem isRunning_stays : Stays allowed handle (isRunning env handle : Run Workers ε Bool) :=
  (discardExited_stays env).bind fun _ => running_stays.bind fun _ => Stays.pure _

theorem spawn_stays (h : ∀ incarnation, allowed (.started incarnation)) : Stays allowed handle (spawn env handle) := by
  refine tick_stays.bind fun tick => ?_
  split
  · intro workers
    exact ⟨⟨[.started workers.spawned], rfl, fun e he => List.mem_singleton.1 he ▸ h _⟩,
      fun other hother => Function.update_of_ne hother _ _, rfl⟩
  · exact Stays.read.bind fun workers => Stays.fail _

theorem ensureRunning_stays (h : ∀ incarnation, allowed (.started incarnation)) :
    Stays allowed handle (ensureRunning env handle) := by
  refine (discardExited_stays env).bind fun exited => running_stays.bind fun running => ?_
  split
  · exact Stays.pure exited
  · exact (spawn_stays env h).bind fun _ => Stays.pure exited

theorem registerRequest_stays (requestId : String) : Stays allowed handle (registerRequest handle requestId) := by
  refine running_stays.bind fun running => ?_
  cases running with
  | none => exact Stays.fail _
  | some running =>
    dsimp only
    split
    · exact Stays.fail _
    · have hset : Stays allowed handle (update (setRunning handle
          (some { running with requestIds := requestId :: running.requestIds })) : WorkerRun Unit) :=
        Extends.setRunning allowed handle _
      exact hset.bind fun _ => Stays.pure _

theorem touch_stays : Stays allowed handle (touch env handle : Run Workers ε Unit) :=
  tick_stays.bind fun _ workers => Extends.setRunning allowed handle _ workers

theorem writeFrame_stays {incarnation : Nat} {envelope : WorkerEnvelope} (h : allowed (.wrote incarnation envelope)) :
    Stays allowed handle (writeFrame env handle incarnation envelope) := by
  refine tick_stays.bind fun tick => ?_
  cases env.writes tick with
  | notEncodable => exact Stays.fail _
  | failed => exact (record_stays h).bind fun _ => Stays.fail _
  | written => exact (record_stays h).bind fun _ => touch_stays env

theorem acceptEnvelope_stays (requestId : String) (envelope : WorkerEnvelope) :
    Stays allowed handle (acceptEnvelope env handle requestId envelope) := by
  unfold acceptEnvelope
  split
  · exact stopFail_stays _
  · split
    · exact stopFail_stays _
    · split
      · exact Stays.fail _
      · exact (touch_stays env).bind fun _ => Stays.pure _

theorem receive_stays (request : WorkerEnvelope) (timeout : Nat) :
    Stays allowed handle (receive env handle request timeout) := by
  refine tick_stays.bind fun tick => ?_
  cases env.receives tick request with
  | envelope envelope => exact acceptEnvelope_stays env request.requestId envelope
  | undecodable => exact Stays.fail _
  | frameError => exact stopFail_stays _
  | disconnected => exact stopFail_stays _
  | timeout => exact stopFail_stays _

/-- The events one request may append. -/
def RequestEvent (request : WorkerEnvelope) : WorkerEvent → Prop
  | .requested message _ _ => message = request.message
  | .started _ => True
  | .wrote _ envelope => envelope = request
  | .handshook _ _ => False

theorem requestWithTimeout_stays (request : WorkerEnvelope) (timeout : Nat) :
    Stays (RequestEvent request) handle (requestWithTimeout env handle request timeout) := by
  refine (Stays.lift _).bind fun _ => (reapIdle_stays env).bind fun expired => ?_
  refine (ensureRunning_stays env fun _ => trivial).bind fun exited => ?_
  have hrecord : Stays (RequestEvent request) handle
      (record (.requested request.message expired exited) : WorkerRun Unit) := record_stays rfl
  refine hrecord.bind fun _ => (registerRequest_stays _).bind fun incarnation => ?_
  have hwrite : Stays (RequestEvent request) handle (writeFrame env handle incarnation request) :=
    writeFrame_stays env rfl
  exact hwrite.bind fun _ => Stays.read.bind fun workers => receive_stays env request _

theorem request_stays (request : WorkerEnvelope) :
    Stays (RequestEvent request) handle (Workers.request env handle request) :=
  Stays.read.bind fun _ => requestWithTimeout_stays env request _

theorem acceptHandshake_stays (h : ∀ incarnation capabilities, allowed (.handshook incarnation capabilities))
    (message : WorkerMessage) : Stays allowed handle (acceptHandshake handle message) := by
  unfold acceptHandshake
  split
  · split
    · exact stopFail_stays _
    · have hlog : ∀ capabilities : WorkerCapabilities, Stays allowed handle
          (update fun workers : Workers =>
            { workers with
              log := ((workers.supervisors handle).running.toList.map fun running =>
                .handshook running.incarnation capabilities) ++ workers.log } : WorkerRun Unit) := by
        intro capabilities workers
        refine ⟨⟨_, rfl, ?_⟩, fun _ _ => rfl, rfl⟩
        intro event hevent
        obtain ⟨running, -, rfl⟩ := List.mem_map.1 hevent
        exact h _ _
      exact (hlog _).bind fun _ => Stays.pure _
  · exact Stays.fail _

/-- A handshake writes no work. -/
theorem handshake_stays (requestId : String) : Stays WorkerEvent.Quiet handle (handshake env handle requestId) := by
  have hrequest : Stays WorkerEvent.Quiet handle
      (Workers.request env handle (.new requestId (.handshakeRequest CORE_VERSION))) := by
    intro workers
    refine (request_stays env (.new requestId (.handshakeRequest CORE_VERSION)) workers).mono ?_
    intro event hevent
    cases event with
    | wrote incarnation envelope =>
      have henvelope : envelope = _ := hevent
      rw [henvelope]
      rfl
    | _ => trivial
  exact hrequest.bind fun response => acceptHandshake_stays (fun _ _ => trivial) response.message

end Workers
end Calls

/-! ## Serving -/

/-- The log is disciplined as long as it is calm. -/
def Disciplined (workers : Workers) : Prop := Calm workers.log → HandshakeBeforeWork workers.log

/-- The process behind `handle` has answered a handshake with `capabilities`. -/
def Serving (handle : Handle) (capabilities : WorkerCapabilities) (workers : Workers) : Prop :=
  Calm workers.log → ∃ running, (workers.supervisors handle).running = some running ∧
    .handshook running.incarnation capabilities ∈ workers.log

theorem Extends.disciplined {handle : Handle} {a b : Workers} (h : Extends WorkerEvent.Quiet handle a b)
    (ha : Disciplined a) : Disciplined b := by
  intro hcalm
  have hearlier := ha (h.calm hcalm)
  obtain ⟨new, hnew, hquiet⟩ := h.log
  rw [hnew]
  exact hearlier.append hquiet

/-- A run that writes no work keeps the discipline along with what else it does. -/
theorem Stays.and_disciplined {ε α : Type} {handle : Handle} {x : Run Workers ε α} {P : Workers → Prop}
    {Q : α → Workers → Prop} (h : Stays WorkerEvent.Quiet handle x) (ht : Triple P x Q fun _ => True) :
    Triple (fun workers => P workers ∧ Disciplined workers) x (fun a workers => Q a workers ∧ Disciplined workers)
      Disciplined :=
  (Within.and_triple h (fun _ _ => Extends.disciplined) ht).weaken fun _ h => h.2

/-- A call on another handle leaves a serving handle serving. -/
theorem Extends.serving {allowed : WorkerEvent → Prop} {handle other : Handle} {capabilities : WorkerCapabilities}
    {a b : Workers} (h : Extends allowed handle a b) (hother : other ≠ handle)
    (ha : Serving other capabilities a) : Serving other capabilities b := by
  intro hcalm
  obtain ⟨running, hrunning, hshook⟩ := ha (h.calm hcalm)
  exact ⟨running, by rw [h.others other hother, hrunning], h.mem_log hshook⟩

def Alive (handle : Handle) (workers : Workers) : Prop := (workers.supervisors handle).running.isSome = true

/-- The log grows and the process behind `handle` stays the same. -/
structure Keeps (handle : Handle) (before after : Workers) : Prop where
  log : ∃ new, after.log = new ++ before.log
  incarnation : (after.supervisors handle).running.map (·.incarnation) =
    (before.supervisors handle).running.map (·.incarnation)

namespace Keeps
variable {handle : Handle} {capabilities : WorkerCapabilities} {a b c : Workers}

theorem refl (handle : Handle) (a : Workers) : Keeps handle a a := ⟨⟨[], rfl⟩, rfl⟩

theorem trans (hab : Keeps handle a b) (hbc : Keeps handle b c) : Keeps handle a c := by
  obtain ⟨new, hnew⟩ := hab.log
  obtain ⟨new', hnew'⟩ := hbc.log
  exact ⟨⟨new' ++ new, by rw [hnew', hnew, List.append_assoc]⟩, hbc.incarnation.trans hab.incarnation⟩

theorem serving (h : Keeps handle a b) (ha : Serving handle capabilities a) : Serving handle capabilities b := by
  intro hcalm
  obtain ⟨new, hnew⟩ := h.log
  rw [hnew] at hcalm
  obtain ⟨running, hrunning, hshook⟩ := ha hcalm.of_append
  have hsame := h.incarnation
  rw [hrunning] at hsame
  obtain ⟨running', hrunning', hincarnation⟩ := Option.map_eq_some_iff.1 hsame
  refine ⟨running', hrunning', ?_⟩
  rw [hincarnation, hnew]
  exact List.mem_append_right _ hshook

theorem setRunning {running : RunningWorker} (hrunning : (a.supervisors handle).running = some running)
    (running' : RunningWorker) (hsame : running'.incarnation = running.incarnation) :
    Keeps handle a (a.setRunning handle (some running')) := by
  refine ⟨⟨[], rfl⟩, ?_⟩
  rw [Workers.setRunning, hrunning]
  simp only [Function.update_self, Option.map_some, hsame]

theorem alive (h : Keeps handle a b) (ha : Alive handle a) : Alive handle b := by
  unfold Alive at ha ⊢
  rw [← Option.isSome_map (f := (·.incarnation)), h.incarnation, Option.isSome_map]
  exact ha

end Keeps

namespace Workers
variable (env : WorkerEnvironment) {ε : Type} {handle : Handle} {capabilities : WorkerCapabilities}
  {E : Workers → Prop}

theorem tick_keeps : Within (Keeps handle) (tick : Run Workers ε Nat) := fun _ => ⟨⟨[], rfl⟩, rfl⟩

theorem touch_keeps : Within (Keeps handle) (touch env handle : Run Workers ε Unit) := by
  refine Within.bind (R := Keeps handle) (fun _ _ _ => Keeps.trans) tick_keeps fun tick workers => ?_
  cases hrunning : (workers.supervisors handle).running with
  | none =>
    refine ⟨⟨[], rfl⟩, ?_⟩
    simp only [setRunning, update, hrunning, Function.update_self, Option.map_none]
  | some running =>
    have hkeeps := Keeps.setRunning hrunning { running with lastActivity := env.now tick } rfl
    simpa only [update, hrunning, Option.map_some] using hkeeps

theorem tick_serving : Triple (Serving handle capabilities) (tick : Run Workers ε Nat)
    (fun _ => Serving handle capabilities) E := fun _ h => h

theorem touch_serving : Triple (Serving handle capabilities) (touch env handle : Run Workers ε Unit)
    (fun _ => Serving handle capabilities) (Serving handle capabilities) :=
  Within.triple (touch_keeps env) fun _ _ h => h.serving

theorem reapIdle_serving :
    Triple (Serving handle capabilities) (reapIdle env handle : Run Workers ε Bool)
      (fun expired workers => expired = false → Serving handle capabilities workers) E := by
  refine Triple.bind tick_serving fun tick => ?_
  refine Triple.bind (R := fun _ => Serving handle capabilities) (Triple.read fun _ h => h) fun workers => ?_
  refine Triple.ite (fun _ => ?_) fun _ => Triple.pure fun _ h _ => h
  refine Triple.bind (R := fun _ _ => True) (Triple.update fun _ _ => trivial) fun _ => Triple.pure fun _ _ h => (nomatch h)

theorem running_triple {P : Workers → Prop} :
    Triple P (running handle : Run Workers ε (Option RunningWorker))
      (fun running workers => P workers ∧ running = (workers.supervisors handle).running) E :=
  fun _ h => ⟨h, rfl⟩

theorem discardExited_serving :
    Triple (Serving handle capabilities) (discardExited env handle : Run Workers ε Bool)
      (fun exited workers => exited = false → Serving handle capabilities workers) E := by
  refine Triple.bind tick_serving fun tick => ?_
  refine Triple.bind running_triple fun running => ?_
  refine Triple.ite (fun _ => ?_) fun _ => Triple.pure fun _ h _ => h.1
  exact Triple.bind (R := fun _ _ => True) (Triple.update fun _ _ => trivial) fun _ => Triple.pure fun _ _ h => (nomatch h)

/-- A serving process is not started again unless it had exited. -/
theorem ensureRunning_serving {expired : Bool} :
    Triple (fun workers => expired = false → Serving handle capabilities workers) (ensureRunning env handle)
      (fun exited workers => expired = false → exited = false → Serving handle capabilities workers)
      (fun _ => True) := by
  cases expired with
  | true =>
    exact Triple.trivial.consequence (fun _ h => h) (fun _ _ _ h => (nomatch h)) fun _ h => h
  | false =>
    have hstart : Triple (Serving handle capabilities) (ensureRunning env handle)
        (fun exited workers => exited = false → Serving handle capabilities workers) (fun _ => True) := by
      refine Triple.bind (discardExited_serving env) fun exited => ?_
      refine Triple.bind running_triple fun running => ?_
      refine Triple.ite (fun _ => Triple.pure fun _ h => h.1) fun hnone => ?_
      -- nothing runs here, so `Serving` can only hold because the log is not calm
      have hspawn : Triple
          (fun workers => (exited = false → Serving handle capabilities workers) ∧
            running = (workers.supervisors handle).running)
          (spawn env handle) (fun _ workers => exited = false → Serving handle capabilities workers)
          (fun _ => True) := by
        intro workers hworkers
        have hstays : Extends (fun _ => True) handle workers (spawn env handle workers).2 :=
          spawn_stays env (fun _ => trivial) workers
        have hnot : exited = false → ¬ Calm workers.log := by
          intro hexited hcalm
          obtain ⟨running', hrunning, -⟩ := hworkers.1 hexited hcalm
          rw [hworkers.2, hrunning] at hnone
          exact hnone rfl
        rcases hrun : spawn env handle workers with ⟨_ | _, workers'⟩ <;> rw [hrun] at hstays
        · trivial
        · exact fun hexited hcalm => absurd (hstays.calm hcalm) (hnot hexited)
      exact Triple.bind hspawn fun _ => Triple.pure fun _ h => h
    exact Triple.consequence hstart (fun _ h => h rfl) (fun _ _ h _ => h) fun _ h => h

theorem registerRequest_serving (requestId : String) :
    Triple (Serving handle capabilities) (registerRequest handle requestId)
      (fun incarnation workers => Serving handle capabilities workers ∧
        (Calm workers.log → .handshook incarnation capabilities ∈ workers.log)) (fun _ => True) := by
  refine Triple.bind running_triple fun running => ?_
  cases running with
  | none => exact Triple.fail fun _ _ => trivial
  | some running =>
    refine Triple.ite (fun _ => Triple.fail fun _ _ => trivial) fun _ => ?_
    refine Triple.bind (R := fun _ workers => Serving handle capabilities workers ∧
      (Calm workers.log → .handshook running.incarnation capabilities ∈ workers.log)) (Triple.update ?_)
      fun _ => Triple.pure fun _ h => h
    rintro workers ⟨hserving, hrunning⟩
    have hkeeps := Keeps.setRunning hrunning.symm
      { running with requestIds := requestId :: running.requestIds } rfl
    refine ⟨hkeeps.serving hserving, fun hcalm => ?_⟩
    obtain ⟨running', hrunning', hshook⟩ := hserving hcalm
    rw [← hrunning, Option.some.injEq] at hrunning'
    exact hrunning' ▸ hshook

theorem stopFail_trivial {P : Workers → Prop} {Q : WorkerEnvelope → Workers → Prop} (e : WorkerSupervisorError) :
    Triple P (do stop handle; fail e : WorkerRun WorkerEnvelope) Q (fun _ => True) :=
  Triple.bind Triple.trivial fun _ => Triple.fail fun _ _ => trivial

/-- What the clock and the touch keep, a received envelope keeps. -/
theorem receive_kept {P : Workers → Prop} (htick : ∀ workers : Workers, P workers → P { workers with clock := workers.clock + 1 })
    (htouch : Triple P (touch env handle : WorkerRun Unit) (fun _ => P) P) (request : WorkerEnvelope) (timeout : Nat) :
    Triple P (receive env handle request timeout) (fun _ => P) (fun _ => True) := by
  refine Triple.bind (R := fun _ => P) (fun workers h => htick workers h) fun tick => ?_
  cases env.receives tick request with
  | undecodable => exact Triple.fail fun _ _ => trivial
  | frameError => exact stopFail_trivial _
  | disconnected => exact stopFail_trivial _
  | timeout => exact stopFail_trivial _
  | envelope envelope =>
    refine Triple.ite (fun _ => stopFail_trivial _) fun _ => Triple.ite (fun _ => stopFail_trivial _) fun _ => ?_
    split
    · exact Triple.fail fun _ _ => trivial
    · exact Triple.bind (htouch.consequence (fun _ h => h) (fun _ _ h => h) fun _ _ => trivial) fun _ => Triple.pure fun _ h => h

theorem receive_serving (request : WorkerEnvelope) (timeout : Nat) :
    Triple (Serving handle capabilities) (receive env handle request timeout)
      (fun _ => Serving handle capabilities) (fun _ => True) :=
  receive_kept env (fun _ h => h) (touch_serving env) request timeout

/-- Work may go to a serving process: it supports the request, or the log answers for it. -/
theorem writeFrame_disciplined {incarnation : Nat} {envelope : WorkerEnvelope}
    (hversion : capabilities.protocolVersion = WORKER_PROTOCOL_VERSION)
    (hsupported : envelope.message.SupportedBy capabilities ∨ envelope.Unchecked) :
    Triple (fun workers => (Serving handle capabilities workers ∧
        (Calm workers.log → .handshook incarnation capabilities ∈ workers.log)) ∧ Disciplined workers)
      (writeFrame env handle incarnation envelope)
      (fun _ workers => Serving handle capabilities workers ∧ Disciplined workers) Disciplined := by
  have hrecord : Triple (fun workers => (Serving handle capabilities workers ∧
        (Calm workers.log → .handshook incarnation capabilities ∈ workers.log)) ∧ Disciplined workers)
      (record (.wrote incarnation envelope) : WorkerRun Unit)
      (fun _ workers => Serving handle capabilities workers ∧ Disciplined workers) Disciplined := by
    refine Triple.update fun workers h => ⟨?_, fun hcalm => ?_⟩
    · exact Keeps.serving ⟨⟨[_], rfl⟩, rfl⟩ h.1.1
    · have hbefore : Calm workers.log := hcalm.of_cons
      refine .cons (fun _ => ⟨_, h.1.2 hbefore, rfl, hversion, ?_⟩) (h.2 hbefore)
      refine hsupported.elim id fun hunchecked => ?_
      exact hunchecked.supportedBy (hcalm.batchWorkers _ List.mem_cons_self hunchecked _
        (List.mem_cons_of_mem _ (h.1.2 hbefore)) rfl)
  have htick : Triple (fun workers => (Serving handle capabilities workers ∧
        (Calm workers.log → .handshook incarnation capabilities ∈ workers.log)) ∧ Disciplined workers)
      (tick : WorkerRun Nat) (fun _ workers => (Serving handle capabilities workers ∧
        (Calm workers.log → .handshook incarnation capabilities ∈ workers.log)) ∧ Disciplined workers)
      Disciplined := fun _ h => h
  refine Triple.bind htick fun tick => ?_
  cases env.writes tick with
  | notEncodable => exact Triple.fail fun _ h => h.2
  | failed => exact Triple.bind hrecord fun _ => Triple.fail fun _ h => h.2
  | written =>
    refine Triple.bind hrecord fun _ => ?_
    exact (touch_stays env).and_disciplined ((touch_serving env).weaken fun _ _ => trivial)

/-- **Work over a serving handle.** The request is justified, and the handle serves on if it returns. -/
theorem requestWithTimeout_serving (request : WorkerEnvelope) (timeout : Nat)
    (hversion : capabilities.protocolVersion = WORKER_PROTOCOL_VERSION)
    (hwork : request.message.isHandshake = false)
    (hsupported : request.message.SupportedBy capabilities ∨ request.Unchecked) :
    Triple (fun workers => Serving handle capabilities workers ∧ Disciplined workers)
      (requestWithTimeout env handle request timeout)
      (fun _ workers => Serving handle capabilities workers ∧ Disciplined workers) Disciplined := by
  refine Triple.bind (R := fun _ workers => Serving handle capabilities workers ∧ Disciplined workers)
    (Triple.lift (fun _ _ _ h => h) fun _ h => h.2) fun _ => ?_
  refine Triple.bind ((reapIdle_stays env).and_disciplined (reapIdle_serving env)) fun expired => ?_
  refine Triple.bind ((ensureRunning_stays env fun _ => trivial).and_disciplined (ensureRunning_serving env))
    fun exited => ?_
  have hrecord : Triple (fun workers => (expired = false → exited = false → Serving handle capabilities workers) ∧
        Disciplined workers)
      (record (.requested request.message expired exited) : WorkerRun Unit)
      (fun _ workers => Serving handle capabilities workers ∧ Disciplined workers) Disciplined := by
    refine Triple.update fun workers h => ⟨fun hcalm => ?_, fun hcalm => .cons trivial (h.2 hcalm.of_cons)⟩
    obtain ⟨hexpired, hexited⟩ := hcalm.noRestart _ List.mem_cons_self hwork
    have hserving := h.1 hexpired hexited
    exact Keeps.serving (a := workers) ⟨⟨[.requested request.message expired exited], rfl⟩, rfl⟩ hserving hcalm
  refine Triple.bind hrecord fun _ => ?_
  refine Triple.bind ((registerRequest_stays _).and_disciplined (registerRequest_serving _)) fun incarnation => ?_
  refine Triple.bind (writeFrame_disciplined env hversion hsupported) fun _ => ?_
  refine Triple.bind (R := fun _ workers => Serving handle capabilities workers ∧ Disciplined workers)
    (Triple.read fun _ h => h) fun workers => ?_
  exact (receive_stays env request _).and_disciplined (receive_serving env request _)

/-! ## Handshakes -/

theorem registerRequest_alive (requestId : String) :
    Triple (fun _ => True) (registerRequest handle requestId) (fun _ => Alive handle) (fun _ => True) := by
  refine Triple.bind running_triple fun running => ?_
  cases running with
  | none => exact Triple.fail fun _ _ => trivial
  | some running =>
    refine Triple.ite (fun _ => Triple.fail fun _ _ => trivial) fun _ => ?_
    refine Triple.bind (R := fun _ => Alive handle) (Triple.update fun workers _ => ?_) fun _ => Triple.pure fun _ h => h
    simp only [Alive, setRunning, Function.update_self, Option.isSome_some]

theorem touch_alive : Triple (Alive handle) (touch env handle : Run Workers ε Unit) (fun _ => Alive handle)
    (Alive handle) :=
  Within.triple (touch_keeps env) fun _ _ h => h.alive

theorem writeFrame_alive (incarnation : Nat) (envelope : WorkerEnvelope) :
    Triple (Alive handle) (writeFrame env handle incarnation envelope) (fun _ => Alive handle) (fun _ => True) := by
  have hrecord : Triple (Alive handle) (record (.wrote incarnation envelope) : WorkerRun Unit) (fun _ => Alive handle)
      (fun _ => True) := Triple.update fun _ h => h
  refine Triple.bind (R := fun _ => Alive handle) (fun _ h => h) fun tick => ?_
  cases env.writes tick with
  | notEncodable => exact Triple.fail fun _ _ => trivial
  | failed => exact Triple.bind hrecord fun _ => Triple.fail fun _ _ => trivial
  | written =>
    exact Triple.bind hrecord fun _ =>
      (touch_alive env).consequence (fun _ h => h) (fun _ _ h => h) fun _ _ => trivial

theorem receive_alive (request : WorkerEnvelope) (timeout : Nat) :
    Triple (Alive handle) (receive env handle request timeout) (fun _ => Alive handle) (fun _ => True) :=
  receive_kept env (fun _ h => h) (touch_alive env) request timeout

/-- Whoever answered is still there. -/
theorem request_alive (request : WorkerEnvelope) :
    Triple (fun _ => True) (Workers.request env handle request) (fun _ => Alive handle) (fun _ => True) := by
  refine Triple.bind Triple.trivial fun _ => Triple.bind Triple.trivial fun _ => ?_
  refine Triple.bind Triple.trivial fun _ => Triple.bind Triple.trivial fun _ => Triple.bind Triple.trivial fun _ => ?_
  refine Triple.bind (registerRequest_alive _) fun _ => Triple.bind (writeFrame_alive env _ _) fun _ => ?_
  exact Triple.bind (R := fun _ => Alive handle) (fun _ h => h) fun _ => receive_alive env request _

theorem acceptHandshake_serving (message : WorkerMessage) :
    Triple (Alive handle) (acceptHandshake handle message)
      (fun capabilities workers => capabilities.protocolVersion = WORKER_PROTOCOL_VERSION ∧
        Serving handle capabilities workers) (fun _ => True) := by
  unfold acceptHandshake
  split
  · next capabilities =>
    refine Triple.ite (fun _ => Triple.bind Triple.trivial fun _ => Triple.fail fun _ _ => trivial) fun hversion => ?_
    refine Triple.bind (R := fun _ => Serving handle capabilities) (Triple.update fun workers h _ => ?_)
      fun _ => Triple.pure fun _ h => ⟨not_not.1 hversion, h⟩
    obtain ⟨running, hrunning⟩ := Option.isSome_iff_exists.1 h
    refine ⟨running, hrunning, ?_⟩
    rw [hrunning]
    exact List.mem_cons_self
  · exact Triple.fail fun _ _ => trivial

/-- **Handshake.** An accepted handshake leaves its handle serving. -/
theorem handshake_serving (requestId : String) :
    Triple Disciplined (handshake env handle requestId)
      (fun capabilities workers => (capabilities.protocolVersion = WORKER_PROTOCOL_VERSION ∧
        Serving handle capabilities workers) ∧ Disciplined workers) Disciplined := by
  have hshake : Triple (fun _ => True) (handshake env handle requestId)
      (fun capabilities workers => capabilities.protocolVersion = WORKER_PROTOCOL_VERSION ∧
        Serving handle capabilities workers) (fun _ => True) :=
    Triple.bind (request_alive env _) fun response => acceptHandshake_serving response.message
  exact ((handshake_stays env requestId).and_disciplined hshake).consequence (fun _ h => ⟨trivial, h⟩) (fun _ _ h => h)
    fun _ h => h

end Workers

/-! ## Qualified handles -/

/-- The process behind `handle` has answered a compatible handshake with capabilities that satisfy `p`. -/
def Handshaken (p : WorkerCapabilities → Prop) (handle : Handle) (workers : Workers) : Prop :=
  ∃ capabilities, capabilities.protocolVersion = WORKER_PROTOCOL_VERSION ∧ p capabilities ∧
    Serving handle capabilities workers

def Qualified (p : WorkerCapabilities → Prop) (handle : Handle) (workers : Workers) : Prop :=
  Handshaken p handle workers ∧ Disciplined workers

theorem Handshaken.mono {p q : WorkerCapabilities → Prop} {handle : Handle} {workers : Workers}
    (h : Handshaken p handle workers) (hpq : ∀ capabilities, p capabilities → q capabilities) :
    Handshaken q handle workers := by
  obtain ⟨capabilities, hversion, hp, hserving⟩ := h
  exact ⟨capabilities, hversion, hpq _ hp, hserving⟩

namespace Workers
variable (env : WorkerEnvironment) {handle : Handle} {p : WorkerCapabilities → Prop}

theorem handshake_qualified (requestId : String) :
    Triple Disciplined (handshake env handle requestId) (fun capabilities => Qualified (· = capabilities) handle)
      Disciplined :=
  (handshake_serving env requestId).consequence (fun _ h => h)
    (fun capabilities _ h => ⟨⟨capabilities, h.1.1, rfl, h.1.2⟩, h.2⟩) fun _ h => h

theorem requestWithTimeout_qualified (request : WorkerEnvelope) (timeout : Nat)
    (hwork : request.message.isHandshake = false)
    (hsupported : ∀ capabilities, p capabilities → request.message.SupportedBy capabilities ∨ request.Unchecked) :
    Triple (Qualified p handle) (requestWithTimeout env handle request timeout) (fun _ => Qualified p handle)
      Disciplined := by
  rintro workers ⟨⟨capabilities, hversion, hp, hserving⟩, hdisciplined⟩
  have hrequest : Triple (fun workers => Serving handle capabilities workers ∧ Disciplined workers)
      (requestWithTimeout env handle request timeout) (fun _ => Qualified p handle) Disciplined :=
    (requestWithTimeout_serving env request timeout hversion hwork (hsupported capabilities hp)).consequence
      (fun _ h => h) (fun _ _ h => ⟨⟨capabilities, hversion, hp, h.1⟩, h.2⟩) fun _ h => h
  exact hrequest workers ⟨hserving, hdisciplined⟩

theorem request_qualified (request : WorkerEnvelope) (hwork : request.message.isHandshake = false)
    (hsupported : ∀ capabilities, p capabilities → request.message.SupportedBy capabilities ∨ request.Unchecked) :
    Triple (Qualified p handle) (Workers.request env handle request) (fun _ => Qualified p handle) Disciplined :=
  Triple.bind (R := fun _ => Qualified p handle) (Triple.read fun _ h => h) fun _ =>
    requestWithTimeout_qualified env request _ hwork hsupported

end Workers

end Kide
