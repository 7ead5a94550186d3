import Kide.Workers.Supervisor

/-!
# Workers that answer

A worker whose answer depends on the request alone, told from outside.

* `AnswersWith` : whatever is received is this answer;
* `Reliable` : nothing fails on the way;
* `request_returns`, `request_reliable` : a request returns the answer or nothing, and over a reliable worker it returns.
-/

namespace Kide
open Runs

/-- Every received envelope is the answer to its request. -/
def AnswersWith (env : WorkerEnvironment) (answer : WorkerMessage → WorkerMessage) : Prop :=
  ∀ tick request envelope, env.receives tick request = .envelope envelope →
    envelope = .new request.requestId (answer request.message)

/-- Processes start, and take and send their frames. -/
structure Reliable (env : WorkerEnvironment) : Prop where
  spawns : ∀ tick, env.spawns tick = true
  writes : ∀ tick, env.writes tick = .written
  delivers : ∀ tick request, ∃ envelope, env.receives tick request = .envelope envelope

/-- The message is not the report of an error. -/
def WorkerMessage.Regular (message : WorkerMessage) : Prop := ∀ error, message ≠ .error error

namespace Workers

variable {env : WorkerEnvironment} {answer : WorkerMessage → WorkerMessage} {handle : Handle} {ids : List String}
  {workers : Workers}

/-! ## Returned answers -/

theorem acceptEnvelope_returns (id : String) (envelope : WorkerEnvelope) :
    Returns (fun returned => returned = envelope ∧ envelope.message.Regular) (acceptEnvelope env handle id envelope) := by
  unfold acceptEnvelope
  split
  · exact Returns.bind (Returns.trivial _) fun _ _ => Returns.fail
  split
  · exact Returns.bind (Returns.trivial _) fun _ _ => Returns.fail
  split
  · exact Returns.fail
  · next hregular => exact Returns.bind (Returns.trivial _) fun _ _ => Returns.pure ⟨rfl, hregular⟩

theorem receive_returns (h : AnswersWith env answer) (request : WorkerEnvelope) (timeout : Nat) :
    Returns (fun returned => returned = .new request.requestId (answer request.message) ∧ (answer request.message).Regular)
      (receive env handle request timeout) := by
  refine Returns.bind (Returns.trivial _) fun tick _ => ?_
  split
  · exact Returns.bind (Returns.trivial _) fun _ _ => Returns.fail
  · exact Returns.bind (Returns.trivial _) fun _ _ => Returns.fail
  · exact Returns.bind (Returns.trivial _) fun _ _ => Returns.fail
  · exact Returns.fail
  · next envelope hreceived =>
    obtain rfl := h _ _ _ hreceived
    exact acceptEnvelope_returns _ _

theorem request_returns (h : AnswersWith env answer) (id : String) (message : WorkerMessage) :
    Returns (fun returned => returned = .new id (answer message) ∧ (answer message).Regular)
      (request env handle (.new id message)) :=
  Returns.bind (Returns.trivial _) fun _ _ => Returns.bind (Returns.trivial _) fun _ _ =>
    Returns.bind (Returns.trivial _) fun _ _ => Returns.bind (Returns.trivial _) fun _ _ =>
      Returns.bind (Returns.trivial _) fun _ _ => Returns.bind (Returns.trivial _) fun _ _ =>
        Returns.bind (Returns.trivial _) fun _ _ => Returns.bind (Returns.trivial _) fun _ _ => receive_returns h _ _

/-! ## Reliable workers -/

/-- The ids that the running process has seen are among these. -/
def Used (ids : List String) (handle : Handle) (workers : Workers) : Prop :=
  ∀ running, (workers.supervisors handle).running = some running → ∀ id ∈ running.requestIds, id ∈ ids

theorem used_of_none (h : (workers.supervisors handle).running = none) : Used ids handle workers := by
  intro running hrunning
  rw [h] at hrunning
  cases hrunning

theorem Used.mono {ids' : List String} (h : Used ids handle workers) (hsub : ids ⊆ ids') : Used ids' handle workers :=
  fun running hrunning id hid => hsub (h running hrunning id hid)

theorem running_setRunning (running : Option RunningWorker) :
    ((workers.setRunning handle running).supervisors handle).running = running := by
  simp only [setRunning, Function.update_self]

theorem used_setRunning {running : RunningWorker} (h : ∀ id ∈ running.requestIds, id ∈ ids) :
    Used ids handle (workers.setRunning handle (some running)) := by
  intro found hfound
  rw [running_setRunning] at hfound
  cases hfound
  exact h

variable (env) in
theorem reapIdle_runs (h : Used ids handle workers) :
    ∃ expired after, (reapIdle env handle : WorkerRun Bool) workers = (.ok expired, after) ∧ Used ids handle after := by
  unfold reapIdle
  simp only [run_bind, tick, Runs.read]
  split_ifs
  · exact ⟨true, _, rfl, used_of_none (running_setRunning none)⟩
  · exact ⟨false, _, rfl, h⟩

variable (env) in
theorem discardExited_runs (h : Used ids handle workers) :
    ∃ exited after, (discardExited env handle : WorkerRun Bool) workers = (.ok exited, after) ∧ Used ids handle after := by
  unfold discardExited
  simp only [run_bind, tick, running]
  split
  · exact ⟨true, _, rfl, used_of_none (running_setRunning none)⟩
  · exact ⟨false, _, rfl, h⟩

theorem ensureRunning_runs (hreliable : Reliable env) (h : Used ids handle workers) :
    ∃ exited after running, ensureRunning env handle workers = (.ok exited, after) ∧ Used ids handle after ∧
      (after.supervisors handle).running = some running := by
  obtain ⟨exited, middle, hdiscard, hused⟩ := discardExited_runs env h
  unfold ensureRunning
  rw [run_bind, hdiscard]
  cases hrunning : (middle.supervisors handle).running with
  | some running =>
    simp only [run_bind, Workers.running, hrunning, Option.isSome_some, if_true]
    exact ⟨exited, middle, running, rfl, hused, hrunning⟩
  | none =>
    simp only [run_bind, Workers.running, hrunning, Option.isSome_none, Bool.false_eq_true, if_false, spawn, tick,
      hreliable.spawns, if_true, update]
    refine ⟨exited, _, ⟨middle.spawned, [], env.now middle.clock⟩, rfl, ?_, ?_⟩
    · intro found hfound
      dsimp only at hfound
      rw [Function.update_self] at hfound
      cases hfound
      exact fun id hid => by cases hid
    · dsimp only
      rw [Function.update_self]

theorem registerRequest_runs {id : String} {running : RunningWorker} (h : Used ids handle workers)
    (hrunning : (workers.supervisors handle).running = some running) (hfresh : id ∉ ids) :
    ∃ incarnation after, registerRequest handle id workers = (.ok incarnation, after) ∧ Used (id :: ids) handle after := by
  have hnew : id ∉ running.requestIds := fun hid => hfresh (h running hrunning id hid)
  unfold registerRequest
  simp only [run_bind, Workers.running, hrunning, if_neg hnew, update]
  refine ⟨_, _, rfl, used_setRunning fun other hother => ?_⟩
  rcases List.mem_cons.1 hother with rfl | hother
  · exact List.mem_cons_self
  · exact List.mem_cons_of_mem _ (h running hrunning other hother)

variable (env) in
theorem touch_runs (h : Used ids handle workers) :
    ∃ after, (touch env handle : WorkerRun Unit) workers = (.ok (), after) ∧ Used ids handle after := by
  unfold touch
  simp only [run_bind, tick, update]
  refine ⟨_, rfl, fun found hfound => ?_⟩
  rw [running_setRunning] at hfound
  obtain ⟨running, hrunning, rfl⟩ := Option.map_eq_some_iff.1 hfound
  exact h running hrunning

theorem writeFrame_runs (hreliable : Reliable env) (incarnation : Nat) (envelope : WorkerEnvelope) (h : Used ids handle workers) :
    ∃ after, writeFrame env handle incarnation envelope workers = (.ok (), after) ∧ Used ids handle after := by
  unfold writeFrame
  simp only [run_bind, tick, hreliable.writes, record, update]
  exact touch_runs env (by exact h)

theorem acceptEnvelope_eq {id : String} {envelope : WorkerEnvelope} (hversion : envelope.protocolVersion = WORKER_PROTOCOL_VERSION)
    (hid : envelope.requestId = id) (hregular : envelope.message.Regular) :
    acceptEnvelope env handle id envelope = (do touch env handle; pure envelope) := by
  unfold acceptEnvelope
  rw [if_neg (not_not.2 hversion), if_neg (not_not.2 hid)]
  split
  · next error herror => exact absurd herror (hregular error)
  · rfl

theorem receive_runs (hreliable : Reliable env) (hanswers : AnswersWith env answer) (id : String) {message : WorkerMessage}
    (timeout : Nat) (hregular : (answer message).Regular) (h : Used ids handle workers) :
    ∃ after, receive env handle (.new id message) timeout workers = (.ok (.new id (answer message)), after) ∧
      Used ids handle after := by
  obtain ⟨envelope, hreceived⟩ := hreliable.delivers workers.clock (.new id message)
  obtain rfl := hanswers _ _ _ hreceived
  obtain ⟨after, htouch, hused⟩ := touch_runs env (show Used ids handle { workers with clock := workers.clock + 1 } from h)
  have haccept : acceptEnvelope env handle id (.new id (answer message)) { workers with clock := workers.clock + 1 } =
      (.ok (.new id (answer message)), after) := by
    rw [acceptEnvelope_eq (by rfl) (by rfl) hregular]
    exact bind_of_ok htouch
  refine ⟨after, ?_, hused⟩
  unfold receive
  rw [bind_of_ok (by rfl : tick workers = (.ok workers.clock, { workers with clock := workers.clock + 1 })), hreceived]
  exact haccept

/-- A request under a new id is answered. -/
theorem request_reliable (hreliable : Reliable env) (hanswers : AnswersWith env answer) {id : String} {message : WorkerMessage}
    (hregular : (answer message).Regular) (h : Used ids handle workers) (hfresh : id ∉ ids) :
    ∃ after, request env handle (.new id message) workers = (.ok (.new id (answer message)), after) ∧
      Used (id :: ids) handle after := by
  obtain ⟨expired, w₁, hreap, h₁⟩ := reapIdle_runs env h
  obtain ⟨exited, w₂, running, hensure, h₂, hrunning⟩ := ensureRunning_runs hreliable h₁
  let w₃ : Workers := { w₂ with log := .requested message expired exited :: w₂.log }
  have h₃ : Used ids handle w₃ := h₂
  obtain ⟨incarnation, w₄, hregister, h₄⟩ := registerRequest_runs h₃ (by exact hrunning) hfresh
  obtain ⟨w₅, hwrite, h₅⟩ := writeFrame_runs hreliable incarnation (.new id message) h₄
  obtain ⟨w₆, hreceive, h₆⟩ := receive_runs hreliable hanswers id
    (min (workers.supervisors handle).launch.requestTimeout (w₅.supervisors handle).launch.requestTimeout) hregular h₅
  refine ⟨w₆, ?_, h₆⟩
  have hvalid : (lift (validateProtocolVersion (.new id message)) : WorkerRun Unit) workers = (.ok (), workers) := rfl
  have hrecord : (record (.requested message expired exited) : WorkerRun Unit) w₂ = (.ok (), w₃) := rfl
  unfold request requestWithTimeout
  rw [bind_of_ok (by rfl : (Runs.read : WorkerRun Workers) workers = (.ok workers, workers)), bind_of_ok hvalid, bind_of_ok hreap,
    bind_of_ok hensure]
  refine (bind_of_ok hrecord).trans ((bind_of_ok hregister).trans ((bind_of_ok hwrite).trans ?_))
  exact (bind_of_ok (by rfl : (Runs.read : WorkerRun Workers) w₅ = (.ok w₅, w₅))).trans hreceive

/-- A handshake in the version of the core is accepted. -/
theorem handshake_runs (hreliable : Reliable env) (hanswers : AnswersWith env answer) {id : String} {capabilities : WorkerCapabilities}
    (hcapabilities : answer (.handshakeRequest CORE_VERSION) = .handshakeResponse capabilities)
    (hversion : capabilities.protocolVersion = WORKER_PROTOCOL_VERSION) (h : Used ids handle workers) (hfresh : id ∉ ids) :
    ∃ after, handshake env handle id workers = (.ok capabilities, after) ∧ Used (id :: ids) handle after := by
  have hregular : (answer (.handshakeRequest CORE_VERSION)).Regular := by
    rw [hcapabilities]
    exact fun error herror => (by cases herror)
  obtain ⟨after, hrequest, hused⟩ := request_reliable hreliable hanswers hregular h hfresh
  refine ⟨_, ?_, (by exact hused : Used (id :: ids) handle { after with
    log := ((after.supervisors handle).running.toList.map fun running => .handshook running.incarnation capabilities) ++ after.log })⟩
  unfold handshake
  rw [bind_of_ok hrequest, hcapabilities]
  dsimp only [WorkerEnvelope.new, acceptHandshake]
  rw [if_neg (not_not.2 hversion)]
  rfl

end Workers

end Kide
