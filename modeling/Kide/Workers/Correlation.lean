import Kide.Workers.Exchange

/-!
# Answers belong to their request

`Correlated` is the invariant of the exchange: every message on its way was emitted by its process, every
emitted envelope names a request written to that process before, and a process gets a request id at most
once. The last point is `request_ids.insert`: the ids of a running process cover everything written to it,
so a new request is new to its process. A returned answer therefore is an answer to this very request.
-/

namespace Kide
open Traces Exchange

/-- A returned answer is what its process emitted after it got the request, and to this request only. -/
structure Answers (trace : List ExchangeEvent) (stamp : Nat) (answer : ReturnedAnswer) : Prop where
  requestId : answer.envelope.requestId = answer.request.requestId
  version : answer.envelope.protocolVersion = WORKER_PROTOCOL_VERSION
  noError : ∀ error, answer.envelope.message ≠ .error error
  wrote : At trace answer.written (.wrote answer.incarnation answer.request)
  emitted : At trace answer.emitted (.emitted answer.incarnation (.envelope answer.envelope))
  after : answer.written < answer.emitted
  before : answer.emitted < stamp
  only : ∀ written request, At trace written (.wrote answer.incarnation request) →
    request.requestId = answer.envelope.requestId → written = answer.written

/-- What the place of the caller says about the trace. -/
def CallFits (x : Exchange) : CallState → Prop
  | .writing request incarnation =>
    (∃ running ∈ x.supervisor.running, running.incarnation = incarnation ∧ request.requestId ∈ running.requestIds) ∧
      ∀ written other, At x.trace written (.wrote incarnation other) → other.requestId ≠ request.requestId
  | .waiting request incarnation written => At x.trace written (.wrote incarnation request)
  | _ => True

structure Correlated (x : Exchange) : Prop where
  queued : ∀ i, ∀ m ∈ (x.processes i).stdout ++ (x.processes i).channel, At x.trace m.stamp (.emitted i m.output)
  received : ∀ i, ∀ id ∈ (x.processes i).received,
    ∃ written request, At x.trace written (.wrote i request) ∧ request.requestId = id
  justified : ∀ i stamp envelope, At x.trace stamp (.emitted i (.envelope envelope)) →
    ∃ written request, written < stamp ∧ At x.trace written (.wrote i request) ∧ request.requestId = envelope.requestId
  once : ∀ i written written' request request', At x.trace written (.wrote i request) →
    At x.trace written' (.wrote i request') → request.requestId = request'.requestId → written = written'
  used : ∀ i written request, At x.trace written (.wrote i request) → i < x.spawned
  running : ∀ running ∈ x.supervisor.running, running.incarnation < x.spawned ∧
    ∀ written request, At x.trace written (.wrote running.incarnation request) → request.requestId ∈ running.requestIds
  call : CallFits x x.call
  returned : ∀ stamp answer, At x.trace stamp (.returned answer) → Answers x.trace stamp answer

/-! ## Frames -/

/-- Nothing goes into a pipe or comes out of one. -/
def ExchangeEvent.Silent : ExchangeEvent → Prop
  | .wrote _ _ => False
  | .emitted _ _ => False
  | _ => True

theorem Answers.cons {trace : List ExchangeEvent} {stamp : Nat} {answer : ReturnedAnswer} (h : Answers trace stamp answer)
    {event : ExchangeEvent} (hother : ∀ request, event = .wrote answer.incarnation request →
      request.requestId ≠ answer.envelope.requestId) : Answers (event :: trace) stamp answer := by
  refine ⟨h.requestId, h.version, h.noError, h.wrote.cons event, h.emitted.cons event, h.after, h.before, ?_⟩
  intro written request hwrote hid
  rcases at_cons_iff.1 hwrote with hold | ⟨-, hnew⟩
  · exact h.only written request hold hid
  · exact absurd hid (hother request hnew.symm)

namespace Correlated

variable {x : Exchange}

/-- Only the ids of the running process, the caller and the messages on their way may change. -/
theorem of_same_trace (h : Correlated x) {y : Exchange} (htrace : y.trace = x.trace) (hspawned : y.spawned = x.spawned)
    (hqueued : ∀ i, ∀ m ∈ (y.processes i).stdout ++ (y.processes i).channel,
      m ∈ (x.processes i).stdout ++ (x.processes i).channel)
    (hreceived : ∀ i, (y.processes i).received = (x.processes i).received)
    (hrunning : ∀ running ∈ y.supervisor.running, ∃ old ∈ x.supervisor.running,
      running.incarnation = old.incarnation ∧ ∀ id ∈ old.requestIds, id ∈ running.requestIds)
    (hcall : CallFits y y.call) : Correlated y := by
  refine ⟨?_, ?_, ?_, ?_, ?_, ?_, hcall, ?_⟩ <;> rw [htrace]
  · exact fun i m hm => h.queued i m (hqueued i m hm)
  · intro i id hid
    rw [hreceived] at hid
    exact h.received i id hid
  · exact h.justified
  · exact h.once
  · rw [hspawned]
    exact h.used
  · intro running hmem
    obtain ⟨old, hold, hincarnation, hids⟩ := hrunning running hmem
    rw [hspawned, hincarnation]
    exact ⟨(h.running old hold).1, fun written request hwrote => hids _ ((h.running old hold).2 written request hwrote)⟩
  · exact h.returned

theorem silent (h : Correlated x) {event : ExchangeEvent} (hsilent : event.Silent)
    (hreturned : ∀ answer, event = .returned answer → Answers x.trace x.trace.length answer) :
    Correlated ((x.record event).setCall .idle) := by
  have hwrote : ∀ {stamp i request}, At (event :: x.trace) stamp (.wrote i request) → At x.trace stamp (.wrote i request) := by
    intro stamp i request hat
    refine hat.of_cons ?_
    rintro rfl
    exact hsilent
  refine ⟨?_, ?_, ?_, ?_, ?_, ?_, True.intro, ?_⟩
  · exact fun i m hm => (h.queued i m hm).cons event
  · intro i id hid
    obtain ⟨written, request, hat, heq⟩ := h.received i id hid
    exact ⟨written, request, hat.cons event, heq⟩
  · intro i stamp envelope hat
    have hold : At x.trace stamp (.emitted i (.envelope envelope)) := by
      refine hat.of_cons ?_
      rintro rfl
      exact hsilent
    obtain ⟨written, request, hlt, hwritten, heq⟩ := h.justified i stamp envelope hold
    exact ⟨written, request, hlt, hwritten.cons event, heq⟩
  · exact fun i written written' request request' hat hat' => h.once i written written' request request' (hwrote hat) (hwrote hat')
  · exact fun i written request hat => h.used i written request (hwrote hat)
  · intro running hmem
    exact ⟨(h.running running hmem).1, fun written request hat => (h.running running hmem).2 written request (hwrote hat)⟩
  · intro stamp answer hat
    have hanswers : Answers x.trace stamp answer := by
      rcases at_cons_iff.1 hat with hold | ⟨rfl, heq⟩
      · exact h.returned stamp answer hold
      · exact hreturned answer heq.symm
    refine hanswers.cons ?_
    rintro request rfl
    exact absurd hsilent id

theorem returnError (h : Correlated x) (request : WorkerEnvelope) (error : WorkerSupervisorError) :
    Correlated (x.returnError request error) := h.silent True.intro fun _ heq => (nomatch heq)

theorem setCall (h : Correlated x) {call : CallState} (hcall : CallFits x call) : Correlated (x.setCall call) :=
  h.of_same_trace rfl rfl (fun _ _ hm => hm) (fun _ => rfl) (fun running hmem => ⟨running, hmem, rfl, fun _ hid => hid⟩) hcall

/-! ## One lemma for each effect -/

/-- A process may lose messages and pass them from its stdout to its channel. -/
theorem setProcess (h : Correlated x) (i : Nat) (process : WorkerProcess)
    (hqueued : ∀ m ∈ process.stdout ++ process.channel, m ∈ (x.processes i).stdout ++ (x.processes i).channel)
    (hreceived : process.received = (x.processes i).received) : Correlated (x.setProcess i process) := by
  refine h.of_same_trace rfl rfl ?_ ?_ (fun running hmem => ⟨running, hmem, rfl, fun _ hid => hid⟩) ?_
  · intro j m hm
    by_cases hj : j = i
    · subst hj
      rw [show (x.setProcess j process).processes j = process from Function.update_self _ _ _] at hm
      exact hqueued m hm
    · rwa [show (x.setProcess i process).processes j = x.processes j from Function.update_of_ne hj _ _] at hm
  · intro j
    by_cases hj : j = i
    · subst hj
      rw [show (x.setProcess j process).processes j = process from Function.update_self _ _ _]
      exact hreceived
    · rw [show (x.setProcess i process).processes j = x.processes j from Function.update_of_ne hj _ _]
  · have hcall := h.call
    change CallFits _ x.call
    cases hx : x.call <;> rw [hx] at hcall <;> exact hcall

theorem setRunning_none (h : Correlated x) (hcall : ∀ request i, x.call ≠ .writing request i) :
    Correlated (x.setRunning none) := by
  refine h.of_same_trace rfl rfl (fun _ _ hm => hm) (fun _ => rfl) ?_ ?_
  · intro running hmem
    cases hmem
  · have hfits := h.call
    change CallFits _ x.call
    cases hx : x.call <;> rw [hx] at hfits <;> first | exact hfits | exact absurd hx (hcall _ _)

theorem stop (h : Correlated x) (hcall : ∀ request i, x.call ≠ .writing request i) : Correlated x.stop := by
  unfold Exchange.stop
  split
  · exact h
  · next running _ =>
    have hexit : Correlated (x.setProcess running.incarnation { x.processes running.incarnation with exited := true }) :=
      h.setProcess _ _ (fun _ hm => hm) rfl
    exact hexit.setRunning_none hcall

theorem touch (h : Correlated x) (now : Nat) : Correlated (x.touch now) := by
  refine h.of_same_trace rfl rfl (fun _ _ hm => hm) (fun _ => rfl) ?_ ?_
  · intro running hmem
    obtain ⟨old, hold, rfl⟩ := Option.map_eq_some_iff.1 hmem
    exact ⟨old, hold, rfl, fun _ hid => hid⟩
  · have hfits := h.call
    change CallFits _ x.call
    cases hx : x.call <;> rw [hx] at hfits <;> try exact hfits
    obtain ⟨⟨running, hmem, hincarnation, hid⟩, hnew⟩ := hfits
    exact ⟨⟨{ running with lastActivity := now }, Option.map_eq_some_iff.2 ⟨running, hmem, rfl⟩, hincarnation, hid⟩, hnew⟩

theorem emit (h : Correlated x) (i : Nat) (output : WorkerOutput)
    (hreceived : ∀ envelope, output = .envelope envelope → envelope.requestId ∈ (x.processes i).received) :
    Correlated (x.emit i output) := by
  have hwrote : ∀ {stamp j request}, At (x.emit i output).trace stamp (.wrote j request) → At x.trace stamp (.wrote j request) :=
    fun hat => hat.of_cons (fun heq => (nomatch heq))
  refine ⟨?_, ?_, ?_, ?_, ?_, ?_, ?_, ?_⟩
  · intro j m hm
    by_cases hj : j = i
    · subst hj
      rw [show (x.emit j output).processes j = { x.processes j with
          stdout := (x.processes j).stdout ++ [⟨x.trace.length, output⟩] } from Function.update_self _ _ _] at hm
      rcases List.mem_append.1 hm with hm | hm
      · rcases List.mem_append.1 hm with hm | hm
        · exact (h.queued j m (List.mem_append_left _ hm)).cons _
        · rw [List.mem_singleton.1 hm]
          exact at_head
      · exact (h.queued j m (List.mem_append_right _ hm)).cons _
    · rw [show (x.emit i output).processes j = x.processes j from Function.update_of_ne hj _ _] at hm
      exact (h.queued j m hm).cons _
  · intro j id hid
    have hold : id ∈ (x.processes j).received := by
      by_cases hj : j = i
      · subst hj
        rwa [show (x.emit j output).processes j = { x.processes j with
          stdout := (x.processes j).stdout ++ [⟨x.trace.length, output⟩] } from Function.update_self _ _ _] at hid
      · rwa [show (x.emit i output).processes j = x.processes j from Function.update_of_ne hj _ _] at hid
    obtain ⟨written, request, hat, heq⟩ := h.received j id hold
    exact ⟨written, request, hat.cons _, heq⟩
  · intro j stamp envelope hat
    rcases at_cons_iff.1 hat with hold | ⟨rfl, hnew⟩
    · obtain ⟨written, request, hlt, hwritten, heq⟩ := h.justified j stamp envelope hold
      exact ⟨written, request, hlt, hwritten.cons _, heq⟩
    · cases hnew
      obtain ⟨written, request, hwritten, heq⟩ := h.received _ _ (hreceived envelope rfl)
      exact ⟨written, request, hwritten.lt, hwritten.cons _, heq⟩
  · exact fun j written written' request request' hat hat' => h.once j written written' request request' (hwrote hat) (hwrote hat')
  · exact fun j written request hat => h.used j written request (hwrote hat)
  · intro running hmem
    exact ⟨(h.running running hmem).1, fun written request hat => (h.running running hmem).2 written request (hwrote hat)⟩
  · have hfits := h.call
    change CallFits _ x.call
    cases hx : x.call <;> rw [hx] at hfits <;> try exact hfits
    · exact ⟨hfits.1, fun written other hat => hfits.2 written other (hwrote hat)⟩
    · exact At.cons hfits _
  · intro stamp answer hat
    have hold : At x.trace stamp (.returned answer) := hat.of_cons (fun heq => (nomatch heq))
    exact (h.returned stamp answer hold).cons (fun request heq => (nomatch heq))

theorem spawn (h : Correlated x) {i : Nat} (hfresh : x.spawned ≤ i) (now : Nat)
    (hcall : ∀ call, call = x.call → CallFits x call → CallFits (x.spawn i now) call) : Correlated (x.spawn i now) := by
  have hwrote : ∀ {stamp j request}, At (x.spawn i now).trace stamp (.wrote j request) → At x.trace stamp (.wrote j request) :=
    fun hat => hat.of_cons (fun heq => (nomatch heq))
  refine ⟨?_, ?_, ?_, ?_, ?_, ?_, hcall x.call rfl h.call, ?_⟩
  · intro j m hm
    by_cases hj : j = i
    · subst hj
      rw [show (x.spawn j now).processes j = .spawned from Function.update_self _ _ _] at hm
      cases hm
    · rw [show (x.spawn i now).processes j = x.processes j from Function.update_of_ne hj _ _] at hm
      exact (h.queued j m hm).cons _
  · intro j id hid
    by_cases hj : j = i
    · subst hj
      rw [show (x.spawn j now).processes j = .spawned from Function.update_self _ _ _] at hid
      cases hid
    · rw [show (x.spawn i now).processes j = x.processes j from Function.update_of_ne hj _ _] at hid
      obtain ⟨written, request, hat, heq⟩ := h.received j id hid
      exact ⟨written, request, hat.cons _, heq⟩
  · intro j stamp envelope hat
    have hold : At x.trace stamp (.emitted j (.envelope envelope)) := hat.of_cons (fun heq => (nomatch heq))
    obtain ⟨written, request, hlt, hwritten, heq⟩ := h.justified j stamp envelope hold
    exact ⟨written, request, hlt, hwritten.cons _, heq⟩
  · exact fun j written written' request request' hat hat' => h.once j written written' request request' (hwrote hat) (hwrote hat')
  · intro j written request hat
    have hlt := h.used j written request (hwrote hat)
    change j < i + 1
    omega
  · intro running hmem
    cases hmem
    refine ⟨Nat.lt_succ_self i, fun written request hat => ?_⟩
    have hlt := h.used i written request (hwrote hat)
    omega
  · intro stamp answer hat
    have hold : At x.trace stamp (.returned answer) := hat.of_cons (fun heq => (nomatch heq))
    exact (h.returned stamp answer hold).cons (fun request heq => (nomatch heq))

/-- The write of a request whose id is new to its process. -/
theorem deliver (h : Correlated x) {i : Nat} {request : WorkerEnvelope} (hcall : x.call = .writing request i) :
    Correlated ((x.deliver i request).setCall .idle) := by
  have hfits := h.call
  rw [hcall] at hfits
  obtain ⟨⟨current, hcurrent, rfl, hid⟩, hnew⟩ := hfits
  have hused := (h.running current hcurrent).1
  refine ⟨?_, ?_, ?_, ?_, ?_, ?_, True.intro, ?_⟩
  · intro j m hm
    have hold : m ∈ (x.processes j).stdout ++ (x.processes j).channel := by
      by_cases hj : j = current.incarnation
      · subst hj
        rwa [show ((x.deliver current.incarnation request).setCall .idle).processes current.incarnation =
          { x.processes current.incarnation with
            received := request.requestId :: (x.processes current.incarnation).received } from
          Function.update_self _ _ _] at hm
      · rwa [show ((x.deliver current.incarnation request).setCall .idle).processes j = x.processes j from
          Function.update_of_ne hj _ _] at hm
    exact (h.queued j m hold).cons _
  · intro j id hreceived
    by_cases hj : j = current.incarnation
    · subst hj
      rw [show ((x.deliver current.incarnation request).setCall .idle).processes current.incarnation =
        { x.processes current.incarnation with
          received := request.requestId :: (x.processes current.incarnation).received } from
        Function.update_self _ _ _] at hreceived
      rcases List.mem_cons.1 hreceived with rfl | hold
      · exact ⟨x.trace.length, request, at_head, rfl⟩
      · obtain ⟨written, other, hat, heq⟩ := h.received _ id hold
        exact ⟨written, other, hat.cons _, heq⟩
    · rw [show ((x.deliver current.incarnation request).setCall .idle).processes j = x.processes j from
        Function.update_of_ne hj _ _] at hreceived
      obtain ⟨written, other, hat, heq⟩ := h.received j id hreceived
      exact ⟨written, other, hat.cons _, heq⟩
  · intro j stamp envelope hat
    have hold : At x.trace stamp (.emitted j (.envelope envelope)) := hat.of_cons (fun heq => (nomatch heq))
    obtain ⟨written, other, hlt, hwritten, heq⟩ := h.justified j stamp envelope hold
    exact ⟨written, other, hlt, hwritten.cons _, heq⟩
  · intro j written written' first second hat hat' heq
    rcases at_cons_iff.1 hat with hold | ⟨hlast, hevent⟩ <;> rcases at_cons_iff.1 hat' with hold' | ⟨hlast', hevent'⟩
    · exact h.once j written written' first second hold hold' heq
    · cases hevent'
      exact absurd heq (hnew written first hold)
    · cases hevent
      exact absurd heq.symm (hnew written' second hold')
    · omega
  · intro j written other hat
    rcases at_cons_iff.1 hat with hold | ⟨-, hevent⟩
    · exact h.used j written other hold
    · cases hevent
      exact hused
  · intro running hmem
    have hsame : running = current := Option.mem_unique hmem hcurrent
    subst hsame
    refine ⟨hused, fun written other hat => ?_⟩
    rcases at_cons_iff.1 hat with hold | ⟨-, hevent⟩
    · exact (h.running running hmem).2 written other hold
    · cases hevent
      exact hid
  · intro stamp answer hat
    have hold : At x.trace stamp (.returned answer) := hat.of_cons (fun heq => (nomatch heq))
    have hanswer := h.returned stamp answer hold
    refine hanswer.cons ?_
    intro other heq hsame
    injection heq with hincarnation hrequest
    subst hrequest
    have hwrote := hanswer.wrote
    rw [← hincarnation] at hwrote
    exact hnew answer.written answer.request hwrote (hanswer.requestId.symm.trans hsame.symm)

theorem register (h : Correlated x) {running : RunningWorker} {request : WorkerEnvelope}
    (hrunning : x.supervisor.running = some running) (hfresh : request.requestId ∉ running.requestIds) :
    Correlated ((x.setRunning (some { running with requestIds := request.requestId :: running.requestIds })).setCall
      (.writing request running.incarnation)) := by
  refine h.of_same_trace rfl rfl (fun _ _ hm => hm) (fun _ => rfl) ?_ ⟨⟨_, rfl, rfl, List.mem_cons_self⟩, ?_⟩
  · intro new hnew
    cases hnew
    exact ⟨running, hrunning, rfl, fun _ hid => List.mem_cons_of_mem _ hid⟩
  · intro written other hwrote heq
    have hid := (h.running running hrunning).2 written other hwrote
    exact hfresh (heq ▸ hid)

end Correlated

theorem judgeOutput_ok {requestId : String} {output : WorkerOutput} {envelope : WorkerEnvelope}
    (h : judgeOutput requestId output = .ok envelope) :
    output = .envelope envelope ∧ envelope.protocolVersion = WORKER_PROTOCOL_VERSION ∧
      envelope.requestId = requestId ∧ ∀ error, envelope.message ≠ .error error := by
  unfold judgeOutput at h
  split at h
  · cases h
  · cases h
  · split at h
    · cases h
    · next hversion =>
      split at h
      · cases h
      · next hid =>
        split at h
        · cases h
        · next hmessage =>
          cases h
          exact ⟨rfl, not_not.1 hversion, not_not.1 hid, hmessage⟩

namespace Correlated

variable {x : Exchange}

/-- The process got the id once, by the request the caller waits for, and emitted the answer after that. -/
theorem answers (h : Correlated x) {request envelope : WorkerEnvelope} {i written stamp : Nat}
    (hwrote : At x.trace written (.wrote i request)) (hemitted : At x.trace stamp (.emitted i (.envelope envelope)))
    (hversion : envelope.protocolVersion = WORKER_PROTOCOL_VERSION) (hid : envelope.requestId = request.requestId)
    (herror : ∀ error, envelope.message ≠ .error error) :
    Answers x.trace x.trace.length ⟨request, i, written, stamp, envelope⟩ := by
  obtain ⟨first, other, hlt, hfirst, hsame⟩ := h.justified i stamp envelope hemitted
  have hthis : first = written := h.once i first written other request hfirst hwrote (hsame.trans hid)
  rw [hthis] at hlt
  refine ⟨hid, hversion, herror, hwrote, hemitted, hlt, hemitted.lt, ?_⟩
  intro later again hat heq
  exact h.once i later written again request hat hwrote (heq.trans hid)

theorem receive (h : Correlated x) {request : WorkerEnvelope} {i written : Nat} (now : Nat) {emission : Emission}
    {rest : List Emission} (hcall : x.call = .waiting request i written)
    (hchannel : (x.processes i).channel = emission :: rest) :
    Correlated (x.receive request i written now emission rest) := by
  have hemitted : At x.trace emission.stamp (.emitted i emission.output) := by
    apply h.queued i emission
    rw [hchannel]
    exact List.mem_append_right _ List.mem_cons_self
  have hwrote : At x.trace written (.wrote i request) := by
    have hfits := h.call
    rwa [hcall] at hfits
  have htaken : Correlated (x.setProcess i { x.processes i with channel := rest }) := by
    refine h.setProcess i _ ?_ rfl
    intro m hm
    rw [hchannel]
    rcases List.mem_append.1 hm with hm | hm
    · exact List.mem_append_left _ hm
    · exact List.mem_append_right _ (List.mem_cons_of_mem _ hm)
  unfold Exchange.receive
  simp only
  split
  · refine (htaken.stop ?_).returnError _ _
    intro _ _ hwriting
    exact absurd (hcall.symm.trans hwriting) (fun heq => (nomatch heq))
  · exact htaken.returnError _ _
  · next envelope hjudge =>
    obtain ⟨houtput, hversion, hid, herror⟩ := judgeOutput_ok hjudge
    rw [houtput] at hemitted
    refine (htaken.touch now).silent True.intro ?_
    intro answer heq
    cases heq
    exact (htaken.touch now).answers hwrote hemitted hversion hid herror

/-! ## Steps and runs -/

theorem new (launch : WorkerLaunch) : Correlated (.new launch) where
  queued _ _ hm := (nomatch hm)
  received _ _ hid := (nomatch hid)
  justified _ _ _ hat := absurd hat not_at_nil
  once _ _ _ _ _ hat := absurd hat not_at_nil
  used _ _ _ hat := absurd hat not_at_nil
  running _ hmem := (nomatch hmem)
  call := True.intro
  returned _ _ hat := absurd hat not_at_nil

theorem step {y : Exchange} (hstep : Step x y) (h : Correlated x) : Correlated y := by
  -- a caller that is not writing may lose its process
  have hfree : ∀ {call : CallState}, x.call = call → (∀ request i, call ≠ .writing request i) →
      ∀ request i, x.call ≠ .writing request i := by
    intro call hcall hne request i
    rw [hcall]
    exact hne request i
  cases hstep with
  | emit i output halive hreceived => exact h.emit i output hreceived
  | exit i => exact h.setProcess i _ (fun _ hm => hm) rfl
  | readFrame i emission rest hreading hstdout =>
    refine h.setProcess i _ ?_ rfl
    intro m hm
    rw [hstdout]
    simp only [List.mem_append, List.mem_cons, List.not_mem_nil, or_false] at hm ⊢
    rcases hm with hm | hm | hm
    · exact .inl (.inr hm)
    · exact .inr hm
    · exact .inl (.inl hm)
  | readEnd i hstdout => exact h.setProcess i _ (fun _ hm => hm) rfl
  | stop hcall => exact h.stop (hfree hcall fun _ _ heq => by cases heq)
  | discard running hcall hrunning hexited => exact h.setRunning_none (hfree hcall fun _ _ heq => by cases heq)
  | refuse request hcall hversion => exact h.returnError _ _
  | enter request hcall hversion => exact h.setCall True.intro
  | reapExpired request hcall => exact (h.stop (hfree hcall fun _ _ heq => by cases heq)).setCall True.intro
  | reapFresh request hcall => exact h.setCall True.intro
  | discardExited request running hcall hrunning hexited =>
    exact (h.setRunning_none (hfree hcall fun _ _ heq => by cases heq)).setCall True.intro
  | discardNone request hcall => exact h.setCall True.intro
  | alreadyRunning request running hcall hrunning => exact h.setCall True.intro
  | spawn request i now hcall hrunning hfresh =>
    refine (h.spawn hfresh now ?_).setCall True.intro
    rintro call rfl hfits
    rw [hcall]
    exact True.intro
  | spawnFails request hcall hrunning => exact h.returnError _ _
  | duplicate request running hcall hrunning hused => exact h.returnError _ _
  | register request running hcall hrunning hfresh => exact h.register hrunning hfresh
  | notEncodable request i hcall => exact h.returnError _ _
  | writeFails request i hcall => exact h.returnError _ _
  | writeBreaks request i hcall => exact (h.deliver hcall).returnError _ _
  | write request i now hcall => exact ((h.deliver hcall).touch now).setCall at_head
  | receive request i written now emission rest hcall hchannel => exact h.receive now hcall hchannel
  | timeout request i written limit hcall hchannel =>
    exact (h.stop (hfree hcall fun _ _ heq => by cases heq)).returnError _ _
  | disconnected request i written hcall hchannel hreading =>
    exact (h.stop (hfree hcall fun _ _ heq => by cases heq)).returnError _ _

theorem reachable {launch : WorkerLaunch} (h : Reachable Step (.new launch) x) : Correlated x :=
  h.invariant (Correlated.new launch) fun _ _ hstep hx => hx.step hstep

end Correlated

/-- In every run, whatever a request returns is an answer its own process emitted to it after it was written. -/
theorem returned_answers_request {launch : WorkerLaunch} {x : Exchange} (hrun : Reachable Step (.new launch) x)
    {stamp : Nat} {answer : ReturnedAnswer} (hreturned : At x.trace stamp (.returned answer)) :
    Answers x.trace stamp answer := (Correlated.reachable hrun).returned stamp answer hreturned

/-! ## A run with a late answer

The first process gets request `1` and is stopped when the time is up; its answer comes too late. The
second process gets request `1` again and answers it. -/

def lateLaunch : WorkerLaunch := ⟨"worker", [], none, [], 30, 30⟩

def lateRequest : WorkerEnvelope := .new "1" (.handshakeRequest "0.1.0")

def lateAnswer : WorkerEnvelope := .new "1" (.other "late")

def secondAnswer : WorkerEnvelope := .new "1" (.other "second")

/-- The caller has written request `1` to the process it started. -/
def Exchange.asked (x : Exchange) (incarnation : Nat) : Exchange :=
  let registered := (((x.setCall (.spawning lateRequest)).spawn incarnation 0).setCall
    (.registering lateRequest)).setRunning (some ⟨incarnation, ["1"], 0⟩)
  let writing := registered.setCall (.writing lateRequest incarnation)
  ((writing.deliver incarnation lateRequest).touch 0).setCall (.waiting lateRequest incarnation writing.trace.length)

theorem Exchange.asked_reachable {launch : WorkerLaunch} {x : Exchange} (h : Reachable Step (.new launch) x)
    (hcall : x.call = .idle) (hrunning : x.supervisor.running = none) : Reachable Step (.new launch) (x.asked x.spawned) := by
  have hreaping := h.next (.enter lateRequest hcall rfl)
  have hdiscarding := hreaping.next (.reapFresh lateRequest rfl)
  have hspawning := hdiscarding.next (.discardNone lateRequest rfl)
  have hspawned := hspawning.next (.spawn lateRequest x.spawned 0 rfl hrunning (Nat.le_refl _))
  have hregistered := hspawned.next (.register lateRequest ⟨x.spawned, [], 0⟩ rfl rfl (nomatch ·))
  exact hregistered.next (.write lateRequest x.spawned 0 rfl)

def lateExchange : Exchange :=
  let first := (((Exchange.new lateLaunch).asked 0).emit 0 (.envelope lateAnswer)).stop.returnError lateRequest (.timedOut 30)
  let second := (first.asked 1).emit 1 (.envelope secondAnswer)
  (second.readFrame 1 ⟨6, .envelope secondAnswer⟩ []).receive lateRequest 1 5 0 ⟨6, .envelope secondAnswer⟩ []

theorem lateExchange_reachable : Reachable Step (.new lateLaunch) lateExchange := by
  have hstart : Reachable Step (.new lateLaunch) (.new lateLaunch) := Reachable.start
  have hasked := Exchange.asked_reachable hstart rfl rfl
  have hlate := hasked.next (.emit 0 (.envelope lateAnswer) rfl fun _ heq => by cases heq; decide)
  have hstopped := hlate.next (.timeout lateRequest 0 1 30 rfl rfl)
  have hagain := Exchange.asked_reachable hstopped rfl rfl
  have hanswer := hagain.next (.emit 1 (.envelope secondAnswer) rfl fun _ heq => by cases heq; decide)
  have hread := hanswer.next (.readFrame 1 ⟨6, .envelope secondAnswer⟩ [] rfl rfl)
  exact hread.next (.receive lateRequest 1 5 0 ⟨6, .envelope secondAnswer⟩ [] rfl rfl)

theorem lateExchange_returns_second :
    Answers lateExchange.trace 7 ⟨lateRequest, 1, 5, 6, secondAnswer⟩ :=
  returned_answers_request lateExchange_reachable rfl

end Kide
