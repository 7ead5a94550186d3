import Kide.Workers.Dispatch
import Kide.Workers.Framing

/-!
# The worker on its pipe

`serve` (`Main.kt`): the worker reads a frame, answers it and writes the response, until the stream ends or a frame cannot be read.
Whatever the bytes, Core reads one response to each request, in the order of the requests (`serve_answers`).
-/

namespace Kide
namespace JvmServer
open Varints
open WorkerProto (Envelope)

/-- How the process ends. A response that is too long for an array ends it without a word. -/
inductive Ending where
  | closed
  | refused
  | crashed
  | outOfFuel
deriving DecidableEq, Repr

structure Served where
  output : Bytes
  ending : Ending
deriving DecidableEq, Repr

section
variable {Manifest : Type} (protobuf : Protobuf Envelope) (text : PlanText Manifest) (host : Host) (turns : Nat → Turn Manifest)

/-- The message of an exception of the reader; the one of the protobuf library is its own. -/
def exceptionMessage (library : String) : ProtobufFraming.Exception → String
  | .illegalArgument message => message
  | .eof message => message
  | .invalidProtocolBuffer => library

variable (library : String)

def farewell (error : ProtobufFraming.Exception) : Envelope :=
  protocolError "unknown" "invalid_request" (exceptionMessage library error) none

/-- `dispatch` itself catches what its branches throw. -/
def serve : Nat → Nat → Plans → Bytes → Served
  | 0, _, _, _ => ⟨[], .outOfFuel⟩
  | fuel + 1, index, plans, input =>
    match ProtobufFraming.read protobuf input with
    | .returned none => ⟨[], .closed⟩
    | .panicked => ⟨[], .crashed⟩
    | .failed error =>
      match ProtobufFraming.write protobuf (farewell library error) with
      | some bytes => ⟨bytes, .refused⟩
      | none => ⟨[], .crashed⟩
    | .returned (some (request, rest)) =>
      let answered := dispatch text host (turns index) plans request
      match ProtobufFraming.write protobuf answered.2 with
      | some bytes =>
        let served := serve fuel (index + 1) answered.1 rest
        ⟨bytes ++ served.output, served.ending⟩
      | none => ⟨[], .crashed⟩

/-! ## What is asked -/

/-- The frames at the start of a string, one after the other. -/
def Reads : Bytes → List Envelope → Bytes → Prop
  | input, [], rest => input = rest
  | input, request :: requests, rest => ∃ next, ProtobufFraming.read protobuf input = .returned (some (request, next)) ∧ Reads next requests rest

/-- What the worker says when no frame follows. -/
def lastWords (rest : Bytes) : List Envelope :=
  match ProtobufFraming.read protobuf rest with
  | .failed error => [farewell library error]
  | _ => []

/-- All that the worker has to write. -/
def responses (index : Nat) (plans : Plans) (requests : List Envelope) (rest : Bytes) : List Envelope :=
  (run text host turns index plans requests).1.map Prod.snd ++ lastWords protobuf library rest

def Fits (envelope : Envelope) : Prop := (protobuf.encoder.encode envelope).length ≤ ProtobufFraming.INT_MAX

instance (envelope : Envelope) : Decidable (Fits protobuf envelope) := inferInstanceAs (Decidable (_ ≤ _))

/-- No frame can be read. -/
def AtEnd (rest : Bytes) : Prop := ∀ request next, ProtobufFraming.read protobuf rest ≠ .returned (some (request, next))

end

/-! ## Reading -/

section
variable {protobuf : Protobuf Envelope}

theorem readLength_length {current : UInt8} {length : UInt64} {shift : Nat} {input : Bytes} {found : UInt64 × Bytes}
    (h : ProtobufFraming.readLength current length shift input = .ok found) : found.2.length ≤ input.length := by
  induction input generalizing current length shift with
  | nil =>
    unfold ProtobufFraming.readLength at h
    split at h
    · cases h
      exact le_rfl
    · split at h
      · cases h
      · cases h
  | cons byte input ih =>
    unfold ProtobufFraming.readLength at h
    split at h
    · cases h
      exact le_rfl
    · split at h
      · cases h
      · exact (ih h).trans (Nat.le_succ _)

variable (protobuf) in
/-- A frame takes at least a byte, the end of the stream is told apart from everything else, and nothing panics. -/
theorem read_cases (input : Bytes) :
    (input = [] ∧ ProtobufFraming.read protobuf input = .returned none) ∨
      (input ≠ [] ∧ ((∃ error, ProtobufFraming.read protobuf input = .failed error) ∨
        ∃ envelope rest, ProtobufFraming.read protobuf input = .returned (some (envelope, rest)) ∧ rest.length < input.length)) := by
  cases input with
  | nil => exact .inl ⟨rfl, rfl⟩
  | cons first input =>
    refine .inr ⟨List.cons_ne_nil _ _, ?_⟩
    unfold ProtobufFraming.read
    dsimp only
    split
    · exact .inl ⟨_, rfl⟩
    · next length rest hlength =>
      have hrest := readLength_length hlength
      dsimp only at hrest
      split
      · exact .inl ⟨_, rfl⟩
      · split
        · exact .inl ⟨_, rfl⟩
        · next payload _ =>
          split
          · exact .inl ⟨_, rfl⟩
          · split
            · refine .inr ⟨_, _, rfl, ?_⟩
              rw [List.length_drop, List.length_cons]
              omega
            · exact .inl ⟨_, rfl⟩

theorem write_of_fits {envelope : Envelope} (h : Fits protobuf envelope) :
    ProtobufFraming.write protobuf envelope = some (frameOf protobuf envelope) :=
  @Side.write_eq _ protobuf .worker envelope h

theorem write_of_not_fits {envelope : Envelope} (h : ¬ Fits protobuf envelope) : ProtobufFraming.write protobuf envelope = none := if_neg h

end

/-! ## Serving -/

section
variable {Manifest : Type} {protobuf : Protobuf Envelope} {text : PlanText Manifest} {host : Host} {turns : Nat → Turn Manifest}
  {library : String}

theorem run_answered {index : Nat} {plans : Plans} {requests : List Envelope} :
    List.Forall₂ Answered requests ((run text host turns index plans requests).1.map Prod.snd) := by
  induction requests generalizing index plans with
  | nil => exact .nil
  | cons request requests ih =>
    rw [run, List.map_cons]
    exact .cons (dispatch_answers plans request) ih

/-- What a session of the worker is: the responses are on the pipe up to the first that does not fit, and there the process ends. -/
structure Session (protobuf : Protobuf Envelope) (all : List Envelope) (rest : Bytes) (served : Served) : Prop where
  output : served.output = (all.takeWhile fun response => Fits protobuf response).flatMap (frameOf protobuf)
  closed : served.ending = .closed ↔ rest = [] ∧ ∀ response ∈ all, Fits protobuf response
  refused : served.ending = .refused ↔ rest ≠ [] ∧ ∀ response ∈ all, Fits protobuf response
  crashed : served.ending = .crashed ↔ ∃ response ∈ all, ¬ Fits protobuf response

theorem session_closed : Session protobuf [] [] ⟨[], .closed⟩ where
  output := rfl
  closed := iff_of_true rfl ⟨rfl, List.forall_mem_nil _⟩
  refused := iff_of_false (by decide) fun h => h.1 rfl
  crashed := iff_of_false (by decide) fun ⟨_, hmem, _⟩ => absurd hmem List.not_mem_nil

/-- A response before the rest of the session. -/
theorem Session.cons {all : List Envelope} {rest : Bytes} {served : Served} {response : Envelope} (h : Session protobuf all rest served)
    (hfits : Fits protobuf response) :
    Session protobuf (response :: all) rest ⟨frameOf protobuf response ++ served.output, served.ending⟩ where
  output := by
    have htake : (response :: all).takeWhile (fun other => decide (Fits protobuf other)) =
        response :: all.takeWhile (fun other => decide (Fits protobuf other)) := List.takeWhile_cons_of_pos (decide_eq_true hfits)
    rw [htake, List.flatMap_cons, h.output]
  closed := by
    rw [List.forall_mem_cons, and_iff_right hfits]
    exact h.closed
  refused := by
    rw [List.forall_mem_cons, and_iff_right hfits]
    exact h.refused
  crashed := by
    rw [List.exists_mem_cons_iff, or_iff_right (not_not_intro hfits)]
    exact h.crashed

/-- The word before the process gives up. -/
theorem session_refused {rest : Bytes} {response : Envelope} (hrest : rest ≠ []) (hfits : Fits protobuf response) :
    Session protobuf [response] rest ⟨frameOf protobuf response, .refused⟩ where
  output := by
    have htake : [response].takeWhile (fun other => decide (Fits protobuf other)) = [response] :=
      List.takeWhile_cons_of_pos (decide_eq_true hfits)
    rw [htake, List.flatMap_singleton]
  closed := iff_of_false (fun h => by cases h) fun h => hrest h.1
  refused := iff_of_true rfl ⟨hrest, List.forall_mem_singleton.2 hfits⟩
  crashed := by
    refine iff_of_false (fun h => by cases h) ?_
    rintro ⟨other, hother, hlong⟩
    rw [List.mem_singleton.1 hother] at hlong
    exact hlong hfits

/-- A response that does not fit. -/
theorem session_crashed (all : List Envelope) (rest : Bytes) {response : Envelope} (h : ¬ Fits protobuf response) :
    Session protobuf (response :: all) rest ⟨[], .crashed⟩ where
  output := by
    have htake : (response :: all).takeWhile (fun other => decide (Fits protobuf other)) = [] :=
      List.takeWhile_cons_of_neg (by rwa [decide_eq_true_iff])
    rw [htake, List.flatMap_nil]
  closed := iff_of_false (by decide) fun hall => h (hall.2 response List.mem_cons_self)
  refused := iff_of_false (by decide) fun hall => h (hall.2 response List.mem_cons_self)
  crashed := iff_of_true rfl ⟨response, List.mem_cons_self, h⟩

/-- The end of the stream, or what cannot be read. -/
theorem serve_atEnd {fuel index : Nat} {plans : Plans} {rest : Bytes} (h : AtEnd protobuf rest) :
    Session protobuf (lastWords protobuf library rest) rest (serve protobuf text host turns library (fuel + 1) index plans rest) := by
  obtain ⟨rfl, hread⟩ | ⟨hne, ⟨error, hread⟩ | ⟨request, next, hread, -⟩⟩ := read_cases protobuf rest
  · rw [serve, lastWords, hread]
    exact session_closed
  · rw [serve, lastWords, hread]
    dsimp only
    by_cases hfits : Fits protobuf (farewell library error)
    · rw [write_of_fits hfits]
      exact session_refused hne hfits
    · rw [write_of_not_fits hfits]
      exact session_crashed [] rest hfits
  · exact absurd hread (h request next)

theorem serve_session {fuel : Nat} (index : Nat) (plans : Plans) {input : Bytes} (hfuel : input.length < fuel) :
    ∃ requests rest, Reads protobuf input requests rest ∧ AtEnd protobuf rest ∧
      Session protobuf (responses protobuf text host turns library index plans requests rest) rest
        (serve protobuf text host turns library fuel index plans input) := by
  induction fuel generalizing index plans input with
  | zero => omega
  | succ fuel ih =>
    by_cases hend : AtEnd protobuf input
    · exact ⟨[], input, rfl, hend, serve_atEnd hend⟩
    obtain ⟨rfl, hread⟩ | ⟨-, ⟨error, hread⟩ | ⟨request, next, hread, hshorter⟩⟩ := read_cases protobuf input
    · exact absurd (fun _ _ hsome => by rw [hread] at hsome; cases hsome) hend
    · exact absurd (fun _ _ hsome => by rw [hread] at hsome; cases hsome) hend
    obtain ⟨requests, rest, hreads, hrest, hsession⟩ :=
      @ih (index + 1) (dispatch text host (turns index) plans request).1 next (by omega)
    refine ⟨request :: requests, rest, ⟨next, hread, hreads⟩, hrest, ?_⟩
    rw [serve, hread]
    dsimp only
    by_cases hfits : Fits protobuf (dispatch text host (turns index) plans request).2
    · rw [write_of_fits hfits]
      exact hsession.cons hfits
    · rw [write_of_not_fits hfits]
      exact session_crashed _ rest hfits

/-- **Serving.** The worker takes the frames off any string and answers each of them before it reads the next, so that Core reads
one response to each request, in their order, up to the first that no array can hold. Where the string ends between two
frames the process ends in silence; where a frame cannot be read Core is told so, under an id of its own, and the process ends. -/
theorem serve_answers (plans : Plans) (input : Bytes) :
    ∃ requests rest, Reads protobuf input requests rest ∧ AtEnd protobuf rest ∧
      List.Forall₂ Answered requests ((run text host turns 0 plans requests).1.map Prod.snd) ∧
      Session protobuf (responses protobuf text host turns library 0 plans requests rest) rest
        (serve protobuf text host turns library (input.length + 1) 0 plans input) ∧
      Side.core.ReadsAll protobuf (serve protobuf text host turns library (input.length + 1) 0 plans input).output
        ((responses protobuf text host turns library 0 plans requests rest).takeWhile fun response => Fits protobuf response) := by
  obtain ⟨requests, rest, hreads, hrest, hsession⟩ :=
    @serve_session _ protobuf text host turns library (input.length + 1) 0 plans input (Nat.lt_succ_self _)
  refine ⟨requests, rest, hreads, hrest, run_answered, hsession, ?_⟩
  rw [hsession.output]
  refine readsAll_frames protobuf .core fun response hresponse => ?_
  have hfits := List.mem_takeWhile_imp hresponse
  exact of_decide_eq_true hfits

end

end JvmServer
end Kide
