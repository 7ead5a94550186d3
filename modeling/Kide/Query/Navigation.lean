import Kide.Index.FreshnessGate
import Kide.Query.Resolver

/-!
# The type at a position

`type_at` (`navigation.rs`): of the occurrences that contain the offset, in the order in which the store returns them,
the first with a type. The store returns the one that starts last, and of these the one that ends first.

`typeAt_narrowest_iff`: that is a narrowest one exactly where no typed occurrence that starts earlier is shorter, as among
nested ranges; where ranges overlap in part, the later one may be the longer.
-/

namespace Kide
open Checks

/-! ## The command -/

namespace IndexStore

/-- `ORDER BY type_id` -/
def typesFor (store : IndexStore) (sourceUnit : SourceUnitId) : List TypeRecord :=
  ((store.typeRecords.filter (·.sourceUnitId = sourceUnit)).insertionSort fun a b =>
    a.typeId.asStr ≤ b.typeId.asStr).map (·.recordJson)

end IndexStore

inductive QueryStatus where
  | ok | noResult | ambiguous | stale | unsupported | invalidRequest | failed
deriving DecidableEq, Repr

structure QueryAnswer where
  status : QueryStatus
  result : Option QueryPayload
  problems : List QueryProblem
deriving DecidableEq

inductive NavigationError where
  | notUniquelyIndexed
  | resolver (source : LocationResolutionError)
  | store (source : IndexStoreError)
deriving DecidableEq

/-- The occurrence and its type, before the gate. -/
def typedOccurrenceAt (store : IndexStore) (sourceUnit : SourceUnitId) (offset : Nat) :
    Except IndexStoreError (Option (SourceOccurrence × TypeRecord)) := do
  let occurrences ← store.occurrencesAt sourceUnit offset
  match occurrences.find? (·.typeId.isSome) with
  | none => .ok none
  | some occurrence =>
    match occurrence.typeId with
    | none => .ok none
    | some typeId => .ok (((store.typesFor sourceUnit).find? (·.id = typeId)).map (occurrence, ·))

section
variable (sha256 : Bytes → String) (configuration : EffectiveConfiguration) (files : WorkspaceFiles) (store : IndexStore)

/-- An answer whose inputs changed is withheld, on the human path as in `print_query_response`. -/
def gated (answer : QueryAnswer) : QueryAnswer :=
  match answer.status, answer.result with
  | .ok, some payload =>
    match freshnessProblem sha256 configuration files store payload with
    | some problem => ⟨.stale, none, answer.problems ++ [problem]⟩
    | none => answer
  | _, _ => answer

def typeAt (location : Location) (sourceText : String) : Except NavigationError QueryAnswer :=
  match store.sourceUnitsAtPath location.path with
  | [sourceUnit] => do
    let offset ← (byteOffset sourceText location.position).mapError .resolver
    let found ← (typedOccurrenceAt store sourceUnit.id offset).mapError .store
    let answer : QueryAnswer :=
      match found with
      | some (occurrence, ty) => ⟨.ok, some (.typeAt occurrence ty), []⟩
      | none => ⟨.noResult, none, []⟩
    .ok (gated sha256 configuration files store answer)
  | _ => .error .notUniquelyIndexed

end

/-! ## Typed occurrences -/

structure TypedAt (occurrences : List SourceOccurrence) (offset : Nat) (o : SourceOccurrence) : Prop where
  mem : o ∈ occurrences
  contains : o.range.bytes.Contains offset
  typed : o.typeId ≠ none

/-- A typed occurrence that contains the offset and is no longer than any other. -/
def NarrowestTyped (occurrences : List SourceOccurrence) (offset : Nat) (o : SourceOccurrence) : Prop :=
  TypedAt occurrences offset o ∧
    ∀ other, TypedAt occurrences offset other → o.range.bytes.length ≤ other.range.bytes.length

/-- In the order of the store no range comes before this one. -/
def ByteRange.First (range other : ByteRange) : Prop :=
  other.start < range.start ∨ (range.start = other.start ∧ range.stop ≤ other.stop)

instance (range other : ByteRange) : Decidable (range.First other) := inferInstanceAs (Decidable (_ ∨ _))

/-- A typed occurrence that contains the offset and starts last, and of these ends first. -/
def LatestTyped (occurrences : List SourceOccurrence) (offset : Nat) (o : SourceOccurrence) : Prop :=
  TypedAt occurrences offset o ∧ ∀ other, TypedAt occurrences offset other → o.range.bytes.First other.range.bytes

/-- The typed occurrence that starts last is no longer than one that starts before it. -/
def LatestNarrowest (occurrences : List SourceOccurrence) (offset : Nat) : Prop :=
  ∀ o, LatestTyped occurrences offset o → ∀ other, TypedAt occurrences offset other →
    o.range.bytes.length ≤ other.range.bytes.length

/-! ## The order of the store -/

/-- What is found first in a sorted list is before everything else that fits. -/
theorem first_of_find {α : Type} {r : α → α → Prop} {l : List α} {p : α → Bool} {a : α} (hsorted : l.Pairwise r)
    (hfind : l.find? p = some a) {b : α} (hb : b ∈ l) (hp : p b = true) : b = a ∨ r a b := by
  obtain ⟨-, before, after, rfl, hbefore⟩ := List.find?_eq_some_iff_append.1 hfind
  rcases List.mem_append.1 hb with hmem | hmem
  · have hnot := hbefore b hmem
    rw [hp] at hnot
    cases hnot
  · rcases List.mem_cons.1 hmem with rfl | hafter
    · exact .inl rfl
    · exact .inr ((List.pairwise_cons.1 (List.pairwise_append.1 hsorted).2.1).1 b hafter)

theorem sorted_occurrenceRows (rows : List OccurrenceRow) :
    (rows.insertionSort fun a b => b.startByte < a.startByte ∨ (a.startByte = b.startByte ∧ a.endByte ≤ b.endByte)).Pairwise
      fun a b => b.startByte < a.startByte ∨ (a.startByte = b.startByte ∧ a.endByte ≤ b.endByte) := by
  have htotal : Std.Total fun a b : OccurrenceRow =>
      b.startByte < a.startByte ∨ (a.startByte = b.startByte ∧ a.endByte ≤ b.endByte) := ⟨fun a b => by omega⟩
  have htrans : IsTrans OccurrenceRow fun a b =>
      b.startByte < a.startByte ∨ (a.startByte = b.startByte ∧ a.endByte ≤ b.endByte) := ⟨fun a b c => by omega⟩
  exact List.pairwise_insertionSort _ rows

section
variable {store : IndexStore} {live : List FileAnalysisSnapshot} {snapshot : FileAnalysisSnapshot}

theorem Holds.sorted_occurrencesAt (h : Holds store live) {sourceUnit : SourceUnitId} {offset : Nat}
    {found : List SourceOccurrence} (hfound : store.occurrencesAt sourceUnit offset = .ok found) :
    found.Pairwise fun a b => a.range.bytes.First b.range.bytes := by
  unfold IndexStore.occurrencesAt at hfound
  obtain ⟨bound, -, hfound⟩ := bind_eq_ok_iff.1 hfound
  cases hfound
  refine List.pairwise_map.2 ((sorted_occurrenceRows _).imp_of_mem fun {a b} ha hb hfirst => ?_)
  obtain ⟨_, -, o, -, rfl⟩ := h.mem_occurrences.1 (List.mem_filter.1 ((List.mem_insertionSort _).1 ha)).1
  obtain ⟨_, -, p, -, rfl⟩ := h.mem_occurrences.1 (List.mem_filter.1 ((List.mem_insertionSort _).1 hb)).1
  exact hfirst

/-- The answer is the occurrence that starts last. -/
theorem Holds.typedOccurrenceAt_latest (h : Holds store live) (hs : snapshot ∈ live) {offset : Nat}
    {occurrence : SourceOccurrence} {ty : TypeRecord}
    (hfound : typedOccurrenceAt store snapshot.id offset = .ok (some (occurrence, ty))) :
    LatestTyped snapshot.occurrences offset occurrence := by
  unfold typedOccurrenceAt at hfound
  obtain ⟨found, hoccurrences, hfound⟩ := bind_eq_ok_iff.1 hfound
  cases hfind : found.find? (·.typeId.isSome) with
  | none =>
    rw [hfind] at hfound
    cases hfound
  | some first =>
    have hsome : first.typeId.isSome = true := List.find?_some (p := fun o : SourceOccurrence => o.typeId.isSome) hfind
    obtain ⟨typeId, htype⟩ := Option.isSome_iff_exists.1 hsome
    rw [hfind] at hfound
    dsimp only at hfound
    rw [htype] at hfound
    obtain ⟨_, -, hpair⟩ := Option.map_eq_some_iff.1 (Except.ok.inj hfound)
    obtain rfl : first = occurrence := congrArg Prod.fst hpair
    have hmem := (h.mem_occurrencesAt hs hoccurrences).1 (List.mem_of_find?_eq_some hfind)
    refine ⟨⟨hmem.1, hmem.2, fun hnone => ?_⟩, fun other hother => ?_⟩
    · rw [htype] at hnone
      cases hnone
    · have hother' := (h.mem_occurrencesAt hs hoccurrences).2 ⟨hother.mem, hother.contains⟩
      rcases first_of_find (h.sorted_occurrencesAt hoccurrences) hfind hother' (Option.isSome_iff_ne_none.2 hother.typed) with
        rfl | hfirst
      · exact .inr ⟨rfl, Nat.le_refl _⟩
      · exact hfirst

end

/-! ## Overlapping ranges -/

/-- Occurrences that start last have one range, in whatever order they were stored. -/
theorem LatestTyped.bytes_eq {occurrences : List SourceOccurrence} {offset : Nat} {a b : SourceOccurrence}
    (ha : LatestTyped occurrences offset a) (hb : LatestTyped occurrences offset b) : a.range.bytes = b.range.bytes := by
  have hab := ha.2 b hb.1
  have hba := hb.2 a ha.1
  unfold ByteRange.First at hab hba
  have hstart : a.range.bytes.start = b.range.bytes.start := by omega
  have hstop : a.range.bytes.stop = b.range.bytes.stop := by omega
  exact ByteRange.mk.injEq _ _ _ _ ▸ ⟨hstart, hstop⟩

/-- Among nested ranges the one that starts last is the narrowest. -/
theorem latestNarrowest_of_nested {occurrences : List SourceOccurrence} {offset : Nat}
    (hnested : ∀ a b, TypedAt occurrences offset a → TypedAt occurrences offset b →
      a.range.bytes.start < b.range.bytes.start → b.range.bytes.stop ≤ a.range.bytes.stop) :
    LatestNarrowest occurrences offset := by
  intro o ho other hother
  have hfirst := ho.2 other hother
  have hinside := hnested other o hother ho.1
  unfold ByteRange.First at hfirst
  unfold ByteRange.length
  omega

theorem gated_result {sha256 : Bytes → String} {configuration : EffectiveConfiguration} {files : WorkspaceFiles}
    {store : IndexStore} {answer : QueryAnswer} {payload : QueryPayload}
    (h : (gated sha256 configuration files store answer).result = some payload) : answer.result = some payload := by
  unfold gated at h
  split at h
  · split at h
    · cases h
    · exact h
  · exact h

/-- **Type at a position.** The answer is the occurrence that starts last, in whatever order they were stored, and it is
a narrowest typed one exactly if no typed occurrence that starts before it is shorter. -/
theorem typeAt_narrowest_iff (sha256 : Bytes → String) (configuration : EffectiveConfiguration) (files : WorkspaceFiles)
    {store : IndexStore} {live : List FileAnalysisSnapshot} (h : Holds store live) {snapshot : FileAnalysisSnapshot}
    (hs : snapshot ∈ live)
    (hpath : ∀ other ∈ live, other.sourceUnit.path = snapshot.sourceUnit.path → other = snapshot) {location : Location}
    (hlocation : location.path = snapshot.sourceUnit.path) {sourceText : String} {offset : Nat}
    (hoffset : byteOffset sourceText location.position = .ok offset) {answer : QueryAnswer}
    (hrun : typeAt sha256 configuration files store location sourceText = .ok answer) {occurrence : SourceOccurrence}
    {ty : TypeRecord} (hresult : answer.result = some (.typeAt occurrence ty)) :
    LatestTyped snapshot.occurrences offset occurrence ∧
      (NarrowestTyped snapshot.occurrences offset occurrence ↔ LatestNarrowest snapshot.occurrences offset) := by
  have hlatest : LatestTyped snapshot.occurrences offset occurrence := by
    unfold typeAt at hrun
    rw [hlocation, h.sourceUnitsAtPath_eq hs hpath] at hrun
    dsimp only at hrun
    have hok : (Except.ok offset : Except LocationResolutionError _).mapError NavigationError.resolver = .ok offset := rfl
    rw [hoffset, hok, ok_bind] at hrun
    obtain ⟨found, hfound, hrun⟩ := bind_eq_ok_iff.1 hrun
    cases htyped : typedOccurrenceAt store snapshot.sourceUnit.id offset with
    | error reason =>
      rw [htyped] at hfound
      cases hfound
    | ok result =>
      rw [htyped] at hfound
      obtain rfl : result = found := Except.ok.inj hfound
      cases hrun
      have hpayload := gated_result hresult
      cases result with
      | none => cases hpayload
      | some pair =>
        cases hpayload
        exact h.typedOccurrenceAt_latest hs htyped
  refine ⟨hlatest, ?_, ?_⟩
  · intro hnarrowest o ho other hother
    have hlength := hnarrowest.2 other hother
    rwa [hlatest.bytes_eq ho] at hlength
  · intro hcondition
    exact ⟨hlatest.1, hcondition occurrence hlatest⟩

/-! ## Ranges that overlap in part -/

/-- A file whose occurrences have the type `Widget`. -/
def widgetFile (occurrences : List SourceOccurrence) : FileAnalysisSnapshot :=
  { usesFile occurrences with
    types := [⟨⟨"Widget"⟩, .kotlin, "Widget", none, .fresh, .complete, sampleProvenance⟩] }

/-- A short range and a long one that starts inside it. -/
def overlappingUses : FileAnalysisSnapshot := widgetFile [typeUse 0 10 "Widget", typeUse 5 20 "Widget"]

def nestedUses : FileAnalysisSnapshot := widgetFile [typeUse 0 12 "Widget", typeUse 5 11 "Widget"]

def allowStaleConfiguration : EffectiveConfiguration := ⟨.allowStale, []⟩

def noFiles : WorkspaceFiles := ⟨fun _ => none, [], fun _ => false, fun _ => [], []⟩

def widgetAt (start stop : Nat) : QueryAnswer :=
  ⟨.ok, some (.typeAt (typeUse start stop "Widget") ⟨⟨"Widget"⟩, .kotlin, "Widget", none, .fresh, .complete, sampleProvenance⟩), []⟩

theorem overlapping_longer_answered :
    ¬ ∀ (sha256 : Bytes → String) (configuration : EffectiveConfiguration) (files : WorkspaceFiles) (store : IndexStore)
      (live : List FileAnalysisSnapshot), Holds store live → ∀ snapshot ∈ live,
        (∀ other ∈ live, other.sourceUnit.path = snapshot.sourceUnit.path → other = snapshot) → ∀ location : Location,
          location.path = snapshot.sourceUnit.path → ∀ (sourceText : String) (offset : Nat),
            byteOffset sourceText location.position = .ok offset → ∀ answer,
              typeAt sha256 configuration files store location sourceText = .ok answer → ∀ occurrence ty,
                answer.result = some (.typeAt occurrence ty) → NarrowestTyped snapshot.occurrences offset occurrence := by
  intro h
  have hnarrowest := h (fun _ => "") allowStaleConfiguration noFiles (holding overlappingUses) [overlappingUses]
    (holding_holds (by decide)) overlappingUses (List.mem_singleton.2 rfl) (fun _ hother _ => List.mem_singleton.1 hother)
    ⟨usesSource.path, ⟨1, 8⟩⟩ rfl "val list: List<Widget>" 7 (by decide) (widgetAt 5 20) (by decide) _ _ rfl
  have hshorter := hnarrowest.2 (typeUse 0 10 "Widget") ⟨by decide, by decide, by decide⟩
  exact absurd hshorter (by decide)

theorem nested_argument_answered :
    LatestTyped nestedUses.occurrences 5 (typeUse 5 11 "Widget") ∧
      (NarrowestTyped nestedUses.occurrences 5 (typeUse 5 11 "Widget") ↔ LatestNarrowest nestedUses.occurrences 5) := by
  have hkeys : Tables.KeysUnique FactRow.key nestedUses.rows := by decide
  have hoffset : byteOffset "List<Widget>" (⟨usesSource.path, ⟨1, 6⟩⟩ : Location).position = .ok 5 := by decide
  have hrun : typeAt (fun _ => "") allowStaleConfiguration noFiles (holding nestedUses) ⟨usesSource.path, ⟨1, 6⟩⟩
      "List<Widget>" = .ok (widgetAt 5 11) := by decide
  exact typeAt_narrowest_iff _ _ _ (holding_holds hkeys) (List.mem_singleton.2 rfl)
    (fun _ hother _ => List.mem_singleton.1 hother) rfl hoffset hrun rfl

end Kide
