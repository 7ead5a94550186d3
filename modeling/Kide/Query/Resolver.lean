import Kide.Query.Positions
import Kide.Store.SymbolRecords

/-!
# What a location designates

`resolve_location` (`query_resolver.rs`): the source unit of the path, the offset of the position, the occurrences that
contain the offset, and where none of them has a target the declarations whose name contains it.

The contract has the narrowest of the containing occurrences decide; the code takes the targets of all of them.
`resolveLocation_narrowest_iff`: the two agree exactly where no wider occurrence has a target of its own.
-/

namespace Kide
open Checks Tables

/-! ## Ranges -/

namespace ByteRange

def Contains (range : ByteRange) (offset : Nat) : Prop := range.start ≤ offset ∧ offset < range.stop

instance (range : ByteRange) (offset : Nat) : Decidable (range.Contains offset) :=
  inferInstanceAs (Decidable (_ ∧ _))

def length (range : ByteRange) : Nat := range.stop - range.start

end ByteRange

/-! ## Lookups -/

namespace IndexStore
variable (store : IndexStore)

def sourceUnitsAtPath (path : WorkspacePath) : List SourceUnit :=
  (store.orderedSnapshots.filter (·.workspacePath = path)).map (·.sourceUnitJson)

/-- `ORDER BY start_byte DESC, end_byte ASC` -/
def occurrencesAt (sourceUnit : SourceUnitId) (byteOffset : Nat) : Except IndexStoreError (List SourceOccurrence) := do
  let bound ← sqliteOffset byteOffset
  let rows := store.occurrences.filter fun row =>
    row.sourceUnitId = sourceUnit ∧ row.startByte ≤ bound ∧ bound < row.endByte
  pure ((rows.insertionSort fun a b =>
    b.startByte < a.startByte ∨ (a.startByte = b.startByte ∧ a.endByte ≤ b.endByte)).map (·.recordJson))

end IndexStore

/-! ## The resolver -/

inductive LocationResolution where
  | symbol (symbol : SymbolId)
  | noResult
  | ambiguous (candidates : List SymbolId)
deriving DecidableEq, Repr

def uniqueSourceUnit (store : IndexStore) (path : WorkspacePath) : Except LocationResolutionError SourceUnitId :=
  match store.sourceUnitsAtPath path with
  | [] => .error (.unknownPath path.asStr)
  | [unit] => .ok unit.id
  | _ => .error (.ambiguousPath path.asStr)

def returnResolution : List SymbolId → Option LocationResolution
  | [] => none
  | [symbol] => some (.symbol symbol)
  | candidates => some (.ambiguous candidates)

/-- `sort_by` and `dedup_by` on the text of the ids -/
def sortDedup (ids : List SymbolId) : List SymbolId := (ids.insertionSort SymbolId.le).dedup

def resolveDeclarationCandidates (candidates : List SymbolRecord) : Option LocationResolution := do
  let narrowest ← (candidates.map (·.nameRange.bytes.length)).min?
  let kept := candidates.filter (·.nameRange.bytes.length = narrowest)
  let preferred := if kept.any (·.kind ≠ .constructor) then kept.filter (·.kind ≠ .constructor) else kept
  returnResolution (sortDedup (preferred.map (·.id)))

def resolveLocation (store : IndexStore) (location : Location) (sourceText : String) :
    Except LocationResolutionError LocationResolution := do
  let sourceUnit ← uniqueSourceUnit store location.path
  let offset ← byteOffset sourceText location.position
  let occurrences ← (store.occurrencesAt sourceUnit offset).mapError .store
  match returnResolution (sortDedup (occurrences.filterMap (·.target))) with
  | some resolution => .ok resolution
  | none =>
    let declarations := (store.symbolsForSource sourceUnit).filter (·.nameRange.bytes.Contains offset)
    .ok ((resolveDeclarationCandidates declarations).getD .noResult)

/-! ## What the contract says -/

/-- An occurrence that contains the offset designates the target. -/
def Designated (occurrences : List SourceOccurrence) (offset : Nat) (target : SymbolId) : Prop :=
  ∃ o ∈ occurrences, o.range.bytes.Contains offset ∧ o.target = some target

/-- So does one that is no longer than any containing occurrence with a target. -/
def DesignatedNarrowest (occurrences : List SourceOccurrence) (offset : Nat) (target : SymbolId) : Prop :=
  ∃ o ∈ occurrences, o.range.bytes.Contains offset ∧ o.target = some target ∧
    ∀ other ∈ occurrences, other.range.bytes.Contains offset → other.target ≠ none →
      o.range.bytes.length ≤ other.range.bytes.length

/-- The one target, or exactly the targets where there are several. -/
def LocationResolution.Decides (targets : SymbolId → Prop) : LocationResolution → Prop
  | .symbol id => ∀ target, targets target ↔ target = id
  | .ambiguous candidates => (∀ target, targets target ↔ target ∈ candidates) ∧ candidates.Nodup ∧ 2 ≤ candidates.length
  | .noResult => False

/-- The narrowest occurrences with a target decide, and only where neither an occurrence with a target nor the name of
a declaration contains the offset there is no result. -/
structure NarrowestWins (snapshot : FileAnalysisSnapshot) (offset : Nat) (resolution : LocationResolution) : Prop where
  decides : (∃ target, Designated snapshot.occurrences offset target) →
    resolution.Decides (DesignatedNarrowest snapshot.occurrences offset)
  noResult : resolution = .noResult → (∀ target, ¬ Designated snapshot.occurrences offset target) ∧
    ∀ symbol ∈ snapshot.symbols, ¬ symbol.nameRange.bytes.Contains offset

/-- No wider occurrence has a target that the narrowest do not have. -/
def NarrowestHasAll (snapshot : FileAnalysisSnapshot) (offset : Nat) : Prop :=
  ∀ target, Designated snapshot.occurrences offset target → DesignatedNarrowest snapshot.occurrences offset target

/-! ## Lists of candidates -/

theorem mem_sortDedup {ids : List SymbolId} {id : SymbolId} : id ∈ sortDedup ids ↔ id ∈ ids := by
  rw [sortDedup, List.mem_dedup, List.mem_insertionSort]

theorem nodup_sortDedup (ids : List SymbolId) : (sortDedup ids).Nodup := List.nodup_dedup _

theorem sortDedup_eq_nil {ids : List SymbolId} (h : sortDedup ids = []) : ids = [] := by
  refine List.eq_nil_iff_forall_not_mem.2 fun id hid => ?_
  have hmem := mem_sortDedup.2 hid
  rw [h] at hmem
  cases hmem

theorem returnResolution_eq_none {candidates : List SymbolId} (h : returnResolution candidates = none) :
    candidates = [] := by
  cases candidates with
  | nil => rfl
  | cons first rest => cases rest <;> cases h

theorem returnResolution_decides {candidates : List SymbolId} {resolution : LocationResolution}
    (hnodup : candidates.Nodup) (h : returnResolution candidates = some resolution) :
    resolution.Decides (· ∈ candidates) := by
  cases candidates with
  | nil => cases h
  | cons first rest =>
    cases rest with
    | nil =>
      cases h
      exact fun target => List.mem_singleton
    | cons second rest =>
      cases h
      exact ⟨fun target => Iff.rfl, hnodup, by simp⟩

/-- What a resolution decides for, it decides for alone. -/
theorem LocationResolution.Decides.unique {resolution : LocationResolution} {targets others : SymbolId → Prop}
    (h : resolution.Decides targets) (hother : resolution.Decides others) (target : SymbolId) :
    targets target ↔ others target := by
  cases resolution with
  | symbol id => exact (h target).trans (hother target).symm
  | ambiguous candidates => exact (h.1 target).trans (hother.1 target).symm
  | noResult => exact h.elim

theorem LocationResolution.Decides.congr {resolution : LocationResolution} {targets others : SymbolId → Prop}
    (h : resolution.Decides targets) (hsame : ∀ target, targets target ↔ others target) : resolution.Decides others := by
  cases resolution with
  | symbol id => exact fun target => (hsame target).symm.trans (h target)
  | ambiguous candidates => exact ⟨fun target => (hsame target).symm.trans (h.1 target), h.2⟩
  | noResult => exact h

theorem returnResolution_of_ne_nil {candidates : List SymbolId} (h : candidates ≠ []) :
    ∃ resolution, returnResolution candidates = some resolution ∧ resolution ≠ .noResult := by
  cases candidates with
  | nil => exact absurd rfl h
  | cons first rest =>
    cases rest with
    | nil => exact ⟨_, rfl, fun h => by cases h⟩
    | cons second rest => exact ⟨_, rfl, fun h => by cases h⟩

/-- Where a declaration is left, one is found. -/
theorem resolveDeclarationCandidates_of_ne_nil {candidates : List SymbolRecord} (h : candidates ≠ []) :
    ∃ resolution, resolveDeclarationCandidates candidates = some resolution ∧ resolution ≠ .noResult := by
  obtain ⟨narrowest, hmin⟩ : ∃ narrowest, (candidates.map (·.nameRange.bytes.length)).min? = some narrowest :=
    Option.isSome_iff_exists.1 (List.isSome_min?_of_ne_nil (by simpa using h))
  obtain ⟨first, hfirst, hlength⟩ := List.mem_map.1 (List.min?_mem hmin)
  obtain ⟨kept, hkept⟩ : ∃ kept, candidates.filter (·.nameRange.bytes.length = narrowest) = kept := ⟨_, rfl⟩
  have hmem : first ∈ kept := by
    rw [← hkept]
    exact List.mem_filter.2 ⟨hfirst, decide_eq_true hlength⟩
  have hpreferred : (if kept.any (·.kind ≠ .constructor) then kept.filter (·.kind ≠ .constructor) else kept) ≠ [] := by
    split
    · next hany =>
      obtain ⟨other, hother, hkind⟩ := List.any_eq_true.1 hany
      exact List.ne_nil_of_mem (List.mem_filter.2 ⟨hother, hkind⟩)
    · exact List.ne_nil_of_mem hmem
  unfold resolveDeclarationCandidates
  rw [hmin]
  dsimp only [Option.bind_eq_bind, Option.bind_some]
  rw [hkept]
  exact returnResolution_of_ne_nil fun hnil => hpreferred (List.map_eq_nil_iff.1 (sortDedup_eq_nil hnil))

/-! ## The store's answers -/

section
variable {store : IndexStore} {live : List FileAnalysisSnapshot} {snapshot : FileAnalysisSnapshot}

theorem Holds.mem_sourceUnitsAtPath (h : Holds store live) {path : WorkspacePath} {source : SourceUnit} :
    source ∈ store.sourceUnitsAtPath path ↔ ∃ snapshot ∈ live, snapshot.sourceUnit = source ∧ source.path = path := by
  unfold IndexStore.sourceUnitsAtPath
  simp only [List.mem_map, List.mem_filter, h.mem_orderedSnapshots, decide_eq_true_eq]
  constructor
  · rintro ⟨_, ⟨⟨snapshot, hs, rfl⟩, hpath⟩, rfl⟩
    exact ⟨snapshot, hs, rfl, hpath⟩
  · rintro ⟨snapshot, hs, rfl, hpath⟩
    exact ⟨_, ⟨⟨snapshot, hs, rfl⟩, hpath⟩, rfl⟩

/-- The unit of a path with one snapshot. -/
theorem Holds.sourceUnitsAtPath_eq (h : Holds store live) (hs : snapshot ∈ live)
    (hpath : ∀ other ∈ live, other.sourceUnit.path = snapshot.sourceUnit.path → other = snapshot) :
    store.sourceUnitsAtPath snapshot.sourceUnit.path = [snapshot.sourceUnit] := by
  have hnodup : live.Nodup := h.ids_nodup.of_map _
  have hfilter : live.filter (·.sourceUnit.path = snapshot.sourceUnit.path) = [snapshot] := by
    refine List.perm_singleton.1 ((List.perm_ext_iff_of_nodup (hnodup.filter _) (List.nodup_singleton _)).2 fun other => ?_)
    rw [List.mem_filter, List.mem_singleton, decide_eq_true_eq]
    exact ⟨fun hother => hpath other hother.1 hother.2, fun hother => ⟨hother ▸ hs, hother ▸ rfl⟩⟩
  have hperm : (store.orderedSnapshots.filter (·.workspacePath = snapshot.sourceUnit.path)).Perm [snapshot.snapshotRow] := by
    have hrows := (List.perm_insertionSort (fun a b : SourceSnapshotRow => a.sourceUnitId.le b.sourceUnitId)
      store.sourceSnapshots).filter fun row => decide (row.workspacePath = snapshot.sourceUnit.path)
    refine hrows.trans ?_
    rw [h.sourceSnapshots, List.filter_map]
    have hsame : live.filter ((fun row => decide (row.workspacePath = snapshot.sourceUnit.path)) ∘ (·.snapshotRow)) =
        [snapshot] := hfilter
    rw [hsame, List.map_singleton]
  rw [IndexStore.sourceUnitsAtPath, List.perm_singleton.1 hperm]
  rfl

theorem Holds.mem_occurrences (h : Holds store live) {row : OccurrenceRow} :
    row ∈ store.occurrences ↔ ∃ snapshot ∈ live, ∃ o ∈ snapshot.occurrences, o.row snapshot.sourceUnit = row := by
  unfold IndexStore.occurrences
  simp only [h.table, List.mem_flatMap, rows_inOccurrences, List.mem_map]

/-- The occurrences of the unit's snapshot that contain the offset. -/
theorem Holds.mem_occurrencesAt (h : Holds store live) (hs : snapshot ∈ live) {offset : Nat} {found : List SourceOccurrence}
    (hfound : store.occurrencesAt snapshot.id offset = .ok found) {o : SourceOccurrence} :
    o ∈ found ↔ o ∈ snapshot.occurrences ∧ o.range.bytes.Contains offset := by
  unfold IndexStore.occurrencesAt at hfound
  obtain ⟨bound, hbound, hfound⟩ := bind_eq_ok_iff.1 hfound
  obtain ⟨-, rfl⟩ := sqliteOffset_ok_iff.1 hbound
  cases hfound
  simp only [List.mem_map, List.mem_insertionSort, List.mem_filter, h.mem_occurrences, decide_eq_true_eq]
  constructor
  · rintro ⟨_, ⟨⟨other, hother, o, ho, rfl⟩, hunit, hcontains⟩, rfl⟩
    obtain rfl := List.inj_on_of_nodup_map h.ids_nodup hother hs hunit
    exact ⟨ho, hcontains⟩
  · rintro ⟨ho, hcontains⟩
    exact ⟨_, ⟨⟨snapshot, hs, o, ho, rfl⟩, rfl, hcontains⟩, rfl⟩

theorem Holds.declared_of_mem (h : Holds store live) (hs : snapshot ∈ live) {symbol : SymbolRecord}
    (hsymbol : symbol ∈ snapshot.symbols) :
    ∃ record ∈ store.symbolsForSource snapshot.id, record.nameRange.bytes = symbol.nameRange.bytes := by
  refine ⟨_, List.mem_filterMap.2 ⟨symbol.row snapshot.sourceUnit, ?_, h.joinSymbol hs symbol⟩, rfl⟩
  exact (List.mem_insertionSort _).2 (List.mem_filter.2 ⟨h.mem_symbols_iff.2 ⟨snapshot, hs, symbol, hsymbol, rfl⟩,
    decide_eq_true rfl⟩)

/-- The targets of all containing occurrences decide. -/
theorem Holds.resolveLocation_ok (h : Holds store live) (hs : snapshot ∈ live)
    (hpath : ∀ other ∈ live, other.sourceUnit.path = snapshot.sourceUnit.path → other = snapshot) {location : Location}
    (hlocation : location.path = snapshot.sourceUnit.path) {sourceText : String} {offset : Nat}
    (hoffset : byteOffset sourceText location.position = .ok offset) (hfits : offset < OFFSET_LIMIT) :
    ∃ resolution, resolveLocation store location sourceText = .ok resolution ∧
      ((∃ target, Designated snapshot.occurrences offset target) →
        resolution.Decides (Designated snapshot.occurrences offset)) ∧
      (resolution = .noResult → (∀ target, ¬ Designated snapshot.occurrences offset target) ∧
        ∀ symbol ∈ snapshot.symbols, ¬ symbol.nameRange.bytes.Contains offset) := by
  have hunit : uniqueSourceUnit store location.path = .ok snapshot.id := by
    rw [uniqueSourceUnit, hlocation, h.sourceUnitsAtPath_eq hs hpath]
    rfl
  obtain ⟨found, hfound⟩ : ∃ found, store.occurrencesAt snapshot.id offset = .ok found := by
    rw [IndexStore.occurrencesAt, sqliteOffset_ok_iff.2 ⟨hfits, rfl⟩]
    exact ⟨_, rfl⟩
  have htargets : ∀ target, target ∈ sortDedup (found.filterMap (·.target)) ↔
      Designated snapshot.occurrences offset target := by
    intro target
    rw [mem_sortDedup, List.mem_filterMap]
    simp only [h.mem_occurrencesAt hs hfound, and_assoc, Designated]
  unfold resolveLocation
  have hok : (Except.ok found : Except IndexStoreError _).mapError LocationResolutionError.store = .ok found := rfl
  rw [hunit, ok_bind, hoffset, ok_bind, hfound, hok, ok_bind]
  cases hresolved : returnResolution (sortDedup (found.filterMap (·.target))) with
  | some resolution =>
    have hdecides : resolution.Decides (Designated snapshot.occurrences offset) :=
      (returnResolution_decides (nodup_sortDedup _) hresolved).congr htargets
    refine ⟨resolution, rfl, fun _ => hdecides, fun hnone => ?_⟩
    rw [hnone] at hdecides
    exact hdecides.elim
  | none =>
    have hnobody : ∀ target, ¬ Designated snapshot.occurrences offset target := by
      intro target htarget
      have hmem := (htargets target).2 htarget
      rw [returnResolution_eq_none hresolved] at hmem
      cases hmem
    refine ⟨_, rfl, fun hsome => absurd hsome.choose_spec (hnobody _), fun hnone => ⟨hnobody, ?_⟩⟩
    intro symbol hsymbol hcontains
    obtain ⟨record, hrecord, hbytes⟩ := h.declared_of_mem hs hsymbol
    have hmem : record ∈ (store.symbolsForSource snapshot.id).filter (·.nameRange.bytes.Contains offset) :=
      List.mem_filter.2 ⟨hrecord, decide_eq_true (hbytes ▸ hcontains)⟩
    obtain ⟨resolution, hfirst, hresult⟩ := resolveDeclarationCandidates_of_ne_nil (List.ne_nil_of_mem hmem)
    rw [hfirst] at hnone
    exact hresult hnone

end

/-! ## The narrowest occurrence -/

theorem DesignatedNarrowest.designated {occurrences : List SourceOccurrence} {offset : Nat} {target : SymbolId}
    (h : DesignatedNarrowest occurrences offset target) : Designated occurrences offset target := by
  obtain ⟨o, ho, hcontains, htarget, -⟩ := h
  exact ⟨o, ho, hcontains, htarget⟩

/-- **Location.** At every position of an indexed file the resolver answers, and the narrowest occurrences decide exactly
if no wider one has a target that they do not have. -/
theorem resolveLocation_narrowest_iff {store : IndexStore} {live : List FileAnalysisSnapshot} (h : Holds store live)
    {snapshot : FileAnalysisSnapshot} (hs : snapshot ∈ live)
    (hpath : ∀ other ∈ live, other.sourceUnit.path = snapshot.sourceUnit.path → other = snapshot) {location : Location}
    (hlocation : location.path = snapshot.sourceUnit.path) {sourceText : String} {offset : Nat}
    (hoffset : byteOffset sourceText location.position = .ok offset) (hfits : offset < OFFSET_LIMIT) :
    ∃ resolution, resolveLocation store location sourceText = .ok resolution ∧
      (NarrowestWins snapshot offset resolution ↔ NarrowestHasAll snapshot offset) := by
  obtain ⟨resolution, hrun, hdecides, hnone⟩ := h.resolveLocation_ok hs hpath hlocation hoffset hfits
  refine ⟨resolution, hrun, fun hwins target htarget => ?_, fun hall => ⟨fun hsome => ?_, hnone⟩⟩
  · exact ((hwins.decides ⟨target, htarget⟩).unique (hdecides ⟨target, htarget⟩) target).2 htarget
  · exact (hdecides hsome).congr fun target => ⟨hall target, DesignatedNarrowest.designated⟩

/-! ## A generic type -/

def usesSource : SourceUnit := sampleUnit "Uses.kt" "sha256:a"

/-- A use of a type at these bytes. -/
def typeUse (start stop : Nat) (target : String) : SourceOccurrence :=
  ⟨⟨usesSource.id, ⟨start, stop⟩⟩, .typeReference, none, some ⟨target⟩, some ⟨target⟩, .exact, .fresh, .complete,
    sampleProvenance⟩

def usesFile (occurrences : List SourceOccurrence) : FileAnalysisSnapshot :=
  { emptySnapshot usesSource with occurrences }

def holding (snapshot : FileAnalysisSnapshot) : IndexStore := { facts := snapshot.rows }

theorem holding_holds {snapshot : FileAnalysisSnapshot} (h : KeysUnique FactRow.key snapshot.rows) :
    Holds (holding snapshot) [snapshot] :=
  ⟨(List.flatMap_singleton _ _).symm, h⟩

/-- `List<Widget>`, where the whole is a use of `List` and the argument one of `Widget`. -/
def genericUse : FileAnalysisSnapshot := usesFile [typeUse 0 12 "List", typeUse 5 11 "Widget"]

theorem genericUse_holds : Holds (holding genericUse) [genericUse] := holding_holds (by decide)

theorem generic_argument_ambiguous :
    ¬ ∀ (store : IndexStore) (live : List FileAnalysisSnapshot), Holds store live → ∀ snapshot ∈ live,
      (∀ other ∈ live, other.sourceUnit.path = snapshot.sourceUnit.path → other = snapshot) → ∀ location : Location,
        location.path = snapshot.sourceUnit.path → ∀ (sourceText : String) (offset : Nat),
          byteOffset sourceText location.position = .ok offset → offset < OFFSET_LIMIT →
            ∃ resolution, resolveLocation store location sourceText = .ok resolution ∧ NarrowestWins snapshot offset resolution := by
  intro h
  have hpath : ∀ other ∈ [genericUse], other.sourceUnit.path = genericUse.sourceUnit.path → other = genericUse :=
    fun other hother _ => List.mem_singleton.1 hother
  have hoffset : byteOffset "List<Widget>" ⟨1, 6⟩ = .ok 5 := by decide
  obtain ⟨resolution, hrun, hwins⟩ := h _ _ genericUse_holds genericUse (List.mem_singleton.2 rfl) hpath
    ⟨usesSource.path, ⟨1, 6⟩⟩ rfl "List<Widget>" 5 hoffset (by decide)
  have hlocation : (⟨usesSource.path, ⟨1, 6⟩⟩ : Location).path = genericUse.sourceUnit.path := rfl
  obtain ⟨resolution', hrun', hdecides, -⟩ := genericUse_holds.resolveLocation_ok (List.mem_singleton.2 rfl) hpath
    hlocation hoffset (by decide)
  obtain rfl : resolution = resolution' := Except.ok.inj (hrun.symm.trans hrun')
  have houter : Designated genericUse.occurrences 5 ⟨"List"⟩ :=
    ⟨typeUse 0 12 "List", List.mem_cons_self, by decide, rfl⟩
  obtain ⟨o, ho, -, htarget, hmin⟩ := ((hwins.decides ⟨_, houter⟩).unique (hdecides ⟨_, houter⟩) ⟨"List"⟩).2 houter
  have hshorter := hmin (typeUse 5 11 "Widget") (by decide) (by decide) (by decide)
  rcases List.mem_cons.1 ho with rfl | hinner
  · exact absurd hshorter (by decide)
  · obtain rfl := List.mem_singleton.1 hinner
    exact absurd htarget (by decide)

/-- Of two uses of one type the narrower decides. -/
theorem same_target_decided :
    ∃ resolution, resolveLocation (holding (usesFile [typeUse 0 12 "List", typeUse 5 11 "List"]))
      ⟨usesSource.path, ⟨1, 6⟩⟩ "List<Widget>" = .ok resolution ∧
        (NarrowestWins (usesFile [typeUse 0 12 "List", typeUse 5 11 "List"]) 5 resolution ↔
          NarrowestHasAll (usesFile [typeUse 0 12 "List", typeUse 5 11 "List"]) 5) :=
  resolveLocation_narrowest_iff (holding_holds (by decide)) (List.mem_singleton.2 rfl)
    (fun _ hother _ => List.mem_singleton.1 hother) rfl (by decide) (by decide)

end Kide
