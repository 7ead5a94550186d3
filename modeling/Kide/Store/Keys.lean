import Kide.Store.Refinement

/-!
# The primary keys of a snapshot

The keys a snapshot takes in the fact tables, as an explicit list (`rows_keys`):

* two snapshots of different units share a key exactly when they share a symbol id or an
  application id (`keys_disjoint_iff`): the other tables are keyed by the unit;
* the keys of one snapshot are distinct exactly when its symbol ids and application ids are and
  every table keyed inside the unit sees distinct facts (`keysUnique_rows_iff`).
-/

namespace Kide
open Tables

namespace FileAnalysisSnapshot
variable (snapshot : FileAnalysisSnapshot)

def symbolIds : List SymbolId := snapshot.symbols.map (·.id)

def applicationIds : List ApplicationId := snapshot.applications.map (·.id)

def symbolKeys (symbol : SymbolRecord) : List FactKey :=
  .symbols symbol.id :: symbol.appliedSymbols.map (.annotationEdges snapshot.id symbol.id ·)

def applicationKeys (application : ApplicationFact) : List FactKey :=
  .applications application.id :: application.arguments.map (.applicationArguments application.id ·.position)

def occurrenceKey (occurrence : SourceOccurrence) : FactKey :=
  .occurrences snapshot.id occurrence.range.bytes.start occurrence.range.bytes.stop occurrence.kind.debug

def referenceKey (reference : ReferenceEdge) : FactKey :=
  .referenceEdges snapshot.id reference.source.range.bytes.start reference.source.range.bytes.stop reference.target

def callKey (call : CallEdge) : FactKey :=
  .callEdges snapshot.id call.source.range.bytes.start call.source.range.bytes.stop call.target

def hierarchyKey (edge : HierarchyEdge) : FactKey :=
  .hierarchyEdges snapshot.id edge.subtype edge.supertype

def typeKey (ty : TypeRecord) : FactKey := .typeRecords snapshot.id ty.id

/-- A diagnostic without a range has NULL offsets and no key. -/
def diagnosticKey (diagnostic : DiagnosticRecord) : Option FactKey :=
  diagnostic.range.map fun range =>
    .diagnostics snapshot.id range.start range.stop diagnostic.severity.debug diagnostic

end FileAnalysisSnapshot

theorem diagnosticRow_key (snapshot : FileAnalysisSnapshot) (diagnostic : DiagnosticRecord) :
    (FactRow.diagnostics (diagnostic.row snapshot.sourceUnit)).key = snapshot.diagnosticKey diagnostic := by
  unfold FileAnalysisSnapshot.diagnosticKey DiagnosticRecord.row FactRow.key
  cases diagnostic.range <;> rfl

/-- The keys of a snapshot, table by table. -/
theorem rows_keys (snapshot : FileAnalysisSnapshot) :
    keys FactRow.key snapshot.rows =
      [.sourceSnapshots snapshot.id] ++ [.sourceProvenance snapshot.id]
      ++ snapshot.symbols.flatMap snapshot.symbolKeys
      ++ snapshot.applications.flatMap FileAnalysisSnapshot.applicationKeys
      ++ snapshot.occurrences.map snapshot.occurrenceKey
      ++ snapshot.references.map snapshot.referenceKey
      ++ snapshot.calls.map snapshot.callKey
      ++ snapshot.hierarchy.map snapshot.hierarchyKey
      ++ snapshot.types.map snapshot.typeKey
      ++ snapshot.diagnostics.filterMap snapshot.diagnosticKey := by
  have hsymbol : ∀ s : SymbolRecord, (s.annotationRows snapshot.sourceUnit).filterMap
      (fun e => (FactRow.annotationEdges e).key) =
        s.appliedSymbols.map (.annotationEdges snapshot.id s.id ·) := by
    intro s
    rw [SymbolRecord.annotationRows, List.filterMap_map, ← List.filterMap_eq_map]; rfl
  have happlication : ∀ a : ApplicationFact, a.argumentRows.filterMap
      (fun e => (FactRow.applicationArguments e).key) =
        a.arguments.map (.applicationArguments a.id ·.position) := by
    intro a
    rw [ApplicationFact.argumentRows, List.filterMap_map, ← List.filterMap_eq_map]; rfl
  rw [keys, rows_filterMap]
  simp only [hsymbol, happlication, diagnosticRow_key]
  simp only [FactRow.key, Option.toList_some, List.filterMap_eq_map']
  rfl

/-! ## Keys of two snapshots -/

/-- Where a key of the snapshot comes from. -/
def FactKey.Of (snapshot : FileAnalysisSnapshot) : FactKey → Prop
  | .symbols symbolId => symbolId ∈ snapshot.symbolIds
  | .applications applicationId => applicationId ∈ snapshot.applicationIds
  | .applicationArguments applicationId _ => applicationId ∈ snapshot.applicationIds
  | .sourceSnapshots u => u = snapshot.id
  | .sourceProvenance u => u = snapshot.id
  | .annotationEdges u _ _ => u = snapshot.id
  | .occurrences u _ _ _ => u = snapshot.id
  | .referenceEdges u _ _ _ => u = snapshot.id
  | .callEdges u _ _ _ => u = snapshot.id
  | .hierarchyEdges u _ _ => u = snapshot.id
  | .typeRecords u _ => u = snapshot.id
  | .diagnostics u _ _ _ _ => u = snapshot.id

theorem key_of_mem_rows {snapshot : FileAnalysisSnapshot} {k : FactKey} (h : k ∈ keys FactRow.key snapshot.rows) :
    k.Of snapshot := by
  rw [rows_keys] at h
  simp only [List.mem_append, List.mem_flatMap, List.mem_map, List.mem_filterMap, List.mem_singleton, or_assoc] at h
  obtain rfl | rfl | ⟨s, hs, hk⟩ | ⟨a, ha, hk⟩ | ⟨o, -, rfl⟩ | ⟨r, -, rfl⟩ | ⟨c, -, rfl⟩ | ⟨e, -, rfl⟩ | ⟨t, -, rfl⟩ |
    ⟨d, -, hk⟩ := h
  case inr.inr.inl =>
    rcases List.mem_cons.1 hk with rfl | hk
    · exact List.mem_map_of_mem hs
    · obtain ⟨_, -, rfl⟩ := List.mem_map.1 hk
      exact rfl
  case inr.inr.inr.inl =>
    rcases List.mem_cons.1 hk with rfl | hk
    · exact List.mem_map_of_mem ha
    · obtain ⟨_, -, rfl⟩ := List.mem_map.1 hk
      exact List.mem_map_of_mem ha
  case inr.inr.inr.inr.inr.inr.inr.inr.inr =>
    obtain ⟨_, -, rfl⟩ := Option.map_eq_some_iff.1 hk
    exact rfl
  all_goals exact rfl

theorem symbol_key_mem {snapshot : FileAnalysisSnapshot} {symbolId : SymbolId} (h : symbolId ∈ snapshot.symbolIds) :
    .symbols symbolId ∈ keys FactRow.key snapshot.rows := by
  obtain ⟨symbol, hs, rfl⟩ := List.mem_map.1 h
  exact (mem_keys FactRow.key).2 ⟨_, symbolRow_mem hs, rfl⟩

theorem application_key_mem {snapshot : FileAnalysisSnapshot} {applicationId : ApplicationId}
    (h : applicationId ∈ snapshot.applicationIds) : .applications applicationId ∈ keys FactRow.key snapshot.rows := by
  obtain ⟨application, ha, rfl⟩ := List.mem_map.1 h
  exact (mem_keys FactRow.key).2 ⟨_, applicationRow_mem ha, rfl⟩

/-- Two snapshots claim no symbol id and no application id in common. -/
def FileAnalysisSnapshot.Apart (a b : FileAnalysisSnapshot) : Prop :=
  List.Disjoint a.symbolIds b.symbolIds ∧ List.Disjoint a.applicationIds b.applicationIds

theorem FileAnalysisSnapshot.Apart.symm {a b : FileAnalysisSnapshot} (h : a.Apart b) : b.Apart a :=
  ⟨h.1.symm, h.2.symm⟩

theorem apart_of_keys_disjoint {a b : FileAnalysisSnapshot}
    (h : List.Disjoint (keys FactRow.key a.rows) (keys FactRow.key b.rows)) : a.Apart b :=
  ⟨fun _ ha hb => h (symbol_key_mem ha) (symbol_key_mem hb),
    fun _ ha hb => h (application_key_mem ha) (application_key_mem hb)⟩

/-- Snapshots of different units meet in the global tables only. -/
theorem keys_disjoint_iff {a b : FileAnalysisSnapshot} (hid : a.id ≠ b.id) :
    List.Disjoint (keys FactRow.key a.rows) (keys FactRow.key b.rows) ↔ a.Apart b := by
  constructor
  · exact apart_of_keys_disjoint
  · rintro ⟨hsymbols, happlications⟩ k ha hb
    have hka := key_of_mem_rows ha
    have hkb := key_of_mem_rows hb
    cases k with
    | symbols symbolId => exact hsymbols hka hkb
    | applications applicationId => exact happlications hka hkb
    | applicationArguments applicationId _ => exact happlications hka hkb
    | _ => exact hid (hka.symm.trans hkb)

/-! ## Keys of one snapshot -/

/-- Every table keyed inside the source unit sees distinct facts. -/
structure DistinctFacts (snapshot : FileAnalysisSnapshot) : Prop where
  annotations : ∀ symbol ∈ snapshot.symbols, symbol.appliedSymbols.Nodup
  arguments : ∀ application ∈ snapshot.applications, (application.arguments.map (·.position)).Nodup
  occurrences : (snapshot.occurrences.map fun o => (o.range.bytes, o.kind)).Nodup
  references : (snapshot.references.map fun r => (r.source.range.bytes, r.target)).Nodup
  calls : (snapshot.calls.map fun c => (c.source.range.bytes, c.target)).Nodup
  hierarchy : (snapshot.hierarchy.map fun h => (h.subtype, h.supertype)).Nodup
  types : (snapshot.types.map (·.id)).Nodup
  diagnostics : (snapshot.diagnostics.filter (·.range.isSome)).Nodup

/-- A list of keys is free of repetition exactly when the columns that vary are. -/
theorem nodup_map_key_iff {α β : Type} {l : List α} {f : α → β} {g : β → FactKey} {k : α → FactKey}
    (hg : Function.Injective g) (h : ∀ a, k a = g (f a)) : (l.map k).Nodup ↔ (l.map f).Nodup := by
  rw [show l.map k = (l.map f).map g from by rw [List.map_map]; exact List.map_congr_left fun a _ => h a]
  exact List.nodup_map_iff hg

theorem symbolKeys_nodup_iff (snapshot : FileAnalysisSnapshot) :
    (snapshot.symbols.flatMap snapshot.symbolKeys).Nodup ↔
      snapshot.symbolIds.Nodup ∧ ∀ symbol ∈ snapshot.symbols, symbol.appliedSymbols.Nodup := by
  have hone : ∀ s : SymbolRecord, (snapshot.symbolKeys s).Nodup ↔ s.appliedSymbols.Nodup := by
    intro s
    rw [FileAnalysisSnapshot.symbolKeys, List.nodup_cons, List.nodup_map_iff (fun _ _ h => by injection h)]
    simp
  have htwo : ∀ s t : SymbolRecord, List.Disjoint (snapshot.symbolKeys s) (snapshot.symbolKeys t) ↔ s.id ≠ t.id := by
    intro s t
    constructor
    · intro h e
      exact h List.mem_cons_self (e ▸ List.mem_cons_self)
    · intro h k hs ht
      simp only [FileAnalysisSnapshot.symbolKeys, List.mem_cons, List.mem_map] at hs ht
      obtain rfl | ⟨_, -, rfl⟩ := hs <;> obtain hk | ⟨_, -, hk⟩ := ht
      · exact h (FactKey.symbols.inj hk)
      · cases hk
      · cases hk
      · exact h (FactKey.annotationEdges.inj hk).2.1.symm
  have hids : snapshot.symbolIds.Nodup ↔ snapshot.symbols.Pairwise fun s t => s.id ≠ t.id := List.pairwise_map
  rw [List.nodup_flatMap, hids, and_comm]
  exact and_congr (List.Pairwise.iff htwo) (by simp only [hone])

theorem applicationKeys_nodup_iff (snapshot : FileAnalysisSnapshot) :
    (snapshot.applications.flatMap FileAnalysisSnapshot.applicationKeys).Nodup ↔
      snapshot.applicationIds.Nodup ∧
        ∀ application ∈ snapshot.applications, (application.arguments.map (·.position)).Nodup := by
  have hone : ∀ a : ApplicationFact, (FileAnalysisSnapshot.applicationKeys a).Nodup ↔
      (a.arguments.map (·.position)).Nodup := by
    intro a
    rw [FileAnalysisSnapshot.applicationKeys, List.nodup_cons,
      nodup_map_key_iff (g := .applicationArguments a.id) (fun _ _ h => by injection h) fun _ => rfl]
    simp
  have htwo : ∀ a b : ApplicationFact, List.Disjoint (FileAnalysisSnapshot.applicationKeys a)
      (FileAnalysisSnapshot.applicationKeys b) ↔ a.id ≠ b.id := by
    intro a b
    constructor
    · intro h e
      exact h List.mem_cons_self (e ▸ List.mem_cons_self)
    · intro h k ha hb
      simp only [FileAnalysisSnapshot.applicationKeys, List.mem_cons, List.mem_map] at ha hb
      obtain rfl | ⟨_, -, rfl⟩ := ha <;> obtain hk | ⟨_, -, hk⟩ := hb
      · exact h (FactKey.applications.inj hk)
      · cases hk
      · cases hk
      · exact h (FactKey.applicationArguments.inj hk).1.symm
  have hids : snapshot.applicationIds.Nodup ↔ snapshot.applications.Pairwise fun a b => a.id ≠ b.id :=
    List.pairwise_map
  rw [List.nodup_flatMap, hids, and_comm]
  exact and_congr (List.Pairwise.iff htwo) (by simp only [hone])

theorem occurrenceKeys_nodup_iff (snapshot : FileAnalysisSnapshot) :
    (snapshot.occurrences.map snapshot.occurrenceKey).Nodup ↔
      (snapshot.occurrences.map fun o => (o.range.bytes, o.kind)).Nodup := by
  refine nodup_map_key_iff (g := fun p => .occurrences snapshot.id p.1.start p.1.stop p.2.debug) ?_ fun _ => rfl
  rintro ⟨⟨a, b⟩, k⟩ ⟨⟨c, d⟩, k'⟩ h
  obtain ⟨-, rfl, rfl, hk⟩ := FactKey.occurrences.inj h
  exact Prod.ext rfl (OccurrenceKind.debug_injective hk)

theorem referenceKeys_nodup_iff (snapshot : FileAnalysisSnapshot) :
    (snapshot.references.map snapshot.referenceKey).Nodup ↔
      (snapshot.references.map fun r => (r.source.range.bytes, r.target)).Nodup := by
  refine nodup_map_key_iff (g := fun p => .referenceEdges snapshot.id p.1.start p.1.stop p.2) ?_ fun _ => rfl
  rintro ⟨⟨a, b⟩, t⟩ ⟨⟨c, d⟩, t'⟩ h
  obtain ⟨-, rfl, rfl, rfl⟩ := FactKey.referenceEdges.inj h
  rfl

theorem callKeys_nodup_iff (snapshot : FileAnalysisSnapshot) :
    (snapshot.calls.map snapshot.callKey).Nodup ↔
      (snapshot.calls.map fun c => (c.source.range.bytes, c.target)).Nodup := by
  refine nodup_map_key_iff (g := fun p => .callEdges snapshot.id p.1.start p.1.stop p.2) ?_ fun _ => rfl
  rintro ⟨⟨a, b⟩, t⟩ ⟨⟨c, d⟩, t'⟩ h
  obtain ⟨-, rfl, rfl, rfl⟩ := FactKey.callEdges.inj h
  rfl

theorem hierarchyKeys_nodup_iff (snapshot : FileAnalysisSnapshot) :
    (snapshot.hierarchy.map snapshot.hierarchyKey).Nodup ↔
      (snapshot.hierarchy.map fun h => (h.subtype, h.supertype)).Nodup := by
  refine nodup_map_key_iff (g := fun p => .hierarchyEdges snapshot.id p.1 p.2) ?_ fun _ => rfl
  rintro ⟨a, b⟩ ⟨c, d⟩ h
  obtain ⟨-, rfl, rfl⟩ := FactKey.hierarchyEdges.inj h
  rfl

theorem typeKeys_nodup_iff (snapshot : FileAnalysisSnapshot) :
    (snapshot.types.map snapshot.typeKey).Nodup ↔ (snapshot.types.map (·.id)).Nodup :=
  nodup_map_key_iff (g := .typeRecords snapshot.id) (fun _ _ h => (FactKey.typeRecords.inj h).2) fun _ => rfl

/-- The record itself is a column of the key, so ranged diagnostics collide only when they are equal. -/
theorem diagnosticKeys_nodup_iff (snapshot : FileAnalysisSnapshot) :
    (snapshot.diagnostics.filterMap snapshot.diagnosticKey).Nodup ↔
      (snapshot.diagnostics.filter (·.range.isSome)).Nodup := by
  have hinj : ∀ d d', ∀ k ∈ snapshot.diagnosticKey d, k ∈ snapshot.diagnosticKey d' → d = d' := by
    intro d d' k hk hk'
    obtain ⟨_, -, rfl⟩ := Option.map_eq_some_iff.1 hk
    obtain ⟨_, -, h⟩ := Option.map_eq_some_iff.1 hk'
    exact (FactKey.diagnostics.inj h).2.2.2.2.symm
  have hkey : ∀ d : DiagnosticRecord, (snapshot.diagnosticKey d).isSome = d.range.isSome := by
    intro d
    rw [FileAnalysisSnapshot.diagnosticKey, Option.isSome_map]
  induction snapshot.diagnostics with
  | nil => simp
  | cons d ds ih =>
    rw [List.filter_cons]
    cases hd : snapshot.diagnosticKey d with
    | none =>
      have : d.range.isSome = false := by rw [← hkey, hd]; rfl
      rw [List.filterMap_cons_none hd, if_neg (by rw [this]; simp)]
      exact ih
    | some k =>
      have : d.range.isSome = true := by rw [← hkey, hd]; rfl
      rw [List.filterMap_cons_some hd, if_pos this, List.nodup_cons, List.nodup_cons]
      refine and_congr (not_congr ?_) ih
      rw [List.mem_filterMap, List.mem_filter]
      constructor
      · rintro ⟨d', hd', hk⟩
        rw [hinj d d' k hd hk]
        exact ⟨hd', by rw [← hkey, hk]; rfl⟩
      · exact fun h => ⟨d, h.1, hd⟩

/-- The position of a key's table in the order of insertion. -/
def FactKey.place : FactKey → Nat
  | .sourceSnapshots _ => 0
  | .sourceProvenance _ => 1
  | .symbols _ => 2
  | .annotationEdges .. => 2
  | .applications _ => 3
  | .applicationArguments .. => 3
  | .occurrences .. => 4
  | .referenceEdges .. => 5
  | .callEdges .. => 6
  | .hierarchyEdges .. => 7
  | .typeRecords .. => 8
  | .diagnostics .. => 9

/-- The keys of the tables before the `n`-th are distinct exactly when `P`. -/
def PlacedBelow (n : Nat) (ks : List FactKey) (P : Prop) : Prop :=
  (∀ k ∈ ks, k.place < n) ∧ (ks.Nodup ↔ P)

/-- The keys of one more table do not meet those before it. -/
theorem PlacedBelow.append {n : Nat} {ks ls : List FactKey} {P Q : Prop} (h : PlacedBelow n ks P)
    (hplace : ∀ k ∈ ls, k.place = n) (hls : ls.Nodup ↔ Q) : PlacedBelow (n + 1) (ks ++ ls) (P ∧ Q) := by
  constructor
  · intro k hk
    rcases List.mem_append.1 hk with hk | hk
    · exact Nat.lt_succ_of_lt (h.1 k hk)
    · exact Nat.lt_succ_of_le (hplace k hk).le
  · have hdis : List.Disjoint ks ls := fun k hk hl => (h.1 k hk).ne (hplace k hl)
    rw [List.nodup_append', h.2, hls]
    exact ⟨fun h => ⟨h.1, h.2.1⟩, fun h => ⟨h.1, h.2, hdis⟩⟩

theorem place_map {α : Type} {f : α → FactKey} {n : Nat} (h : ∀ a, (f a).place = n) (l : List α) :
    ∀ k ∈ l.map f, k.place = n := by
  intro k hk
  obtain ⟨a, -, rfl⟩ := List.mem_map.1 hk
  exact h a

theorem symbolKeys_place (snapshot : FileAnalysisSnapshot) :
    ∀ k ∈ snapshot.symbols.flatMap snapshot.symbolKeys, k.place = 2 := by
  intro k hk
  obtain ⟨s, -, hk⟩ := List.mem_flatMap.1 hk
  rcases List.mem_cons.1 hk with rfl | hk
  · rfl
  · exact place_map (fun _ => by rfl) _ k hk

theorem applicationKeys_place (snapshot : FileAnalysisSnapshot) :
    ∀ k ∈ snapshot.applications.flatMap FileAnalysisSnapshot.applicationKeys, k.place = 3 := by
  intro k hk
  obtain ⟨a, -, hk⟩ := List.mem_flatMap.1 hk
  rcases List.mem_cons.1 hk with rfl | hk
  · rfl
  · exact place_map (fun _ => by rfl) _ k hk

theorem diagnosticKeys_place (snapshot : FileAnalysisSnapshot) :
    ∀ k ∈ snapshot.diagnostics.filterMap snapshot.diagnosticKey, k.place = 9 := by
  intro k hk
  obtain ⟨d, -, hk⟩ := List.mem_filterMap.1 hk
  obtain ⟨_, -, rfl⟩ := Option.map_eq_some_iff.1 hk
  rfl

/-- **Keys of one snapshot.** They are distinct exactly when the ids of its symbols and of its
applications are, and the facts of every other table. -/
theorem keysUnique_rows_iff (snapshot : FileAnalysisSnapshot) :
    KeysUnique FactRow.key snapshot.rows ↔
      snapshot.symbolIds.Nodup ∧ snapshot.applicationIds.Nodup ∧ DistinctFacts snapshot := by
  have h0 : PlacedBelow 1 [FactKey.sourceSnapshots snapshot.id] True := ⟨by simp [FactKey.place], by simp⟩
  have h1 : PlacedBelow 2 ([.sourceSnapshots snapshot.id] ++ [.sourceProvenance snapshot.id]) (True ∧ True) :=
    h0.append (by simp [FactKey.place]) (by simp)
  have h2 := h1.append (symbolKeys_place snapshot) (symbolKeys_nodup_iff snapshot)
  have h3 := h2.append (applicationKeys_place snapshot) (applicationKeys_nodup_iff snapshot)
  have h4 := h3.append (place_map (fun _ => by rfl) _) (occurrenceKeys_nodup_iff snapshot)
  have h5 := h4.append (place_map (fun _ => by rfl) _) (referenceKeys_nodup_iff snapshot)
  have h6 := h5.append (place_map (fun _ => by rfl) _) (callKeys_nodup_iff snapshot)
  have h7 := h6.append (place_map (fun _ => by rfl) _) (hierarchyKeys_nodup_iff snapshot)
  have h8 := h7.append (place_map (fun _ => by rfl) _) (typeKeys_nodup_iff snapshot)
  have h9 := h8.append (diagnosticKeys_place snapshot) (diagnosticKeys_nodup_iff snapshot)
  rw [KeysUnique, rows_keys, h9.2]
  constructor
  · rintro ⟨⟨⟨⟨⟨⟨⟨⟨-, h1, h2⟩, h3, h4⟩, h5⟩, h6⟩, h7⟩, h8⟩, h9⟩, h10⟩
    exact ⟨h1, h3, h2, h4, h5, h6, h7, h8, h9, h10⟩
  · rintro ⟨h1, h3, h2, h4, h5, h6, h7, h8, h9, h10⟩
    exact ⟨⟨⟨⟨⟨⟨⟨⟨⟨trivial, trivial⟩, h1, h2⟩, h3, h4⟩, h5⟩, h6⟩, h7⟩, h8⟩, h9⟩, h10⟩

end Kide
