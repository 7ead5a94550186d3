import Kide.Index.BlobReferences

/-!
# Writing one descriptor

`put_artifact_descriptor` upserts the catalog row of a unit, deletes the unit's locators and inserts those of
the descriptor one by one, each statement committed by itself.

* `FirstFailure`: which statement is the first to fail, by the disk or by a repeated locator;
* `putArtifactDescriptor_atomic_iff`: the call is atomic exactly if what ran before that statement had been
  there already.
-/

namespace Kide
open Tables Transactions Checks IndexStore

/-- The locator rows of a descriptor. -/
def ArtifactDescriptor.locatorRows (descriptor : ArtifactDescriptor) : List SymbolLocatorRow :=
  descriptor.symbolLocators.map fun locator => ⟨descriptor.sourceUnit.id, locator.qualifiedName, locator.symbol⟩

/-! ## What a call should do -/

/-- Every unit has the descriptor it had. -/
def SameCatalog (store store' : IndexStore) : Prop :=
  ∀ sourceUnit, store'.artifactDescriptor sourceUnit = store.artifactDescriptor sourceUnit

def SameLocators (store store' : IndexStore) : Prop := ∀ row, row ∈ store'.symbolLocators ↔ row ∈ store.symbolLocators

/-- The tables have this descriptor with all its locators for its unit, and the other units as they were. -/
structure Recorded (descriptor : ArtifactDescriptor) (store store' : IndexStore) : Prop where
  catalog : ∀ sourceUnit, store'.artifactDescriptor sourceUnit =
    if descriptor.sourceUnit.id = sourceUnit then some descriptor else store.artifactDescriptor sourceUnit
  locators : ∀ row, row ∈ store'.symbolLocators ↔
    row ∈ descriptor.locatorRows ∨ row ∈ store.symbolLocators ∧ row.sourceUnitId ≠ descriptor.sourceUnit.id

/-- All or nothing. -/
def PutAtomic (descriptor : ArtifactDescriptor) (store : IndexStore) : Except IndexStoreError Unit × IndexStore → Prop
  | (.ok (), store') => Recorded descriptor store store'
  | (.error _, store') => SameCatalog store store' ∧ SameLocators store store'

/-! ## Where it stops -/

/-- The `n`-th statement fails when those before it have run: the disk does, or its locator is there already. -/
def FailsAt (disk : Disk) (descriptor : ArtifactDescriptor) (n : Nat) : Prop :=
  n < descriptor.locatorRows.length + 2 ∧
    (disk n ≠ none ∨ 2 ≤ n ∧ ∃ row ∈ descriptor.locatorRows[n - 2]?, row ∈ descriptor.locatorRows.take (n - 2))

def FirstFailure (disk : Disk) (descriptor : ArtifactDescriptor) (n : Nat) : Prop :=
  FailsAt disk descriptor n ∧ ∀ m < n, ¬ FailsAt disk descriptor m

/-- What `n` statements write is in the tables already. -/
def AlreadyWritten (descriptor : ArtifactDescriptor) (store : IndexStore) (n : Nat) : Prop :=
  (1 ≤ n → store.artifactDescriptor descriptor.sourceUnit.id = some descriptor) ∧
    (2 ≤ n → ∀ row, row.sourceUnitId = descriptor.sourceUnit.id →
      (row ∈ store.symbolLocators ↔ row ∈ descriptor.locatorRows.take (n - 2)))

/-! ## The statements -/

section
variable {store store' : IndexStore} {descriptor : ArtifactDescriptor} {disk : Disk}

theorem insertSymbolLocator_ok_iff {row : SymbolLocatorRow} :
    insertSymbolLocator row store = .ok store' ↔
      row ∉ store.symbolLocators ∧ store' = { store with symbolLocators := store.symbolLocators ++ [row] } := by
  let key : SymbolLocatorRow → Option (SourceUnitId × String × SymbolId) :=
    fun row => some (row.sourceUnitId, row.qualifiedName, row.symbolId)
  have hkeys : (∀ k ∈ key row, k ∉ keys key store.symbolLocators) ↔ row ∉ store.symbolLocators := by
    have hinjective : ∀ other, key other = key row → other = row := by
      rintro ⟨unit, name, symbol⟩ h
      cases row
      cases h
      rfl
    simp only [mem_keys]
    constructor
    · exact fun h hmem => h _ rfl ⟨row, hmem, rfl⟩
    · rintro h k hk ⟨other, hother, hkey⟩
      exact h (hinjective other (hkey.trans hk.symm) ▸ hother)
  unfold insertSymbolLocator
  cases hinsert : insertRow key store.symbolLocators row with
  | none =>
    refine ⟨fun h => (nomatch h), fun h => ?_⟩
    have hsome := (insertRow_eq_some_iff key).2 ⟨hkeys.2 h.1, rfl⟩
    exact absurd (hsome.symm.trans hinsert) (Option.some_ne_none _)
  | some rows =>
    obtain ⟨hnew, rfl⟩ := (insertRow_eq_some_iff key).1 hinsert
    refine ⟨fun h => ⟨hkeys.1 hnew, (Except.ok.inj h).symm⟩, fun h => congrArg Except.ok h.2.symm⟩

/-- The locators go in one by one as long as none is there. -/
theorem insertLocators_run {rows : List SymbolLocatorRow} (h : runStatements (rows.map insertSymbolLocator) store = .ok store') :
    store' = { store with symbolLocators := store.symbolLocators ++ rows } ∧
      ∀ k row, rows[k]? = some row → row ∉ store.symbolLocators ++ rows.take k := by
  induction rows generalizing store with
  | nil =>
    cases h
    rw [List.append_nil]
    exact ⟨rfl, fun k row hrow => by cases hrow⟩
  | cons first rows ih =>
    rw [List.map_cons, runStatements_cons, bind_eq_ok_iff] at h
    obtain ⟨middle, hfirst, hrest⟩ := h
    obtain ⟨hnew, rfl⟩ := insertSymbolLocator_ok_iff.1 hfirst
    obtain ⟨rfl, hfresh⟩ := ih hrest
    refine ⟨by rw [List.append_assoc]; rfl, fun k row hrow => ?_⟩
    cases k with
    | zero =>
      cases hrow
      rwa [List.take_zero, List.append_nil]
    | succ k =>
      have hrow' := hfresh k row hrow
      rwa [List.append_assoc] at hrow'

/-- The store when `n` statements have run. -/
def afterStatements (descriptor : ArtifactDescriptor) (store : IndexStore) : Nat → IndexStore
  | 0 => store
  | 1 => { store with artifactCatalog := upsert (·.sourceUnit.id) store.artifactCatalog descriptor }
  | k + 2 => { store with
      artifactCatalog := upsert (·.sourceUnit.id) store.artifactCatalog descriptor
      symbolLocators := store.symbolLocators.filter (·.sourceUnitId ≠ descriptor.sourceUnit.id) ++ descriptor.locatorRows.take k }

def putStatements (descriptor : ArtifactDescriptor) : List IndexStatement :=
  (fun store => .ok { store with artifactCatalog := upsert (·.sourceUnit.id) store.artifactCatalog descriptor })
    :: (fun store => .ok { store with
        symbolLocators := store.symbolLocators.filter (·.sourceUnitId ≠ descriptor.sourceUnit.id) })
    :: descriptor.locatorRows.map insertSymbolLocator

theorem putArtifactDescriptor_eq : store.putArtifactDescriptor disk descriptor = autocommit disk (putStatements descriptor) store := by
  unfold putArtifactDescriptor putStatements ArtifactDescriptor.locatorRows
  rw [List.map_map]
  rfl

theorem locatorRows_unit {row : SymbolLocatorRow} (h : row ∈ descriptor.locatorRows) :
    row.sourceUnitId = descriptor.sourceUnit.id := by
  obtain ⟨locator, -, rfl⟩ := List.mem_map.1 h
  rfl

/-- A locator is refused only by an equal one of the same descriptor. -/
theorem mem_afterStatements {row : SymbolLocatorRow} (h : row ∈ descriptor.locatorRows) (k : Nat) :
    row ∈ (afterStatements descriptor store (k + 2)).symbolLocators ↔ row ∈ descriptor.locatorRows.take k := by
  unfold afterStatements
  rw [List.mem_append, or_iff_right]
  intro hkept
  simpa [locatorRows_unit h] using (List.mem_filter.1 hkept).2

/-- What ran, ran without a failure, and left what it should. -/
theorem statements_run {before after : List IndexStatement} (hsplit : putStatements descriptor = before ++ after)
    (hrun : runStatements before store = .ok store') (hdisk : ∀ m < before.length, disk m = none) :
    store' = afterStatements descriptor store before.length ∧ ∀ m < before.length, ¬ FailsAt disk descriptor m := by
  have hquiet : ∀ m < before.length, m < 2 → ¬ FailsAt disk descriptor m := by
    rintro m hm hsmall ⟨-, hfault | ⟨hlarge, -⟩⟩
    · exact hfault (hdisk m hm)
    · omega
  rcases before with _ | ⟨upsert, _ | ⟨delete, before⟩⟩
  · cases hrun
    exact ⟨rfl, fun m hm => absurd hm (Nat.not_lt_zero m)⟩
  · obtain ⟨rfl, -⟩ := List.cons.inj hsplit
    cases hrun
    refine ⟨rfl, fun m hm => hquiet m hm ?_⟩
    rw [List.length_singleton] at hm
    omega
  · obtain ⟨rfl, htail⟩ := List.cons.inj hsplit
    obtain ⟨rfl, hlocators⟩ := List.cons.inj htail
    obtain ⟨rows, rest, hrows, rfl, -⟩ := List.map_eq_append_iff.1 hlocators
    obtain ⟨rfl, hfresh⟩ := insertLocators_run hrun
    have htake : ∀ k ≤ rows.length, rows.take k = descriptor.locatorRows.take k := by
      intro k hk
      rw [hrows, List.take_append_of_le_length hk]
    refine ⟨?_, fun m hm => ?_⟩
    · simp only [List.length_cons, List.length_map, afterStatements, ← htake rows.length (Nat.le_refl _), List.take_length]
    · by_cases hsmall : m < 2
      · exact hquiet m hm hsmall
      rintro ⟨-, hfault | ⟨-, row, hrow, hrepeated⟩⟩
      · exact hfault (hdisk m hm)
      simp only [List.length_cons, List.length_map] at hm
      have hinside : m - 2 < rows.length := by omega
      have hfound : rows[m - 2]? = some row := by
        rw [hrows, List.getElem?_append_left hinside] at hrow
        exact hrow
      refine hfresh (m - 2) row hfound (List.mem_append_right _ ?_)
      rwa [htake _ (Nat.le_of_lt hinside)]

/-- What fails, fails by the disk or by a repeated locator. -/
theorem statement_fails {before after : List IndexStatement} {stmt : IndexStatement} {e : IndexStoreError}
    (hsplit : putStatements descriptor = before ++ stmt :: after)
    (hfails : disk before.length = some e ∨ stmt (afterStatements descriptor store before.length) = .error e) :
    FailsAt disk descriptor before.length := by
  have hlength := congrArg List.length hsplit
  simp only [putStatements, List.length_cons, List.length_map, List.length_append] at hlength
  refine ⟨by omega, ?_⟩
  rcases hfails with hfault | hfails
  · left
    rw [hfault]
    exact Option.some_ne_none e
  right
  rcases before with _ | ⟨upsert, _ | ⟨delete, before⟩⟩
  · obtain ⟨rfl, -⟩ := List.cons.inj hsplit
    cases hfails
  · obtain ⟨-, htail⟩ := List.cons.inj hsplit
    obtain ⟨rfl, -⟩ := List.cons.inj htail
    cases hfails
  · obtain ⟨-, htail⟩ := List.cons.inj hsplit
    obtain ⟨-, hlocators⟩ := List.cons.inj htail
    obtain ⟨rows, rest, hrows, rfl, hrest⟩ := List.map_eq_append_iff.1 hlocators
    obtain ⟨row, rest, rfl, rfl, -⟩ := List.map_eq_cons_iff.1 hrest
    simp only [List.length_cons, List.length_map] at hfails ⊢
    have hrow : row ∈ descriptor.locatorRows := by
      rw [hrows]
      exact List.mem_append_right _ List.mem_cons_self
    refine ⟨by omega, row, ?_, ?_⟩
    · rw [hrows]
      simp
    · by_contra hnew
      have hfresh : row ∉ (afterStatements descriptor store (rows.length + 2)).symbolLocators :=
        fun h => hnew ((mem_afterStatements hrow rows.length).1 h)
      have hok := insertSymbolLocator_ok_iff.2 ⟨hfresh, rfl⟩
      rw [hok] at hfails
      cases hfails

/-! ## Atomicity -/

/-- The tables are as they were exactly if what ran had been there. -/
theorem unchanged_iff (n : Nat) :
    SameCatalog store (afterStatements descriptor store n) ∧ SameLocators store (afterStatements descriptor store n) ↔
      AlreadyWritten descriptor store n := by
  have hcatalog : SameCatalog store (afterStatements descriptor store 1) ↔
      store.artifactDescriptor descriptor.sourceUnit.id = some descriptor := by
    unfold SameCatalog IndexStore.artifactDescriptor afterStatements
    simp only [find_upsert]
    constructor
    · exact fun h => (by simpa using (h descriptor.sourceUnit.id).symm)
    · intro h sourceUnit
      split
      · next hunit => rw [← hunit, h]
      · rfl
  rcases n with _ | _ | k
  · exact iff_of_true ⟨fun _ => rfl, fun _ => Iff.rfl⟩ ⟨fun h => absurd h (by omega), fun h => absurd h (by omega)⟩
  · refine ⟨fun h => ⟨fun _ => hcatalog.1 h.1, fun h => absurd h (by omega)⟩, fun h => ⟨hcatalog.2 (h.1 (Nat.le_refl 1)), ?_⟩⟩
    exact fun _ => Iff.rfl
  · have hlocators : SameLocators store (afterStatements descriptor store (k + 2)) ↔
        ∀ row, row.sourceUnitId = descriptor.sourceUnit.id →
          (row ∈ store.symbolLocators ↔ row ∈ descriptor.locatorRows.take k) := by
      unfold SameLocators afterStatements
      simp only [List.mem_append, List.mem_filter, ne_eq, decide_eq_true_eq]
      refine forall_congr' fun row => ?_
      by_cases hunit : row.sourceUnitId = descriptor.sourceUnit.id
      · simp only [hunit, not_true, and_false, false_or, forall_const]
        exact Iff.comm
      · have hnone : row ∉ descriptor.locatorRows.take k := fun h => hunit (locatorRows_unit (List.mem_of_mem_take h))
        simp only [hunit, not_false_iff, and_true, hnone, or_false, iff_self, IsEmpty.forall_iff]
    exact ⟨fun h => ⟨fun _ => hcatalog.1 h.1, fun _ => hlocators.1 h.2⟩,
      fun h => ⟨hcatalog.2 (h.1 (by omega)), hlocators.2 (h.2 (by omega))⟩⟩

theorem recorded_afterStatements :
    Recorded descriptor store (afterStatements descriptor store (descriptor.locatorRows.length + 2)) where
  catalog sourceUnit := find_upsert _ _ _ _
  locators row := by
    simp only [afterStatements, List.take_length, List.mem_append, List.mem_filter, ne_eq, decide_eq_true_eq]
    exact or_comm

end

/-- **All or nothing.** A call is atomic exactly if the statements before the first one to fail, when there is
one, write what the tables have already. -/
theorem putArtifactDescriptor_atomic_iff (store : IndexStore) (disk : Disk) (descriptor : ArtifactDescriptor) :
    PutAtomic descriptor store (store.putArtifactDescriptor disk descriptor) ↔
      ∀ n, FirstFailure disk descriptor n → AlreadyWritten descriptor store n := by
  rw [putArtifactDescriptor_eq]
  rcases hrun : autocommit disk (putStatements descriptor) store with ⟨e | u, store'⟩
  · obtain ⟨before, stmt, after, hsplit, hbefore, hdisk, hfails⟩ := autocommitFrom_error hrun
    simp only [Nat.zero_add] at hdisk hfails
    obtain ⟨rfl, hquiet⟩ := statements_run hsplit hbefore hdisk
    have hfirst : FirstFailure disk descriptor before.length := ⟨statement_fails hsplit hfails, hquiet⟩
    refine (unchanged_iff before.length).trans ⟨fun h n hn => ?_, fun h => h _ hfirst⟩
    rcases Nat.lt_trichotomy n before.length with hlt | rfl | hgt
    · exact absurd hn.1 (hquiet n hlt)
    · exact h
    · exact absurd hfirst.1 (hn.2 _ hgt)
  · obtain ⟨hall, hdisk⟩ := autocommitFrom_ok hrun
    simp only [Nat.zero_add] at hdisk
    obtain ⟨rfl, hquiet⟩ := statements_run (List.append_nil _).symm hall hdisk
    have hlength : (putStatements descriptor).length = descriptor.locatorRows.length + 2 := by
      simp [putStatements]
    rw [hlength] at hquiet ⊢
    exact iff_of_true recorded_afterStatements fun n hn => absurd hn.1 (hquiet n hn.1.1)

/-- A library that lists one name twice. -/
def repeatedLocator : ArtifactDescriptor :=
  { BlobOperation.sampleArtifact "sha256:library" with symbolLocators := [⟨"library.A", ⟨"A"⟩⟩, ⟨"library.A", ⟨"A"⟩⟩] }

theorem repeated_locator_half_written :
    ¬ ∀ (store : IndexStore) (disk : Disk) (descriptor : ArtifactDescriptor),
      PutAtomic descriptor store (store.putArtifactDescriptor disk descriptor) := by
  intro h
  have hput := h {} Disk.sound repeatedLocator
  have hfailed : (putArtifactDescriptor {} Disk.sound repeatedLocator).1 = .error (.sqlite .constraint) := by decide
  have hwritten : (putArtifactDescriptor {} Disk.sound repeatedLocator).2.artifactDescriptor ⟨"jar:library"⟩ =
      some repeatedLocator := by decide
  rcases hrun : putArtifactDescriptor {} Disk.sound repeatedLocator with ⟨result, store'⟩
  rw [hrun] at hput hfailed hwritten
  cases hfailed
  have hsame := hput.1 ⟨"jar:library"⟩
  rw [hwritten] at hsame
  cases hsame

end Kide
