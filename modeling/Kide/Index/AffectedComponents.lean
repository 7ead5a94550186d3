import Kide.Index.FreshnessGate

/-!
# The affected components

A reconciliation lists, for each input that is not current, the components of one of its two records: the present one if there
is one, else the persisted one. A component that an input was in the scope of before and no longer is comes in only through
another input.

* `mem_affected_iff`: the components that are listed;
* `affected_complete_iff`: the inventories for which they are all that an input was or is in the scope of.
-/

namespace Kide
open Collects

section
variable (persisted current : List ConfigurationInput)

/-- Both scopes of an input that is not current are among the affected components. -/
def AffectedComplete (reconciliation : ConfigurationInputReconciliation) : Prop :=
  ∀ status ∈ reconciliation.inputs, status.state ≠ .current → ∀ input ∈ persisted ++ current, input.path = status.path →
    ∀ component ∈ input.components, component ∈ reconciliation.affectedComponents

/-- The inventories are equal as sets, or differ only in inputs without components. -/
def DifferWithoutComponents : Prop :=
  (∀ input, input ∈ persisted ↔ input ∈ current) ∨
    ∀ input, ¬ (input ∈ persisted ↔ input ∈ current) → input.components = []

/-- The component is in the present scope of an added or changed input, or in the recorded scope of a missing one. -/
def InChangedScope (component : ComponentId) : Prop :=
  (∃ next ∈ current, next ∉ persisted ∧ component ∈ next.components) ∨
    ∃ previous ∈ persisted, previous.path ∉ current.map (·.path) ∧ component ∈ previous.components

instance (component : ComponentId) : Decidable (InChangedScope persisted current component) :=
  inferInstanceAs (Decidable ((∃ next ∈ current, next ∉ persisted ∧ component ∈ next.components) ∨
    ∃ previous ∈ persisted, previous.path ∉ current.map (·.path) ∧ component ∈ previous.components))

/-- Whatever component a changed input has lost is in such a scope all the same. -/
def LostComponentsCovered : Prop :=
  ∀ previous ∈ persisted, ∀ next ∈ current, previous.path = next.path → ∀ component ∈ previous.components,
    component ∉ next.components → InChangedScope persisted current component

instance : Decidable (LostComponentsCovered persisted current) :=
  inferInstanceAs (Decidable (∀ previous ∈ persisted, ∀ next ∈ current, previous.path = next.path →
    ∀ component ∈ previous.components, component ∉ next.components → InChangedScope persisted current component))

end

section
variable {persisted current : List ConfigurationInput}

theorem state_eq_current_iff (path : WorkspacePath) :
    configurationInputState (lastOf (·.path) persisted path) (lastOf (·.path) current path) = .current ↔
      ∃ input, lastOf (·.path) persisted path = some input ∧ lastOf (·.path) current path = some input := by
  rw [configurationInputState_eq_current_iff]
  constructor
  · rintro ⟨previous, hprevious, next, hnext, hfingerprint, hcomponents⟩
    have hpath : previous.path = next.path := (lastOf_some _ hprevious).2.trans (lastOf_some _ hnext).2.symm
    have hsame : previous = next := by
      cases previous
      cases next
      simp_all
    exact ⟨previous, hprevious, hsame ▸ hnext⟩
  · rintro ⟨input, hprevious, hnext⟩
    exact ⟨input, hprevious, input, hnext, rfl, rfl⟩

variable (hpersisted : (persisted.map (·.path)).Nodup) (hcurrent : (current.map (·.path)).Nodup)
include hpersisted hcurrent

theorem notCurrent_iff (path : WorkspacePath) :
    configurationInputState (lastOf (·.path) persisted path) (lastOf (·.path) current path) ≠ .current ↔
      ∀ input ∈ persisted, input ∈ current → input.path ≠ path := by
  rw [Ne, state_eq_current_iff]
  simp only [lastOf_eq_some_iff _ hpersisted, lastOf_eq_some_iff _ hcurrent]
  constructor
  · exact fun h input hp hc hpath => h ⟨input, ⟨hp, hpath⟩, hc, hpath⟩
  · rintro h ⟨input, ⟨hp, hpath⟩, hc, -⟩
    exact h input hp hc hpath

omit hpersisted hcurrent in
theorem mem_affected {component : ComponentId} :
    component ∈ (reconcileConfigurationInputs persisted current).affectedComponents ↔
      ∃ path ∈ (persisted ++ current).map (·.path),
        configurationInputState (lastOf (·.path) persisted path) (lastOf (·.path) current path) ≠ .current ∧
        component ∈ (((lastOf (·.path) current path).or (lastOf (·.path) persisted path)).map (·.components)).getD [] := by
  unfold reconcileConfigurationInputs
  simp only [List.mem_insertionSort, List.mem_dedup, List.mem_flatMap, List.mem_filter, List.mem_map, mem_sortedKeys,
    decide_eq_true_eq]
  constructor
  · rintro ⟨status, ⟨⟨path, hpath, rfl⟩, hstate⟩, hmem⟩
    exact ⟨path, hpath, hstate, hmem⟩
  · rintro ⟨path, hpath, hstate, hmem⟩
    exact ⟨_, ⟨⟨path, hpath, rfl⟩, hstate⟩, hmem⟩

/-- **Listed.** The present scope counts for an added or changed input, the recorded one for a missing input. -/
theorem mem_affected_iff {component : ComponentId} :
    component ∈ (reconcileConfigurationInputs persisted current).affectedComponents ↔
      InChangedScope persisted current component := by
  rw [mem_affected]
  constructor
  · rintro ⟨path, -, hstate, hmem⟩
    have hapart := (notCurrent_iff hpersisted hcurrent path).1 hstate
    cases hnext : lastOf (·.path) current path with
    | some next =>
      obtain ⟨hin, hpath⟩ := lastOf_some _ hnext
      rw [hnext] at hmem
      exact .inl ⟨next, hin, fun h => hapart next h hin hpath, hmem⟩
    | none =>
      cases hprevious : lastOf (·.path) persisted path with
      | none =>
        rw [hnext, hprevious] at hmem
        cases hmem
      | some previous =>
        obtain ⟨hin, hpath⟩ := lastOf_some _ hprevious
        rw [hnext, hprevious] at hmem
        refine .inr ⟨previous, hin, fun h => ?_, hmem⟩
        have hsome := (lastOf_isSome_iff ConfigurationInput.path).2 (hpath ▸ h)
        rw [show lastOf ConfigurationInput.path current path = none from hnext] at hsome
        cases hsome
  · rintro (⟨next, hin, hnew, hmem⟩ | ⟨previous, hin, hmissing, hmem⟩)
    · have hnext := (lastOf_eq_some_iff _ hcurrent).2 ⟨hin, rfl⟩
      refine ⟨next.path, List.mem_map_of_mem (List.mem_append_right _ hin), ?_, ?_⟩
      · refine (notCurrent_iff hpersisted hcurrent _).2 fun input hp hc hpath => hnew ?_
        rwa [← List.inj_on_of_nodup_map hcurrent hc hin hpath]
      · rwa [hnext]
    · have hprevious := (lastOf_eq_some_iff _ hpersisted).2 ⟨hin, rfl⟩
      have hnone : lastOf (·.path) current previous.path = none := by
        rw [← Option.not_isSome_iff_eq_none, lastOf_isSome_iff]
        exact hmissing
      refine ⟨previous.path, List.mem_map_of_mem (List.mem_append_left _ hin), ?_, ?_⟩
      · exact (notCurrent_iff hpersisted hcurrent _).2 fun input _ hc hpath => hmissing (hpath ▸ List.mem_map_of_mem hc)
      · rwa [hnone, hprevious]

/-- The statuses that are not current are those of the paths with two different records, or with one. -/
theorem mem_changed_iff {path : WorkspacePath} :
    (∃ status ∈ (reconcileConfigurationInputs persisted current).inputs, status.state ≠ .current ∧ status.path = path) ↔
      path ∈ (persisted ++ current).map (·.path) ∧ ∀ input ∈ persisted, input ∈ current → input.path ≠ path := by
  rw [← notCurrent_iff hpersisted hcurrent]
  unfold reconcileConfigurationInputs
  simp only [List.mem_map, mem_sortedKeys]
  constructor
  · rintro ⟨status, ⟨_, hpath, rfl⟩, hstate, rfl⟩
    exact ⟨hpath, hstate⟩
  · rintro ⟨hpath, hstate⟩
    exact ⟨_, ⟨path, hpath, rfl⟩, hstate, rfl⟩

/-- **Complete.** -/
theorem affectedComplete_iff :
    AffectedComplete persisted current (reconcileConfigurationInputs persisted current) ↔
      LostComponentsCovered persisted current := by
  unfold AffectedComplete LostComponentsCovered
  simp only [mem_affected_iff hpersisted hcurrent]
  constructor
  · intro h previous hprevious next hnext hpath component hbefore hlost
    have hapart : ∀ input ∈ persisted, input ∈ current → input.path ≠ previous.path := by
      intro input hp hc hinput
      obtain rfl := List.inj_on_of_nodup_map hpersisted hp hprevious hinput
      obtain rfl := List.inj_on_of_nodup_map hcurrent hc hnext hpath
      exact hlost hbefore
    obtain ⟨status, hstatus, hstate, hsame⟩ := (mem_changed_iff hpersisted hcurrent).2
      ⟨List.mem_map_of_mem (List.mem_append_left _ hprevious), hapart⟩
    exact h status hstatus hstate previous (List.mem_append_left _ hprevious) hsame.symm component hbefore
  · intro h status hstatus hstate input hinput hpath component hmem
    have hapart := ((mem_changed_iff hpersisted hcurrent).1 ⟨status, hstatus, hstate, rfl⟩).2
    rcases List.mem_append.1 hinput with hprevious | hnext
    · by_cases hin : input.path ∈ current.map (·.path)
      · obtain ⟨next, hnext, hsame⟩ := List.mem_map.1 hin
        by_cases hkept : component ∈ next.components
        · exact .inl ⟨next, hnext, fun hp => hapart next hp hnext (hsame.trans hpath), hkept⟩
        · exact h input hprevious next hnext hsame.symm component hmem hkept
      · exact .inr ⟨input, hprevious, hin, hmem⟩
    · exact .inl ⟨input, hnext, fun hp => hapart input hp hnext hpath, hmem⟩

/-- Nothing is affected by a change of inputs without components; what is complete lists something for any other change. -/
theorem affected_eq_nil_iff (hcovered : LostComponentsCovered persisted current) :
    (reconcileConfigurationInputs persisted current).affectedComponents = [] ↔ DifferWithoutComponents persisted current := by
  rw [List.eq_nil_iff_forall_not_mem]
  simp only [mem_affected_iff hpersisted hcurrent]
  constructor
  · intro h
    refine .inr fun input hdiffer => List.eq_nil_iff_forall_not_mem.2 fun component hmem => h component ?_
    by_cases hp : input ∈ persisted
    · have hc : input ∉ current := fun hc => hdiffer (iff_of_true hp hc)
      by_cases hin : input.path ∈ current.map (·.path)
      · obtain ⟨next, hnext, hsame⟩ := List.mem_map.1 hin
        by_cases hkept : component ∈ next.components
        · refine .inl ⟨next, hnext, fun hp' => hc ?_, hkept⟩
          rwa [List.inj_on_of_nodup_map hpersisted hp hp' hsame.symm]
        · exact hcovered input hp next hnext hsame.symm component hmem hkept
      · exact .inr ⟨input, hp, hin, hmem⟩
    · exact .inl ⟨input, by_contra fun hc => hdiffer (iff_of_false hp hc), hp, hmem⟩
  · intro h component hscope
    have hdiffer : ∀ input, component ∈ input.components → (input ∈ persisted ↔ input ∈ current) := by
      intro input hmem
      rcases h with h | h
      · exact h input
      · by_contra hne
        rw [h input hne] at hmem
        cases hmem
    obtain ⟨next, hnext, hnew, hmem⟩ | ⟨previous, hprevious, hmissing, hmem⟩ := hscope
    · exact hnew ((hdiffer next hmem).2 hnext)
    · exact hmissing (List.mem_map_of_mem ((hdiffer previous hmem).1 hprevious))

end

/-- **Affected components.** They are complete, and there is none exactly for inventories that do not differ in an input with
components, if and only if every component that a changed input has lost is in the scope of another changed input. -/
theorem affected_complete_iff (persisted current : List ConfigurationInput) (hpersisted : (persisted.map (·.path)).Nodup)
    (hcurrent : (current.map (·.path)).Nodup) :
    let reconciliation := reconcileConfigurationInputs persisted current
    (AffectedComplete persisted current reconciliation ∧
      (reconciliation.affectedComponents = [] ↔ DifferWithoutComponents persisted current)) ↔
    LostComponentsCovered persisted current := by
  dsimp only
  rw [affectedComplete_iff hpersisted hcurrent]
  exact ⟨And.left, fun h => ⟨h, affected_eq_nil_iff hpersisted hcurrent h⟩⟩

/-! ## A module that changes its build system -/

def moduleInput (path fingerprint : String) (components : List String) : ConfigurationInput :=
  ⟨⟨path⟩, ⟨"sha256:" ++ fingerprint⟩, components.map ComponentId.mk⟩

/-- A workspace with a Maven module. -/
def mavenModule (pom : String) : List ConfigurationInput :=
  [moduleInput ".kide/effective-config" "0" ["filesystem:root:main", "maven:app:main"],
    moduleInput "app/pom.xml" pom ["maven:app:main"]]

/-- The same after the module has got a Gradle build. -/
def gradleModule : List ConfigurationInput :=
  [moduleInput ".kide/effective-config" "0" ["filesystem:root:main", "gradle:app:main"],
    moduleInput "app/build.gradle" "2" ["gradle:app:main"], moduleInput "app/pom.xml" "1" ["gradle:app:main"]]

theorem editedModule_complete :
    let reconciliation := reconcileConfigurationInputs (mavenModule "1") (mavenModule "2")
    AffectedComplete (mavenModule "1") (mavenModule "2") reconciliation ∧
      (reconciliation.affectedComponents = [] ↔ DifferWithoutComponents (mavenModule "1") (mavenModule "2")) := by
  refine (affected_complete_iff (mavenModule "1") (mavenModule "2") (by decide) (by decide)).2 ?_
  decide

/-- The Maven component is not listed, though it has lost the only build file it had. -/
theorem gradleModule_incomplete :
    ¬ ∀ persisted current : List ConfigurationInput, (persisted.map (·.path)).Nodup → (current.map (·.path)).Nodup →
      AffectedComplete persisted current (reconcileConfigurationInputs persisted current) := by
  intro h
  have hcovered := (affectedComplete_iff (by decide) (by decide)).1 (h (mavenModule "1") gradleModule (by decide) (by decide))
  revert hcovered
  decide

end Kide
