import Mathlib.Data.String.Basic
import Kide.Index.FreshnessGate
import Kide.Lib.Fields
import Kide.Lib.OrderFree

/-!
# Checkpoint fingerprints

The three fingerprints of a checkpoint are digests of sorted records, a NUL after each field. A record of an input has its
components in one field, with commas between them.

* `fingerprint_eq_iff`: records without NUL have one fingerprint if and only if they are the same up to order;
* `fingerprints_faithful_iff`: the inventories that are told apart, all but those that differ in commas only.
-/

namespace Kide
open Fields Collects

/-! ## Records -/

section
variable {α : Type} {fields : α → List String}

/-- The entry of a record: its fields, a NUL between two of them. -/
def entryOf (fields : α → List String) (a : α) : String := "\x00".intercalate (fields a)

theorem entryOf_terminated {a : α} (h : fields a ≠ []) (rest : String) :
    entryOf fields a ++ "\x00" ++ rest = terminated '\x00' (fields a) ++ rest := by
  unfold entryOf
  congr 1
  generalize fields a = l at h
  induction l with
  | nil => exact absurd rfl h
  | cons field l ih =>
    cases l with
    | nil =>
      rw [String.intercalate_singleton, terminated_cons, terminated_nil, String.append_empty]
      rfl
    | cons next l =>
      rw [String.intercalate_cons_cons, terminated_cons, String.append_assoc, ih (by simp)]
      rfl

/-- The text that is hashed has the fields of one record after the other. -/
theorem digestInput_entries (h : ∀ a, fields a ≠ []) (l : List α) :
    digestInput (l.map (entryOf fields)) = terminated '\x00' (l.flatMap fields) := by
  induction l with
  | nil => rfl
  | cons a l ih =>
    rw [List.map_cons, List.flatMap_cons, terminated_append, ← ih, ← entryOf_terminated (h a)]
    rfl

variable (sha256 : String → String) {k : Nat}

/-- The text that is hashed for a list of records. -/
def hashedText (fields : α → List String) (l : List α) : String := digestInput (sortEntries (l.map (entryOf fields)))

theorem fingerprintEntries_eq_iff {entries entries' : List String} :
    fingerprintEntries sha256 entries = fingerprintEntries sha256 entries' ↔
      sha256 (digestInput entries) = sha256 (digestInput entries') := by
  unfold fingerprintEntries
  rw [Fingerprint.mk.injEq]
  refine ⟨fun h => ?_, fun h => by rw [h]⟩
  have hlist := congrArg String.toList h
  rw [String.toList_append, String.toList_append, List.append_right_inj] at hlist
  exact String.toList_injective hlist

theorem hashedText_eq (h : ∀ a, fields a ≠ []) (l : List α) : hashedText fields l =
    terminated '\x00' ((l.insertionSort fun x y => entryOf fields x ≤ entryOf fields y).flatMap fields) := by
  unfold hashedText sortEntries
  rw [← List.map_insertionSort (fun x y => entryOf fields x ≤ entryOf fields y) (· ≤ ·) (entryOf fields) l
    fun _ _ _ _ => Iff.rfl, digestInput_entries h]

/-- **Faithful.** -/
theorem fingerprint_eq_iff (hk : 0 < k) (hlength : ∀ a, (fields a).length = k) {a b : List α}
    (ha : ∀ record ∈ a, ∀ field ∈ fields record, '\x00' ∉ field.toList)
    (hb : ∀ record ∈ b, ∀ field ∈ fields record, '\x00' ∉ field.toList)
    (hcollision : sha256 (hashedText fields a) = sha256 (hashedText fields b) → hashedText fields a = hashedText fields b) :
    fingerprintEntries sha256 (sortEntries (a.map (entryOf fields))) =
        fingerprintEntries sha256 (sortEntries (b.map (entryOf fields))) ↔
      (a.map fields).Perm (b.map fields) := by
  have hne : ∀ record, fields record ≠ [] := by
    intro record h
    have hempty := hlength record
    rw [h, List.length_nil] at hempty
    omega
  have hsorted : ∀ l : List α, (l.insertionSort fun x y => entryOf fields x ≤ entryOf fields y).Perm l :=
    fun l => List.perm_insertionSort _ l
  have hfree : ∀ {l : List α}, (∀ record ∈ l, ∀ field ∈ fields record, '\x00' ∉ field.toList) →
      ∀ field ∈ (l.insertionSort fun x y => entryOf fields x ≤ entryOf fields y).flatMap fields, '\x00' ∉ field.toList := by
    intro l h field hfield
    obtain ⟨record, hrecord, hfield⟩ := List.mem_flatMap.1 hfield
    exact h record ((hsorted l).mem_iff.1 hrecord) field hfield
  rw [fingerprintEntries_eq_iff]
  constructor
  · intro h
    have htext : hashedText fields a = hashedText fields b := hcollision h
    rw [hashedText_eq hne, hashedText_eq hne, terminated_inj (hfree ha) (hfree hb), flatMap_inj hk hlength] at htext
    exact ((hsorted a).map fields).symm.trans (htext ▸ (hsorted b).map fields)
  · intro h
    have hentries : (a.map (entryOf fields)).Perm (b.map (entryOf fields)) := by
      have hmapped := h.map fun record : List String => "\x00".intercalate record
      rwa [List.map_map, List.map_map] at hmapped
    unfold sortEntries
    rw [insertionSort_eq_of_perm (fun x _ y _ hxy hyx => le_antisymm hxy hyx) hentries]

end

/-! ## Inventories -/

def sourceFields (source : SourceUnit) : List String := [source.id.asStr, source.content.asStr, source.path.asStr]

def artifactFields (descriptor : ArtifactDescriptor) : List String :=
  [descriptor.sourceUnit.id.asStr, descriptor.sourceUnit.content.asStr, descriptor.sourceUnit.context.asStr]

/-- The components in one field. -/
def configurationFields (input : ConfigurationInput) : List String :=
  [input.path.asStr, input.fingerprint.asStr, ",".intercalate (input.components.map (·.asStr))]

theorem sourceEntry_eq : sourceEntry = entryOf sourceFields := by
  funext source
  simp [sourceEntry, entryOf, sourceFields, String.append_assoc]

theorem artifactEntry_eq : artifactEntry = entryOf artifactFields := by
  funext descriptor
  simp [artifactEntry, entryOf, artifactFields, String.append_assoc]

theorem configurationEntry_eq : configurationEntry = entryOf configurationFields := by
  funext input
  simp [configurationEntry, entryOf, configurationFields, String.append_assoc]

/-- What a fingerprint is to tell apart. -/
def sourceKey (source : SourceUnit) : SourceUnitId × Fingerprint × WorkspacePath := (source.id, source.content, source.path)

def artifactKey (descriptor : ArtifactDescriptor) : SourceUnitId × Fingerprint × Fingerprint :=
  (descriptor.sourceUnit.id, descriptor.sourceUnit.content, descriptor.sourceUnit.context)

def configurationKey (input : ConfigurationInput) : WorkspacePath × Fingerprint × List ComponentId :=
  (input.path, input.fingerprint, input.components)

/-- The same with the components joined. -/
def joinedKey (input : ConfigurationInput) : WorkspacePath × Fingerprint × String :=
  (input.path, input.fingerprint, ",".intercalate (input.components.map (·.asStr)))

/-- Two inventories that differ, and no more do once the components are joined. -/
def DifferInCommas (a b : List ConfigurationInput) : Prop :=
  ¬ (a.map configurationKey).Perm (b.map configurationKey) ∧ (a.map joinedKey).Perm (b.map joinedKey)

def NulFree (text : String) : Prop := '\x00' ∉ text.toList

theorem map_fields_perm {α κ : Type} {key : α → κ} {fields : α → List String} (write : κ → List String)
    (hfields : ∀ a, fields a = write (key a)) (hwrite : Function.Injective write) {a b : List α} :
    (a.map fields).Perm (b.map fields) ↔ (a.map key).Perm (b.map key) := by
  have heq : fields = write ∘ key := funext hfields
  rw [heq, ← List.map_map, ← List.map_map, List.map_perm_map_iff hwrite]

/-- The components of a joined text. -/
def unjoin (text : String) : List ComponentId :=
  if text = "" then [] else (text.toList.splitOn ',').map fun name => ⟨String.ofList name⟩

/-- Names without a comma that are not empty are read back. -/
theorem unjoin_join {components : List ComponentId}
    (h : ∀ component ∈ components, ',' ∉ component.asStr.toList ∧ component.asStr ≠ "") :
    unjoin (",".intercalate (components.map (·.asStr))) = components := by
  cases components with
  | nil => rfl
  | cons first rest =>
    have hsplit : (",".intercalate ((first :: rest).map (·.asStr))).toList.splitOn ',' =
        (first :: rest).map (·.asStr.toList) := by
      rw [String.toList_intercalate, List.map_map]
      refine List.splitOn_intercalate ',' (fun name hname => ?_) (by simp)
      obtain ⟨component, hcomponent, rfl⟩ := List.mem_map.1 hname
      exact (h component hcomponent).1
    have hne : ",".intercalate ((first :: rest).map (·.asStr)) ≠ "" := by
      intro hempty
      rw [hempty] at hsplit
      have hfirst := (List.cons.inj hsplit).1
      exact (h first List.mem_cons_self).2 (String.toList_injective hfirst.symm)
    rw [unjoin, if_neg hne, hsplit, List.map_map]
    refine (List.map_congr_left fun component _ => ?_).trans (List.map_id _)
    cases component
    simp

/-- Inventories whose component ids have no comma do not differ in commas. -/
theorem not_differInCommas {a b : List ConfigurationInput}
    (h : ∀ input ∈ a ++ b, ∀ component ∈ input.components, ',' ∉ component.asStr.toList ∧ component.asStr ≠ "") :
    ¬ DifferInCommas a b := by
  rintro ⟨hdiffer, hjoined⟩
  have hback : ∀ l : List ConfigurationInput,
      (∀ input ∈ l, ∀ component ∈ input.components, ',' ∉ component.asStr.toList ∧ component.asStr ≠ "") →
      (l.map joinedKey).map (fun key => (key.1, key.2.1, unjoin key.2.2)) = l.map configurationKey := by
    intro l hl
    rw [List.map_map]
    refine List.map_congr_left fun input hinput => ?_
    rw [Function.comp_apply, joinedKey, configurationKey, unjoin_join (hl input hinput)]
  have hmapped := hjoined.map fun key => (key.1, key.2.1, unjoin key.2.2)
  rw [hback a fun input hin => h input (List.mem_append_left _ hin),
    hback b fun input hin => h input (List.mem_append_right _ hin)] at hmapped
  exact hdiffer hmapped

section
variable (sha256 : String → String)

theorem fingerprintSourceInputs_eq_iff {a b : List SourceUnit}
    (ha : ∀ source ∈ a, ∀ field ∈ sourceFields source, NulFree field)
    (hb : ∀ source ∈ b, ∀ field ∈ sourceFields source, NulFree field)
    (hcollision : sha256 (hashedText sourceFields a) = sha256 (hashedText sourceFields b) →
      hashedText sourceFields a = hashedText sourceFields b) :
    fingerprintSourceInputs sha256 a = fingerprintSourceInputs sha256 b ↔ (a.map sourceKey).Perm (b.map sourceKey) := by
  unfold fingerprintSourceInputs
  rw [sourceEntry_eq, fingerprint_eq_iff sha256 (by decide : 0 < 3) (fun _ => rfl) ha hb hcollision]
  refine map_fields_perm (fun key : SourceUnitId × Fingerprint × WorkspacePath => [key.1.asStr, key.2.1.asStr, key.2.2.asStr]) (fun record => ?_) ?_
  · rfl
  · rintro ⟨⟨a⟩, ⟨b⟩, ⟨c⟩⟩ ⟨⟨a'⟩, ⟨b'⟩, ⟨c'⟩⟩ h
    simp_all

theorem fingerprintArtifactCatalog_eq_iff {a b : List ArtifactDescriptor}
    (ha : ∀ descriptor ∈ a, ∀ field ∈ artifactFields descriptor, NulFree field)
    (hb : ∀ descriptor ∈ b, ∀ field ∈ artifactFields descriptor, NulFree field)
    (hcollision : sha256 (hashedText artifactFields a) = sha256 (hashedText artifactFields b) →
      hashedText artifactFields a = hashedText artifactFields b) :
    fingerprintArtifactCatalog sha256 a = fingerprintArtifactCatalog sha256 b ↔
      (a.map artifactKey).Perm (b.map artifactKey) := by
  unfold fingerprintArtifactCatalog
  rw [artifactEntry_eq, fingerprint_eq_iff sha256 (by decide : 0 < 3) (fun _ => rfl) ha hb hcollision]
  refine map_fields_perm (fun key : SourceUnitId × Fingerprint × Fingerprint => [key.1.asStr, key.2.1.asStr, key.2.2.asStr]) (fun record => ?_) ?_
  · rfl
  · rintro ⟨⟨a⟩, ⟨b⟩, ⟨c⟩⟩ ⟨⟨a'⟩, ⟨b'⟩, ⟨c'⟩⟩ h
    simp_all

theorem fingerprintConfigurationInputs_eq_iff {a b : List ConfigurationInput}
    (ha : ∀ input ∈ a, ∀ field ∈ configurationFields input, NulFree field)
    (hb : ∀ input ∈ b, ∀ field ∈ configurationFields input, NulFree field)
    (hcollision : sha256 (hashedText configurationFields a) = sha256 (hashedText configurationFields b) →
      hashedText configurationFields a = hashedText configurationFields b) :
    fingerprintConfigurationInputs sha256 a = fingerprintConfigurationInputs sha256 b ↔
      (a.map joinedKey).Perm (b.map joinedKey) := by
  unfold fingerprintConfigurationInputs
  rw [configurationEntry_eq, fingerprint_eq_iff sha256 (by decide : 0 < 3) (fun _ => rfl) ha hb hcollision]
  refine map_fields_perm (fun key : WorkspacePath × Fingerprint × String => [key.1.asStr, key.2.1.asStr, key.2.2])
    (fun record => ?_) ?_
  · rfl
  · rintro ⟨⟨a⟩, ⟨b⟩, c⟩ ⟨⟨a'⟩, ⟨b'⟩, c'⟩ h
    simp_all

end

/-- No path, id or fingerprint of the record has a NUL. -/
def ConfigurationInput.NulFree (input : ConfigurationInput) : Prop :=
  Kide.NulFree input.path.asStr ∧ Kide.NulFree input.fingerprint.asStr ∧
    ∀ component ∈ input.components, Kide.NulFree component.asStr

theorem ConfigurationInput.NulFree.fields {input : ConfigurationInput} (h : input.NulFree) :
    ∀ field ∈ configurationFields input, Kide.NulFree field := by
  obtain ⟨hpath, hfingerprint, hcomponents⟩ := h
  unfold configurationFields
  rw [List.forall_mem_cons, List.forall_mem_cons, List.forall_mem_singleton]
  refine ⟨hpath, hfingerprint, fun hmem => ?_⟩
  rw [String.toList_intercalate, List.map_map] at hmem
  rcases mem_intercalate hmem with h | ⟨name, hname, h⟩
  · revert h
    decide
  · obtain ⟨component, hcomponent, rfl⟩ := List.mem_map.1 hname
    exact hcomponents component hcomponent h

/-- The texts that the fingerprints of a checkpoint are digests of. -/
def checkpointTexts (inputs : List ConfigurationInput) (sources : List SourceUnit) (artifacts : List ArtifactDescriptor) :
    List String :=
  [digestInput (sortEntries (inputs.map configurationEntry)), digestInput (sortEntries (sources.map sourceEntry)),
    digestInput (sortEntries (artifacts.map artifactEntry))]

/-- **Fingerprints.** For a hash without a collision on the texts at hand, and records without NUL, the three fingerprints are
equal if and only if the records are the same up to order, for all inventories but those that differ in commas. -/
theorem fingerprints_faithful_iff (sha256 : String → String) (inputs inputs' : List ConfigurationInput)
    (sources sources' : List SourceUnit) (artifacts artifacts' : List ArtifactDescriptor)
    (hinputs : ∀ input ∈ inputs ++ inputs', input.NulFree)
    (hsources : ∀ source ∈ sources ++ sources', ∀ field ∈ sourceFields source, NulFree field)
    (hartifacts : ∀ descriptor ∈ artifacts ++ artifacts', ∀ field ∈ artifactFields descriptor, NulFree field)
    (hcollision : ∀ x ∈ checkpointTexts inputs sources artifacts, ∀ y ∈ checkpointTexts inputs' sources' artifacts',
      sha256 x = sha256 y → x = y) :
    ((fingerprintConfigurationInputs sha256 inputs = fingerprintConfigurationInputs sha256 inputs' ↔
        (inputs.map configurationKey).Perm (inputs'.map configurationKey)) ∧
      (fingerprintSourceInputs sha256 sources = fingerprintSourceInputs sha256 sources' ↔
        (sources.map sourceKey).Perm (sources'.map sourceKey)) ∧
      (fingerprintArtifactCatalog sha256 artifacts = fingerprintArtifactCatalog sha256 artifacts' ↔
        (artifacts.map artifactKey).Perm (artifacts'.map artifactKey))) ↔
    ¬ DifferInCommas inputs inputs' := by
  unfold checkpointTexts at hcollision
  rw [configurationEntry_eq, sourceEntry_eq, artifactEntry_eq] at hcollision
  have hconfiguration := fingerprintConfigurationInputs_eq_iff sha256
    (fun input hin => (hinputs input (List.mem_append_left _ hin)).fields)
    (fun input hin => (hinputs input (List.mem_append_right _ hin)).fields) (hcollision _ (by simp [hashedText]) _ (by simp [hashedText]))
  have hsource := fingerprintSourceInputs_eq_iff sha256 (fun source hin => hsources source (List.mem_append_left _ hin))
    (fun source hin => hsources source (List.mem_append_right _ hin)) (hcollision _ (by simp [hashedText]) _ (by simp [hashedText]))
  have hartifact := fingerprintArtifactCatalog_eq_iff sha256
    (fun descriptor hin => hartifacts descriptor (List.mem_append_left _ hin))
    (fun descriptor hin => hartifacts descriptor (List.mem_append_right _ hin)) (hcollision _ (by simp [hashedText]) _ (by simp [hashedText]))
  have hjoined : (inputs.map configurationKey).Perm (inputs'.map configurationKey) →
      (inputs.map joinedKey).Perm (inputs'.map joinedKey) := by
    intro h
    have hmapped := h.map fun key => (key.1, key.2.1, ",".intercalate (key.2.2.map (·.asStr)))
    rwa [List.map_map, List.map_map] at hmapped
  rw [hconfiguration, hsource, hartifact]
  unfold DifferInCommas
  tauto

/-! ## A directory with a comma -/

/-- The build file at the root, in the scope of these components. -/
def rootInput (components : List String) : ConfigurationInput :=
  ⟨⟨"settings.gradle"⟩, ⟨"sha256:settings"⟩, components.map ComponentId.mk⟩

theorem withoutCommas_faithful :
    let sha256 := fun text : String => hexDigest text.toByteArray.data.toList
    (fingerprintConfigurationInputs sha256 [rootInput ["gradle:x:main"]] =
        fingerprintConfigurationInputs sha256 [rootInput ["gradle:x:main", "gradle:y:main"]] ↔
      ([rootInput ["gradle:x:main"]].map configurationKey).Perm
        ([rootInput ["gradle:x:main", "gradle:y:main"]].map configurationKey)) := by
  refine ((fingerprints_faithful_iff (fun text => hexDigest text.toByteArray.data.toList) [rootInput ["gradle:x:main"]]
    [rootInput ["gradle:x:main", "gradle:y:main"]] [] [] [] [] ?_ (by simp) (by simp) (by decide +kernel)).2
      (not_differInCommas (by decide))).1
  unfold ConfigurationInput.NulFree NulFree
  decide

/-- One component at `x:main,gradle:y`, or two, at `x` and at `y`. -/
theorem comma_collides :
    ¬ ∀ (sha256 : String → String) (inputs inputs' : List ConfigurationInput), Function.Injective sha256 →
      (∀ input ∈ inputs ++ inputs', input.NulFree) →
      (fingerprintConfigurationInputs sha256 inputs = fingerprintConfigurationInputs sha256 inputs' ↔
        (inputs.map configurationKey).Perm (inputs'.map configurationKey)) := by
  intro h
  have hiff := h id [rootInput ["gradle:x:main,gradle:y:main"]] [rootInput ["gradle:x:main", "gradle:y:main"]]
    Function.injective_id (by unfold ConfigurationInput.NulFree NulFree; decide)
  exact absurd (hiff.1 (by decide)) (by decide)

end Kide
