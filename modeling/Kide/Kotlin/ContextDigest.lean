import Kide.Artifact.Bytecode
import Kide.Kotlin.PublicApi
import Kide.Lib.Distinct
import Kide.Lib.Fields

/-!
# The digest of a component context

`ComponentContextDigest.kt`: the texts an importer makes of a component, hashed under the kind each is of.

* `codeUnits_injective`, `sortedBy_eq_of_perm` : Kotlin's order of strings and what a sort by it takes from a list;
* `input_eq_iff` : texts without NUL are hashed to the same bytes if and only if they are the same up to order;
* `fingerprint_eq_iff` : so they have one fingerprint, where the hash has no collision.
-/

namespace Kide

open Fields Collects

/-! ## Kotlin's order of strings -/

namespace JvmBytecodeExtractor

open JvmArtifactBlobLayout

theorem codeUnits_cons (c : Char) (l : List Char) :
    codeUnits (String.ofList (c :: l)) =
      (if c.toNat < 0x10000 then [c.toNat]
        else [0xd800 + (c.toNat - 0x10000) / 0x400, 0xdc00 + (c.toNat - 0x10000) % 0x400]) ++ codeUnits (String.ofList l) := by
  simp only [codeUnits, String.toList_ofList, List.flatMap_cons]

/-- No character is a surrogate. -/
theorem char_range (c : Char) : c.toNat < 0xd800 ∨ 0xdfff < c.toNat ∧ c.toNat < 0x110000 := c.valid

theorem codeUnits_injective : Function.Injective codeUnits := by
  have hlist : ∀ a b : List Char, codeUnits (String.ofList a) = codeUnits (String.ofList b) → a = b := by
    intro a
    induction a with
    | nil =>
      intro b h
      cases b with
      | nil => rfl
      | cons d b =>
        rw [codeUnits_cons] at h
        split at h <;> cases h
    | cons c a ih =>
      intro b h
      cases b with
      | nil =>
        rw [codeUnits_cons] at h
        split at h <;> cases h
      | cons d b =>
        have hc := char_range c
        have hd := char_range d
        rw [codeUnits_cons, codeUnits_cons] at h
        have hchar : c.toNat = d.toNat ∧ codeUnits (String.ofList a) = codeUnits (String.ofList b) := by
          split at h <;> split at h <;> simp only [List.cons_append, List.nil_append, List.cons.injEq] at h
          · exact h
          · omega
          · omega
          · refine ⟨?_, h.2.2⟩
            omega
        rw [Char.toNat_inj.1 hchar.1, ih b hchar.2]
  intro a b h
  have htexts := hlist a.toList b.toList (by rwa [String.ofList_toList, String.ofList_toList])
  exact String.toList_injective htexts

section
variable {α : Type} {text : α → String} {l l' : List α}

instance : IsTrans α fun a b => codeUnitsLe (text a) (text b) := ⟨fun _ _ _ hab hbc => List.le_trans hab hbc⟩

instance : Std.Total fun a b : α => codeUnitsLe (text a) (text b) := ⟨fun a b => List.le_total (codeUnits (text a)) (codeUnits (text b))⟩

theorem codeUnitsLe_antisymm {a b : String} (hab : codeUnitsLe a b) (hba : codeUnitsLe b a) : a = b :=
  codeUnits_injective (List.le_antisymm hab hba)

theorem sortedBy_perm (text : α → String) (l : List α) : (sortedBy text l).Perm l := List.perm_insertionSort _ l

theorem sortedBy_pairwise (text : α → String) (l : List α) :
    (sortedBy text l).Pairwise fun a b => codeUnitsLe (text a) (text b) := List.pairwise_insertionSort _ l

theorem sortedBy_eq_of_perm (hinj : Function.Injective text) (h : l.Perm l') : sortedBy text l = sortedBy text l' :=
  insertionSort_eq_of_perm (fun _ _ _ _ hab hba => hinj (codeUnitsLe_antisymm hab hba)) h

theorem sortedBy_eq_iff (hinj : Function.Injective text) : sortedBy text l = sortedBy text l' ↔ l.Perm l' :=
  ⟨fun h => (sortedBy_perm text l).symm.trans (h ▸ sortedBy_perm text l'), sortedBy_eq_of_perm hinj⟩

/-- What is kept of a sort, if the key tells the kept elements apart. -/
theorem sortedBy_filter_eq {p : α → Bool} (hinj : ∀ a b, p a → p b → text a = text b → a = b) (h : l.Perm l') :
    (sortedBy text l).filter p = (sortedBy text l').filter p := by
  have hperm : ((sortedBy text l).filter p).Perm ((sortedBy text l').filter p) :=
    ((sortedBy_perm text l).trans (h.trans (sortedBy_perm text l').symm)).filter p
  refine hperm.eq_of_pairwise (fun a b ha hb hab hba => ?_) ((sortedBy_pairwise text l).sublist List.filter_sublist)
    ((sortedBy_pairwise text l').sublist List.filter_sublist)
  exact hinj a b (List.mem_filter.1 ha).2 (List.mem_filter.1 hb).2 (codeUnitsLe_antisymm hab hba)

end

theorem utf8_append (a b : String) : utf8 (a ++ b) = utf8 a ++ utf8 b := by
  rw [PublicApi.utf8_eq, PublicApi.utf8_eq, PublicApi.utf8_eq, String.toList_append, List.flatMap_append]

end JvmBytecodeExtractor

/-! ## The digest -/

namespace ComponentContextDigest

open JvmBytecodeExtractor

/-- What an importer says of a component. -/
structure Texts where
  component : String
  sourceSets : List String
  artifacts : List String
  dependencyEdges : List String
  toolchain : List String
deriving DecidableEq, Repr

def workerName : String := "kide-kotlin-jvm"

def workerVersion : String := "0.1.0"

def workerProtocolVersion : Nat := 3

def update (kind value : String) : Bytes := utf8 kind ++ [0] ++ utf8 value ++ [0]

def sorted (values : List String) : List String := sortedBy (fun value => value) values

def workerLines : List String :=
  ["worker=" ++ workerName ++ "@" ++ workerVersion, "worker-protocol=" ++ toString workerProtocolVersion]

/-- The kind and the value of every update, in order. -/
def records (texts : Texts) : List (String × String) :=
  [("schema", "component-context-v1"), ("component", texts.component)] ++
    (sorted texts.sourceSets).map (Prod.mk "source-set") ++
    (sorted texts.artifacts).map (Prod.mk "artifact") ++
    (sorted texts.dependencyEdges).map (Prod.mk "dependency") ++
    (sorted (texts.toolchain ++ workerLines)).map (Prod.mk "toolchain")

/-- The bytes that are hashed. -/
def input (texts : Texts) : Bytes := (records texts).flatMap fun record => update record.1 record.2

def fingerprint (texts : Texts) : String := "sha256:" ++ hexDigest (input texts)

/-! ## What it tells apart -/

/-- The same texts up to order. -/
structure Texts.Alike (a b : Texts) : Prop where
  component : a.component = b.component
  sourceSets : a.sourceSets.Perm b.sourceSets
  artifacts : a.artifacts.Perm b.artifacts
  dependencyEdges : a.dependencyEdges.Perm b.dependencyEdges
  toolchain : a.toolchain.Perm b.toolchain

structure Texts.NulFree (texts : Texts) : Prop where
  component : '\x00' ∉ texts.component.toList
  sourceSets : ∀ text ∈ texts.sourceSets, '\x00' ∉ text.toList
  artifacts : ∀ text ∈ texts.artifacts, '\x00' ∉ text.toList
  dependencyEdges : ∀ text ∈ texts.dependencyEdges, '\x00' ∉ text.toList
  toolchain : ∀ text ∈ texts.toolchain, '\x00' ∉ text.toList

theorem input_eq (texts : Texts) :
    input texts = utf8 (terminated '\x00' ((records texts).flatMap fun record => [record.1, record.2])) := by
  unfold input
  have hzero : utf8 (String.singleton '\x00') = [0] := by decide
  generalize records texts = l
  induction l with
  | nil => rfl
  | cons record l ih =>
    rw [List.flatMap_cons, List.flatMap_cons, terminated_append, utf8_append, ← ih]
    simp only [update, terminated_cons, terminated_nil, utf8_append, hzero, String.append_empty, List.append_assoc]

theorem mem_sorted {values : List String} {value : String} : value ∈ sorted values ↔ value ∈ values :=
  (sortedBy_perm _ values).mem_iff

theorem Texts.NulFree.records {texts : Texts} (h : texts.NulFree) :
    ∀ field ∈ (records texts).flatMap (fun record => [record.1, record.2]), '\x00' ∉ field.toList := by
  have hworker : ∀ text ∈ workerLines, '\x00' ∉ text.toList := by decide
  have hkind : ∀ kind ∈ ["schema", "component", "source-set", "artifact", "dependency", "toolchain", "component-context-v1"],
      '\x00' ∉ kind.toList := by decide
  intro field hfield
  obtain ⟨record, hrecord, hfield⟩ := List.mem_flatMap.1 hfield
  simp only [ComponentContextDigest.records, List.mem_append, List.mem_map, List.mem_cons, List.not_mem_nil, or_false,
    mem_sorted] at hrecord
  simp only [List.mem_cons, List.not_mem_nil, or_false] at hfield
  rcases hrecord with ((((rfl | rfl) | ⟨value, hvalue, rfl⟩) | ⟨value, hvalue, rfl⟩) | ⟨value, hvalue, rfl⟩) |
    ⟨value, hvalue, rfl⟩ <;> rcases hfield with rfl | rfl
  · exact hkind _ (by simp)
  · exact hkind _ (by simp)
  · exact hkind _ (by simp)
  · exact h.component
  · exact hkind _ (by simp)
  · exact h.sourceSets _ hvalue
  · exact hkind _ (by simp)
  · exact h.artifacts _ hvalue
  · exact hkind _ (by simp)
  · exact h.dependencyEdges _ hvalue
  · exact hkind _ (by simp)
  · rcases hvalue with hvalue | hvalue
    · exact h.toolchain _ hvalue
    · exact hworker _ hvalue

/-- The values that were hashed under a kind. -/
def valuesOf (kind : String) (records : List (String × String)) : List String :=
  (records.filter (·.1 = kind)).map (·.2)

theorem valuesOf_append (kind : String) (a b : List (String × String)) :
    valuesOf kind (a ++ b) = valuesOf kind a ++ valuesOf kind b := by
  rw [valuesOf, List.filter_append, List.map_append]
  rfl

theorem valuesOf_map_self (kind : String) (values : List String) : valuesOf kind (values.map (Prod.mk kind)) = values := by
  rw [valuesOf, List.filter_eq_self.2 (by simp), List.map_map]
  exact List.map_id _

theorem valuesOf_map_ne {kind other : String} (h : other ≠ kind) (values : List String) :
    valuesOf kind (values.map (Prod.mk other)) = [] := by
  rw [valuesOf, List.filter_eq_nil_iff.2 (by simpa using fun _ _ => h), List.map_nil]

theorem records_alike {a b : Texts} (h : records a = records b) : a.Alike b := by
  have hvalues : ∀ kind, valuesOf kind (records a) = valuesOf kind (records b) := fun kind => congrArg _ h
  have hsorted : ∀ l l' : List String, sorted l = sorted l' → l.Perm l' := fun _ _ =>
    (sortedBy_eq_iff Function.injective_id).1
  have hcomponent := hvalues "component"
  have hsource := hvalues "source-set"
  have hartifact := hvalues "artifact"
  have hdependency := hvalues "dependency"
  have htoolchain := hvalues "toolchain"
  simp (disch := decide) only [records, valuesOf_append, valuesOf_map_self, valuesOf_map_ne, List.append_nil]
    at hcomponent hsource hartifact hdependency htoolchain
  refine ⟨?_, hsorted _ _ hsource, hsorted _ _ hartifact, hsorted _ _ hdependency,
    (List.perm_append_right_iff _).1 (hsorted _ _ htoolchain)⟩
  exact (List.cons.inj hcomponent).1

theorem records_eq_of_alike {a b : Texts} (h : a.Alike b) : records a = records b := by
  have hsorted : ∀ l l' : List String, l.Perm l' → sorted l = sorted l' := fun _ _ => sortedBy_eq_of_perm Function.injective_id
  rw [records, records, h.component, hsorted _ _ h.sourceSets, hsorted _ _ h.artifacts, hsorted _ _ h.dependencyEdges,
    hsorted _ _ (h.toolchain.append_right workerLines)]

/-- **Read back.** -/
theorem input_eq_iff {a b : Texts} (ha : a.NulFree) (hb : b.NulFree) : input a = input b ↔ a.Alike b := by
  constructor
  · intro h
    rw [input_eq, input_eq] at h
    have htext := PublicApi.utf8_inj h
    rw [terminated_inj ha.records hb.records, flatMap_inj (by decide : 0 < 2) (fun _ => rfl)] at htext
    refine records_alike (List.map_injective_iff.2 (fun x y hxy => ?_) htext)
    obtain ⟨hfirst, hsecond⟩ := List.cons.inj hxy
    exact Prod.ext hfirst (List.cons.inj hsecond).1
  · intro h
    rw [input, input, records_eq_of_alike h]

theorem fingerprint_eq_of_alike {a b : Texts} (h : a.Alike b) : fingerprint a = fingerprint b := by
  rw [fingerprint, fingerprint, input, input, records_eq_of_alike h]

theorem fingerprint_eq_iff {a b : Texts} (ha : a.NulFree) (hb : b.NulFree)
    (hcollision : hexDigest (input a) = hexDigest (input b) → input a = input b) : fingerprint a = fingerprint b ↔ a.Alike b :=
  ⟨fun h => (input_eq_iff ha hb).1 (hcollision ((String.append_right_inj _).1 h)), fingerprint_eq_of_alike⟩

end ComponentContextDigest

end Kide
