import Mathlib.Data.List.MinMax
import Kide.Discovery
import Kide.Lib.OrderFree

/-!
# Component scopes

`component_scope` takes the containing roots with the longest text, `source_units` the one with the most names. The text of the
workspace root is a dot, as long as the name of a directory of one byte.

* `Deepest`: the root with the most names among those that contain a path;
* `scope_deepest_iff`: the inputs whose scope is the owner of the source files beside them.
-/

namespace Kide.Discovery
open Paths Collects

section
variable (roots : List RelPath) (path root : RelPath)

/-- No root that contains the path has more names. -/
def Deepest : Prop := root <+: path ∧ ∀ other ∈ roots, other <+: path → other.length ≤ root.length

instance : Decidable (Deepest roots path root) :=
  inferInstanceAs (Decidable (root <+: path ∧ ∀ other ∈ roots, other <+: path → other.length ≤ root.length))

end

section
variable {roots : List RelPath} {path : RelPath}

theorem exists_deepest (hroot : [] ∈ roots) : ∃ root ∈ roots, Deepest roots path root := by
  have hmem : [] ∈ roots.filter (· <+: path) := List.mem_filter.2 ⟨hroot, by simp⟩
  cases hmax : (roots.filter (· <+: path)).argmax List.length with
  | none =>
    rw [List.argmax_eq_none.1 hmax] at hmem
    cases hmem
  | some root =>
    obtain ⟨hin, hbelow⟩ := List.mem_filter.1 (List.argmax_mem hmax)
    refine ⟨root, hin, by simpa using hbelow, fun other hother hcontains => ?_⟩
    exact List.le_of_mem_argmax (List.mem_filter.2 ⟨hother, by simpa using hcontains⟩) hmax

theorem Deepest.eq {a b : RelPath} (ha : a ∈ roots) (hb : b ∈ roots) (h : Deepest roots path a) (h' : Deepest roots path b) :
    a = b := by
  have hlength : a.length = b.length := le_antisymm (h'.2 a ha h.1) (h.2 b hb h'.1)
  exact (List.prefix_of_prefix_length_le h.1 h'.1 hlength.le).eq_of_length hlength

/-- The containing roots contain one another. -/
theorem Deepest.contains {root other : RelPath} (h : Deepest roots path root) (hother : other ∈ roots) (hcontains : other <+: path) :
    other <+: root :=
  List.prefix_of_prefix_length_le hcontains h.1 (h.2 other hother hcontains)

theorem filter_deepest (hnodup : roots.Nodup) {root : RelPath} (hmem : root ∈ roots) (h : Deepest roots path root) :
    roots.filter (Deepest roots path ·) = [root] := by
  rw [← filter_key_eq_singleton id (by simpa using hnodup) hmem]
  refine List.filter_congr fun other hother => ?_
  rw [decide_eq_decide]
  refine ⟨fun hdeepest => hdeepest.eq hother hmem h, fun hsame => ?_⟩
  rw [show other = root from hsame]
  exact h

theorem startsWith_iff {root : RelPath} : startsWith path (workspacePath root) = true ↔ root <+: path := by
  unfold startsWith workspacePath RelPath.names
  rw [components_text, List.isPrefixOf_iff_prefix, RelPath.names, List.prefix_map_iff_of_injective FileName.asStr_injective]

/-- The longest text of a containing root is that of the deepest. -/
theorem utf8ByteSize_le {root other : RelPath} (h : Deepest roots path root) (hother : other ∈ roots) (hcontains : other <+: path) :
    other.text.utf8ByteSize ≤ root.text.utf8ByteSize := by
  by_cases hsame : other = root
  · rw [hsame]
  · by_cases hroot : other = []
    · rw [hroot, utf8ByteSize_root]
      exact utf8ByteSize_pos root
    · exact (utf8ByteSize_lt hroot (h.contains hother hcontains) hsame).le

/-- Another one has a text as long only if it is the root of the workspace. -/
theorem utf8ByteSize_eq_iff {root other : RelPath} (h : Deepest roots path root) (hother : other ∈ roots)
    (hcontains : other <+: path) :
    other.text.utf8ByteSize = root.text.utf8ByteSize ↔ other = root ∨ other = [] ∧ root.text.utf8ByteSize = 1 := by
  constructor
  · intro hsize
    by_cases hroot : other = []
    · refine .inr ⟨hroot, ?_⟩
      rw [← hsize, hroot, utf8ByteSize_root]
    · by_contra hne
      rw [not_or] at hne
      exact (utf8ByteSize_lt hroot (h.contains hother hcontains) hne.1).ne hsize
  · rintro (rfl | ⟨rfl, hsize⟩)
    · rfl
    · rw [utf8ByteSize_root, hsize]

end

theorem le_foldl_max (l : List Nat) (start : Nat) : start ≤ l.foldl max start ∧ ∀ n ∈ l, n ≤ l.foldl max start := by
  induction l generalizing start with
  | nil => exact ⟨le_rfl, fun _ hn => by cases hn⟩
  | cons m l ih =>
    obtain ⟨hstart, hall⟩ := ih (max start m)
    rw [List.foldl_cons]
    exact ⟨(le_max_left _ _).trans hstart, List.forall_mem_cons.2 ⟨(le_max_right _ _).trans hstart, hall⟩⟩

theorem foldl_max_le {l : List Nat} {start m : Nat} (hstart : start ≤ m) (h : ∀ n ∈ l, n ≤ m) : l.foldl max start ≤ m := by
  induction l generalizing start with
  | nil => exact hstart
  | cons n l ih =>
    obtain ⟨hn, hrest⟩ := List.forall_mem_cons.1 h
    exact ih (max_le hstart hn) hrest

theorem foldl_max_eq {l : List Nat} {m : Nat} (hmem : m ∈ l) (h : ∀ n ∈ l, n ≤ m) : l.foldl max 0 = m :=
  le_antisymm (foldl_max_le m.zero_le h) ((le_foldl_max l 0).2 m hmem)

/-- What a search in a sorted list finds comes before whatever else it could have found. -/
theorem find?_before {α : Type} {r : α → α → Prop} {l : List α} (hsorted : l.Pairwise r) {p : α → Bool} {a b : α}
    (h : l.find? p = some a) (hmem : b ∈ l) (hb : p b = true) : a = b ∨ r a b := by
  induction l with
  | nil => cases hmem
  | cons c l ih =>
    obtain ⟨hbefore, hrest⟩ := List.pairwise_cons.1 hsorted
    by_cases hc : p c = true
    · rw [List.find?_cons_of_pos hc] at h
      cases h
      rcases List.mem_cons.1 hmem with hsame | hin
      · exact .inl hsame.symm
      · exact .inr (hbefore b hin)
    · rw [List.find?_cons_of_neg hc] at h
      rcases List.mem_cons.1 hmem with hsame | hin
      · exact absurd (hsame ▸ hb) hc
      · exact ih hrest h hin

/-! ## The two choices -/

section
variable {roots : List RelPath} {buildSystem : RelPath → BuildSystem} {configuration : RelPath → Fingerprint}

/-- The component of a root. -/
def componentAt (buildSystem : RelPath → BuildSystem) (configuration : RelPath → Fingerprint) (root : RelPath) : Component :=
  makeComponent (buildSystem root) root (configuration root)

theorem componentAt_root (root : RelPath) : (componentAt buildSystem configuration root).root = workspacePath root := rfl

/-- **Scope.** The deepest root, and the root of the workspace if the two texts are of one byte. -/
theorem scopeOf_eq {path root : RelPath} (hmem : root ∈ roots) (h : Deepest roots path root) (hlength : path.length ≠ 1)
    (hconfig : path ≠ KIDE_CONFIG) :
    scopeOf (roots.map (componentAt buildSystem configuration)) path =
      (roots.filter fun other => other = root ∨ other = [] ∧ root.text.utf8ByteSize = 1).map
        (componentAt buildSystem configuration) := by
  have hstarts : ∀ other, startsWith path (componentAt buildSystem configuration other).root = true ↔ other <+: path :=
    fun other => startsWith_iff
  have hlongest : (((roots.map (componentAt buildSystem configuration)).filter fun component =>
      startsWith path component.root).map fun component => component.root.asStr.utf8ByteSize).foldl max 0 =
        root.text.utf8ByteSize := by
    refine foldl_max_eq ?_ fun size hsize => ?_
    · refine List.mem_map.2 ⟨componentAt buildSystem configuration root, List.mem_filter.2 ⟨?_, (hstarts root).2 h.1⟩, rfl⟩
      exact List.mem_map_of_mem hmem
    · obtain ⟨component, hcomponent, rfl⟩ := List.mem_map.1 hsize
      obtain ⟨hin, hcontains⟩ := List.mem_filter.1 hcomponent
      obtain ⟨other, hother, rfl⟩ := List.mem_map.1 hin
      exact utf8ByteSize_le h hother ((hstarts other).1 hcontains)
  unfold scopeOf
  rw [if_neg (not_or.2 ⟨hlength, hconfig⟩)]
  dsimp only
  rw [hlongest, List.filter_map]
  congr 1
  refine List.filter_congr fun other hother => ?_
  rw [Function.comp_apply, Bool.eq_iff_iff, Bool.and_eq_true, hstarts, decide_eq_true_eq, decide_eq_true_eq]
  constructor
  · rintro ⟨hcontains, hsize⟩
    exact (utf8ByteSize_eq_iff h hother hcontains).1 hsize
  · intro hsame
    have hcontains : other <+: path := by
      obtain rfl | ⟨rfl, -⟩ := hsame
      · exact h.1
      · exact List.nil_prefix
    exact ⟨hcontains, (utf8ByteSize_eq_iff h hother hcontains).2 hsame⟩

theorem find_component {root : RelPath} (hmem : root ∈ roots) :
    (roots.map (componentAt buildSystem configuration)).find? (·.root = workspacePath root) =
      some (componentAt buildSystem configuration root) := by
  rw [List.find?_map]
  cases hfind : roots.find? ((fun component : Component => decide (component.root = workspacePath root)) ∘
      componentAt buildSystem configuration) with
  | none =>
    have := List.find?_eq_none.1 hfind root hmem
    simp [componentAt_root] at this
  | some other =>
    have hsame := List.find?_some hfind
    rw [Function.comp_apply, componentAt_root, decide_eq_true_eq] at hsame
    rw [text_injective (WorkspacePath.mk.inj hsame)]
    rfl

/-- **Owner.** -/
theorem sourceOwner_eq {path root : RelPath} (hmem : root ∈ roots) (h : Deepest roots path root) :
    sourceOwner (roots.map (componentAt buildSystem configuration)) roots path =
      some (componentAt buildSystem configuration root) := by
  have hpairs : (roots.filterMap fun root =>
      ((roots.map (componentAt buildSystem configuration)).find? (·.root = workspacePath root)).map
        fun component => (root, component)) = roots.map fun root => (root, componentAt buildSystem configuration root) := by
    refine (List.filterMap_congr fun other hother => ?_).trans
      (congrFun (List.filterMap_eq_map (f := fun root => (root, componentAt buildSystem configuration root))) roots)
    rw [find_component hother]
    rfl
  unfold sourceOwner
  dsimp only
  rw [hpairs]
  have htotal : Std.Total fun a b : RelPath × Component => b.1.length ≤ a.1.length := ⟨fun a b => le_total b.1.length a.1.length⟩
  have htrans : IsTrans (RelPath × Component) fun a b => b.1.length ≤ a.1.length := ⟨fun _ _ _ hab hbc => hbc.trans hab⟩
  have hsorted := List.pairwise_insertionSort (fun a b : RelPath × Component => b.1.length ≤ a.1.length)
    (roots.map fun root => (root, componentAt buildSystem configuration root))
  have hin : (root, componentAt buildSystem configuration root) ∈
      (roots.map fun root => (root, componentAt buildSystem configuration root)).insertionSort
        fun a b => b.1.length ≤ a.1.length := (List.mem_insertionSort _).2 (List.mem_map_of_mem hmem)
  have hcontains : List.isPrefixOf (root, componentAt buildSystem configuration root).1 path = true :=
    List.isPrefixOf_iff_prefix.2 h.1
  cases hfind : ((roots.map fun root => (root, componentAt buildSystem configuration root)).insertionSort
      fun a b => b.1.length ≤ a.1.length).find? fun entry => entry.1.isPrefixOf path with
  | none => exact absurd hcontains (List.find?_eq_none.1 hfind _ hin)
  | some entry =>
    obtain ⟨other, hother, rfl⟩ := List.mem_map.1 ((List.mem_insertionSort _).1 (List.mem_of_find?_eq_some hfind))
    have hfound := List.find?_some hfind
    have hbelow : other <+: path := List.isPrefixOf_iff_prefix.1 hfound
    dsimp only
    obtain hsame | hlength := find?_before hsorted hfind hin hcontains
    · rw [(Prod.mk.inj hsame).1]
    · have hdeepest : Deepest roots path other :=
        ⟨hbelow, fun third hthird hcontains => (h.2 third hthird hcontains).trans hlength⟩
      rw [hdeepest.eq hother hmem h]

end

/-- A path that is no root is below the roots that its directory is below. -/
theorem deepest_directory {roots : List RelPath} {directory root : RelPath} {name : FileName} (hmem : root ∈ roots)
    (hfile : directory ++ [name] ∉ roots) : Deepest roots (directory ++ [name]) root ↔ Deepest roots directory root := by
  have hbelow : ∀ other ∈ roots, (other <+: directory ++ [name] ↔ other <+: directory) := by
    intro other hother
    rw [List.prefix_concat_iff]
    refine ⟨fun h => h.resolve_left fun hsame => hfile (hsame ▸ hother), .inr⟩
  unfold Deepest
  rw [hbelow root hmem]
  exact and_congr_right fun _ => forall₂_congr fun other hother => by rw [hbelow other hother]

/-- **Component scope.** The scope of an input below the root of the workspace is the deepest component around it, which owns the
source files beside it, if and only if that is not a component at the root with a name of one byte. -/
theorem scope_deepest_iff (roots : List RelPath) (buildSystem : RelPath → BuildSystem)
    (configuration : RelPath → Fingerprint) (directory : RelPath) (input source : FileName) (hnodup : roots.Nodup)
    (hroot : [] ∈ roots) (hdirectory : directory ≠ []) (hconfig : directory ++ [input] ≠ KIDE_CONFIG)
    (hinput : directory ++ [input] ∉ roots) (hsource : directory ++ [source] ∉ roots) :
    let components := roots.map (componentAt buildSystem configuration)
    let scope := componentScope components (directory ++ [input])
    (scope = (roots.filter (Deepest roots (directory ++ [input]) ·)).map
        (fun root => (componentAt buildSystem configuration root).id) ∧
      (sourceOwner components roots (directory ++ [source])).map (fun owner => [owner.id]) = some scope) ↔
    ∀ root ∈ roots, Deepest roots (directory ++ [input]) root → root = [] ∨ root.text.utf8ByteSize ≠ 1 := by
  dsimp only
  obtain ⟨root, hmem, hdeepest⟩ := @exists_deepest roots (directory ++ [input]) hroot
  have howner : Deepest roots (directory ++ [source]) root :=
    (deepest_directory hmem hsource).2 ((deepest_directory hmem hinput).1 hdeepest)
  have hlength : (directory ++ [input]).length ≠ 1 := by
    have hpositive := List.length_pos_iff.2 hdirectory
    rw [List.length_append, List.length_singleton]
    omega
  rw [componentScope, scopeOf_eq hmem hdeepest hlength hconfig, filter_deepest hnodup hmem hdeepest,
    sourceOwner_eq hmem howner, List.map_map, List.map_singleton, Option.map_some]
  have hsingle : (∀ other ∈ roots, Deepest roots (directory ++ [input]) other → other = [] ∨ other.text.utf8ByteSize ≠ 1) ↔
      (root = [] ∨ root.text.utf8ByteSize ≠ 1) :=
    ⟨fun h => h root hmem hdeepest, fun h other hother hother' => hdeepest.eq hmem hother hother' ▸ h⟩
  rw [hsingle]
  constructor
  · rintro ⟨hscope, -⟩
    by_contra hbyte
    rw [not_or, not_not] at hbyte
    obtain ⟨hne, hsize⟩ := hbyte
    have hone := congrArg List.length hscope
    rw [List.length_map, List.length_singleton, List.length_eq_one_iff] at hone
    obtain ⟨only, honly⟩ := hone
    have hboth : ∀ other ∈ roots, other = root ∨ other = [] → other = only := by
      intro other hother hsame
      rw [← List.mem_singleton, ← honly]
      exact List.mem_filter.2 ⟨hother, by simpa [hsize] using hsame⟩
    exact hne ((hboth root hmem (.inl rfl)).trans (hboth [] hroot (.inr rfl)).symm)
  · intro hbyte
    have hfilter : roots.filter (fun other => other = root ∨ other = [] ∧ root.text.utf8ByteSize = 1) = [root] := by
      rw [← filter_deepest hnodup hmem hdeepest]
      refine List.filter_congr fun other hother => ?_
      rw [decide_eq_decide]
      constructor
      · rintro (rfl | ⟨rfl, hsize⟩)
        · exact hdeepest
        · obtain rfl := hbyte.resolve_right (not_not.2 hsize)
          exact hdeepest
      · exact fun h => .inl (h.eq hother hmem hdeepest)
    rw [hfilter]
    exact ⟨rfl, rfl⟩

/-! ## Two modules -/

/-- A Gradle module in a directory of this name, and the root. -/
def moduleRoots (name : FileName) : List RelPath := [[], [name]]

theorem longName_scope :
    let components := (moduleRoots (.of "app")).map (componentAt (fun _ => .gradle) fun _ => ⟨"sha256:context"⟩)
    let scope := componentScope components [.of "app", .of "build.gradle"]
    scope = ((moduleRoots (.of "app")).filter (Deepest (moduleRoots (.of "app")) [.of "app", .of "build.gradle"] ·)).map
        (fun root => (componentAt (fun _ => .gradle) (fun _ => ⟨"sha256:context"⟩) root).id) ∧
      (sourceOwner components (moduleRoots (.of "app")) [.of "app", .of "Main.kt"]).map (fun owner => [owner.id]) =
        some scope :=
  (scope_deepest_iff (moduleRoots (.of "app")) (fun _ => .gradle) (fun _ => ⟨"sha256:context"⟩) [.of "app"]
    (.of "build.gradle") (.of "Main.kt") (by decide) (by decide) (by decide) (by decide) (by decide) (by decide)).2 (by decide)

/-- The scope of the build file has the component of the workspace in it. -/
theorem shortName_scope :
    ¬ ∀ (roots : List RelPath) (directory : RelPath) (input : FileName), roots.Nodup → [] ∈ roots → directory ≠ [] →
      directory ++ [input] ≠ KIDE_CONFIG → directory ++ [input] ∉ roots →
      componentScope (roots.map (componentAt (fun _ => .gradle) fun _ => ⟨"sha256:context"⟩)) (directory ++ [input]) =
        (roots.filter (Deepest roots (directory ++ [input]) ·)).map
          fun root => (componentAt (fun _ => .gradle) (fun _ => ⟨"sha256:context"⟩) root).id := by
  intro h
  have hscope := h (moduleRoots (.of "a")) [.of "a"] (.of "build.gradle") (by decide) (by decide) (by decide) (by decide)
    (by decide)
  revert hscope
  decide

end Kide.Discovery
