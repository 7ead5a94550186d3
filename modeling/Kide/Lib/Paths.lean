import Mathlib.Data.List.Sort
import Mathlib.Data.String.Basic
import Kide.Lib.Fields

/-!
# Relative paths

A path below a root is the list of its names; none is empty, a dot or two dots, and none has a slash or a NUL. Its text has a
slash between two names, and a dot for the root itself.

* `components`: the names that a text has, empty ones and dots left out, `components_text`;
* `text_injective`: different paths have different texts;
* `utf8ByteSize_lt`: the text of a directory below another one is longer, unless that is the root.
-/

namespace Paths

structure FileName where
  asStr : String
  valid : asStr ≠ "" ∧ asStr ≠ "." ∧ asStr ≠ ".." ∧ '/' ∉ asStr.toList ∧ '\x00' ∉ asStr.toList
deriving DecidableEq, Repr

abbrev RelPath := List FileName

/-- The name is there, written out. -/
def FileName.of (name : String)
    (valid : name ≠ "" ∧ name ≠ "." ∧ name ≠ ".." ∧ '/' ∉ name.toList ∧ '\x00' ∉ name.toList := by decide) : FileName :=
  ⟨name, valid⟩

theorem FileName.ext {a b : FileName} (h : a.asStr = b.asStr) : a = b := by
  cases a
  cases b
  cases h
  rfl

theorem FileName.asStr_injective : Function.Injective FileName.asStr := fun _ _ => FileName.ext

namespace RelPath

/-- Each name, then the next. -/
def names (path : RelPath) : List String := path.map (·.asStr)

def text : RelPath → String
  | [] => "."
  | path => "/".intercalate path.names

/-- Order by names, one after the other. -/
def le (a b : RelPath) : Prop := a.names ≤ b.names

instance : DecidableRel le := fun a b => inferInstanceAs (Decidable (a.names ≤ b.names))

theorem names_injective : Function.Injective names := List.map_injective_iff.2 FileName.asStr_injective

end RelPath

/-- The names of a relative path text. -/
def components (text : String) : List String :=
  ((text.toList.splitOn '/').filter fun name => name ≠ [] ∧ name ≠ ['.']).map String.ofList

theorem toList_text_cons (name : FileName) (path : RelPath) :
    (RelPath.text (name :: path)).toList = ['/'].intercalate ((name :: path).map (·.asStr.toList)) := by
  unfold RelPath.text RelPath.names
  rw [String.toList_intercalate, List.map_map]
  rfl

theorem splitOn_text_cons (name : FileName) (path : RelPath) :
    (RelPath.text (name :: path)).toList.splitOn '/' = (name :: path).map (·.asStr.toList) := by
  rw [toList_text_cons, List.splitOn_intercalate]
  · simp only [List.forall_mem_map]
    exact fun name _ => name.valid.2.2.2.1
  · simp

theorem components_text (path : RelPath) : components path.text = path.names := by
  cases path with
  | nil => rfl
  | cons name path =>
    unfold components
    rw [splitOn_text_cons, List.filter_eq_self.2, List.map_map, RelPath.names]
    · exact List.map_congr_left fun name _ => String.ofList_toList
    · simp only [List.forall_mem_map, decide_eq_true_eq]
      intro name _
      obtain ⟨hempty, hdot, -⟩ := name.valid
      exact ⟨fun h => hempty (String.toList_injective h), fun h => hdot (String.toList_injective h)⟩

theorem text_injective : Function.Injective RelPath.text := by
  intro a b h
  refine RelPath.names_injective ?_
  rw [← components_text, ← components_text, h]

theorem text_nul (path : RelPath) : '\x00' ∉ path.text.toList := by
  cases path with
  | nil => decide
  | cons name path =>
    intro hmem
    rw [toList_text_cons] at hmem
    rcases Fields.mem_intercalate hmem with h | ⟨part, hpart, h⟩
    · revert h
      decide
    · obtain ⟨other, -, rfl⟩ := List.mem_map.1 hpart
      exact other.valid.2.2.2.2 h

/-! ## Bytes -/

theorem utf8ByteSize_eq (s : String) : s.utf8ByteSize = Text.byteLength s.toList := (Text.byteLength_toList s).symm

theorem byteLength_intercalate_lt {a b : List (List Char)} (ha : a ≠ []) (hb : b ≠ []) :
    Text.byteLength (['/'].intercalate a) < Text.byteLength (['/'].intercalate (a ++ b)) := by
  have hslash : Text.byteLength ['/'] = 1 := rfl
  induction a with
  | nil => exact absurd rfl ha
  | cons name a ih =>
    by_cases hrest : a = []
    · rw [hrest, List.singleton_append, List.intercalate_cons_of_ne_nil hb, List.intercalate_singleton]
      simp only [Text.byteLength_append]
      omega
    · rw [List.cons_append, List.intercalate_cons_of_ne_nil hrest,
        List.intercalate_cons_of_ne_nil (List.append_ne_nil_of_left_ne_nil hrest b)]
      simp only [Text.byteLength_append]
      have hlt := ih hrest
      omega

/-- **Longer.** -/
theorem utf8ByteSize_lt {a b : RelPath} (hne : a ≠ []) (hbelow : a <+: b) (hab : a ≠ b) :
    a.text.utf8ByteSize < b.text.utf8ByteSize := by
  obtain ⟨rest, rfl⟩ := hbelow
  obtain ⟨name, path, rfl⟩ := List.exists_cons_of_ne_nil hne
  have hrest : rest ≠ [] := fun h => hab (by rw [h, List.append_nil])
  rw [utf8ByteSize_eq, utf8ByteSize_eq, List.cons_append, toList_text_cons, toList_text_cons, ← List.cons_append,
    List.map_append]
  exact byteLength_intercalate_lt (by simp) (by simpa using hrest)

theorem utf8ByteSize_root : (RelPath.text []).utf8ByteSize = 1 := rfl

theorem utf8ByteSize_pos (path : RelPath) : 0 < path.text.utf8ByteSize := by
  have hne : path.text ≠ "" := by
    cases path with
    | nil => decide
    | cons name path =>
      intro h
      have hnames := components_text (name :: path)
      rw [h] at hnames
      cases hnames
  rw [Nat.pos_iff_ne_zero, Ne, String.utf8ByteSize_eq_zero_iff]
  exact hne

end Paths
