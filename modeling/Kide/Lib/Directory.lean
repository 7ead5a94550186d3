import Mathlib.Data.List.Basic
import Mathlib.Logic.Function.Basic

/-!
# Directories

Names bound to files. A file has a number of its own that no later file gets, so it can be bound to
several names and can outlive them.

* `createNew` and `hardLink` refuse a name that is bound (`O_EXCL`, `link(2)`);
* `append` writes through a file's number, whatever its names are by then.
-/

namespace Directories

structure Directory (ν β : Type) where
  entries : ν → Option Nat
  files : Nat → List β
  next : Nat
  fresh : ∀ name inode, entries name = some inode → inode < next

variable {ν β : Type}

def empty : Directory ν β := ⟨fun _ => none, fun _ => [], 0, fun _ _ h => (nomatch h)⟩

namespace Directory
variable (d : Directory ν β)

def read (name : ν) : Option (List β) := (d.entries name).map d.files

def append (inode : Nat) (bytes : List β) : Directory ν β :=
  { d with files := fun other => if other = inode then d.files inode ++ bytes else d.files other }

section Append
variable {d} {name : ν} {inode : Nat} {bytes : List β}

@[simp] theorem append_entries : (d.append inode bytes).entries = d.entries := rfl

theorem append_files_self : (d.append inode bytes).files inode = d.files inode ++ bytes := by simp [append]

theorem append_files_ne {i : Nat} (h : i ≠ inode) : (d.append inode bytes).files i = d.files i := by simp [append, h]

theorem append_read (h : d.entries name ≠ some inode) : (d.append inode bytes).read name = d.read name := by
  unfold read
  rw [append_entries]
  cases hentry : d.entries name with
  | none => rfl
  | some i =>
    have hne : i ≠ inode := fun heq => h (heq ▸ hentry)
    rw [Option.map_some, Option.map_some, append_files_ne hne]

end Append

variable [DecidableEq ν]

/-- Binds a name to a new empty file. -/
def createNew (name : ν) : Directory ν β where
  entries := Function.update d.entries name (some d.next)
  files := Function.update d.files d.next []
  next := d.next + 1
  fresh other inode h := by
    by_cases hname : other = name
    · subst hname
      rw [Function.update_self] at h
      cases h
      exact Nat.lt_succ_self _
    · rw [Function.update_of_ne hname] at h
      exact Nat.lt_succ_of_lt (d.fresh other inode h)

/-- Binds `target` to the file of `source`. -/
def hardLink (source target : ν) : Directory ν β where
  entries := Function.update d.entries target (d.entries source)
  files := d.files
  next := d.next
  fresh other inode h := by
    by_cases hname : other = target
    · subst hname
      rw [Function.update_self] at h
      exact d.fresh source inode h
    · rw [Function.update_of_ne hname] at h
      exact d.fresh other inode h

def unlink (name : ν) : Directory ν β where
  entries := Function.update d.entries name none
  files := d.files
  next := d.next
  fresh other inode h := by
    by_cases hname : other = name
    · subst hname
      rw [Function.update_self] at h
      cases h
    · rw [Function.update_of_ne hname] at h
      exact d.fresh other inode h

/-! ## What an operation leaves -/

variable {d} {name other source target : ν} {inode : Nat}

@[simp] theorem createNew_entries_self : (d.createNew name).entries name = some d.next := Function.update_self ..

theorem createNew_entries_ne (h : other ≠ name) : (d.createNew name).entries other = d.entries other :=
  Function.update_of_ne h ..

/-- The file of a bound name is older than a new file. -/
theorem createNew_files (h : d.entries other = some inode) : (d.createNew name).files inode = d.files inode :=
  Function.update_of_ne (Nat.ne_of_lt (d.fresh other inode h)) ..

@[simp] theorem createNew_files_next : (d.createNew name).files d.next = [] := Function.update_self ..

theorem createNew_read (h : other ≠ name) : (d.createNew name).read other = d.read other := by
  unfold read
  rw [createNew_entries_ne h]
  cases hentry : d.entries other with
  | none => rfl
  | some inode => rw [Option.map_some, Option.map_some, createNew_files hentry]

@[simp] theorem hardLink_files : (d.hardLink source target).files = d.files := rfl

@[simp] theorem hardLink_entries_self : (d.hardLink source target).entries target = d.entries source := Function.update_self ..

theorem hardLink_entries_ne (h : other ≠ target) : (d.hardLink source target).entries other = d.entries other :=
  Function.update_of_ne h ..

theorem hardLink_read_self : (d.hardLink source target).read target = d.read source := by
  unfold read
  rw [hardLink_entries_self, hardLink_files]

theorem hardLink_read_ne (h : other ≠ target) : (d.hardLink source target).read other = d.read other := by
  unfold read
  rw [hardLink_entries_ne h, hardLink_files]

@[simp] theorem unlink_files : (d.unlink name).files = d.files := rfl

@[simp] theorem unlink_entries_self : (d.unlink name).entries name = none := Function.update_self ..

theorem unlink_entries_ne (h : other ≠ name) : (d.unlink name).entries other = d.entries other :=
  Function.update_of_ne h ..

theorem unlink_read_ne (h : other ≠ name) : (d.unlink name).read other = d.read other := by
  unfold read
  rw [unlink_entries_ne h, unlink_files]

end Directory

end Directories
