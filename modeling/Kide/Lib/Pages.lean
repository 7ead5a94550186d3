import Mathlib.Data.List.Nodup

/-!
# Pages

A list served page by page: a page is asked for with the key of the last element of the page before, and it comes with the cursor
of the next page unless it is the last one.

* `page_cursorAfter` : the page after the first `k` elements;
* `crawl_succ_eq_ok_iff` : a crawl by its first page;
* `crawl_page` : following the cursors ends, and the pages are the list cut into pieces, if no two elements have one key;
* `crawl_through` : pages that are worked on one after another.
-/

namespace Pages

variable {α β γ κ : Type}

/-- How many elements come before the page. -/
def start [DecidableEq κ] (key : α → κ) (l : List α) : Option κ → Option Nat
  | none => some 0
  | some previous => (l.findIdx? fun a => key a = previous).map (· + 1)

/-- At most `size` elements from a position, and the cursor of the next page. -/
def pageFrom (key : α → κ) (l : List α) (size start : Nat) : List α × Option κ :=
  let batch := (l.drop start).take size
  (batch, if start + batch.length < l.length then batch.getLast?.map key else none)

/-- The page after the element the cursor names. -/
def page [DecidableEq κ] (key : α → κ) (l : List α) (size : Nat) (cursor : Option κ) : Option (List α × Option κ) :=
  (start key l cursor).map (pageFrom key l size)

inductive Stop where
  | refused | stillPaging
deriving DecidableEq, Repr

/-- Asks for pages until one comes without a cursor; `fuel` bounds their number. -/
def crawl (ask : Option κ → Option (β × Option κ)) : Nat → Option κ → Except Stop (List β)
  | 0, _ => .error .stillPaging
  | fuel + 1, cursor =>
    match ask cursor with
    | none => .error .refused
    | some (found, none) => .ok [found]
    | some (found, some next) => (crawl ask fuel (some next)).map (found :: ·)

/-- An answer that is worked on before it is handed out. -/
def through (ask : Option κ → Option (β × Option κ)) (f : β → Option γ) (cursor : Option κ) : Option (γ × Option κ) :=
  (ask cursor).bind fun answer => (f answer.1).map fun c => (c, answer.2)

/-! ## One page -/

section Page
variable [DecidableEq κ] {key : α → κ} {l : List α} {size : Nat}

/-- The cursor of the page after the first `k` elements. -/
def cursorAfter (key : α → κ) (l : List α) : Nat → Option κ
  | 0 => none
  | k + 1 => l[k]?.map key

theorem findIdx?_key (hnodup : (l.map key).Nodup) {k : Nat} (hk : k < l.length) :
    (l.findIdx? fun a => key a = key l[k]) = some k := by
  rw [List.findIdx?_eq_some_iff_getElem]
  refine ⟨hk, decide_eq_true rfl, fun i hi => ?_⟩
  rw [Bool.not_eq_true, decide_eq_false_iff_not]
  intro hkey
  have hlength : (l.map key).length = l.length := List.length_map key
  have hi' : i < (l.map key).length := by omega
  have hk' : k < (l.map key).length := by omega
  have hsame : (l.map key)[i] = (l.map key)[k] := by rw [List.getElem_map, List.getElem_map, hkey]
  have := (hnodup.getElem_inj_iff).1 hsame
  omega

theorem start_cursorAfter (hnodup : (l.map key).Nodup) {k : Nat} (hk : k ≤ l.length) : start key l (cursorAfter key l k) = some k := by
  cases k with
  | zero => rfl
  | succ k =>
    rw [cursorAfter, List.getElem?_eq_getElem hk, Option.map_some, start, findIdx?_key hnodup hk]
    rfl

theorem page_cursorAfter (hnodup : (l.map key).Nodup) {k : Nat} (hk : k ≤ l.length) (hsize : 0 < size) :
    page key l size (cursorAfter key l k) =
      some ((l.drop k).take size, if k + size < l.length then cursorAfter key l (k + size) else none) := by
  have hlength : ((l.drop k).take size).length = min size (l.length - k) := by rw [List.length_take, List.length_drop]
  have hnext : (if k + ((l.drop k).take size).length < l.length then ((l.drop k).take size).getLast?.map key else none) =
      if k + size < l.length then cursorAfter key l (k + size) else none := by
    by_cases hmore : k + size < l.length
    · have hfull : ((l.drop k).take size).length = size := by omega
      rw [if_pos (by omega), if_pos hmore, List.getLast?_eq_getElem?, hfull, List.getElem?_take_of_lt (by omega),
        List.getElem?_drop]
      obtain ⟨n, rfl⟩ := Nat.exists_eq_succ_of_ne_zero (Nat.pos_iff_ne_zero.1 hsize)
      rfl
    · rw [if_neg (by omega), if_neg hmore]
  rw [page, start_cursorAfter hnodup hk]
  exact congrArg (fun next => some ((l.drop k).take size, next)) hnext

end Page

/-! ## All pages -/

section Crawl
variable {ask : Option κ → Option (β × Option κ)} {fuel : Nat} {cursor : Option κ}

/-- A crawl that ends, by its first page. -/
theorem crawl_succ_eq_ok_iff {found : List β} : crawl ask (fuel + 1) cursor = .ok found ↔
    ∃ b next rest, ask cursor = some (b, next) ∧ found = b :: rest ∧
      (next = none ∧ rest = [] ∨ ∃ key, next = some key ∧ crawl ask fuel (some key) = .ok rest) := by
  rw [crawl]
  constructor
  · intro h
    rcases hask : ask cursor with _ | ⟨b, next⟩ <;> rw [hask] at h
    · cases h
    · cases next with
      | none =>
        cases h
        exact ⟨b, none, [], rfl, rfl, .inl ⟨rfl, rfl⟩⟩
      | some key =>
        dsimp only at h
        cases hrest : crawl ask fuel (some key) <;> rw [hrest] at h <;> cases h
        exact ⟨b, some key, _, rfl, rfl, .inr ⟨key, rfl, hrest⟩⟩
  · rintro ⟨b, next, rest, hask, rfl, ⟨rfl, rfl⟩ | ⟨key, rfl, hrest⟩⟩
    · rw [hask]
    · rw [hask]
      dsimp only
      rw [hrest]
      rfl

/-- **Run.** With more fuel than elements are left, the pages hold what is left, in order. -/
theorem crawl_page [DecidableEq κ] {key : α → κ} {l : List α} {size : Nat} (hnodup : (l.map key).Nodup) (hsize : 0 < size)
    {k : Nat} (hk : k ≤ l.length) (hfuel : l.length - k < fuel) :
    ∃ pages, crawl (page key l size) fuel (cursorAfter key l k) = .ok pages ∧ pages.flatten = l.drop k ∧
      ∀ batch ∈ pages, batch.length ≤ size := by
  induction fuel generalizing k with
  | zero => omega
  | succ fuel ih =>
    rw [crawl, page_cursorAfter hnodup hk hsize]
    by_cases hmore : k + size < l.length
    · obtain ⟨pages, hpages, hflatten, hlength⟩ := ih (Nat.le_of_lt hmore) (by omega)
      obtain ⟨n, hn⟩ : ∃ n, k + size = n + 1 := ⟨k + size - 1, by omega⟩
      have hn' : n < l.length := by omega
      have hcursor : cursorAfter key l (k + size) = some (key l[n]) := by
        rw [hn, cursorAfter, List.getElem?_eq_getElem (by omega), Option.map_some]
      rw [if_pos hmore, hcursor]
      dsimp only
      rw [← hcursor, hpages]
      refine ⟨_, rfl, ?_, List.forall_mem_cons.2 ⟨List.length_take_le _ _, hlength⟩⟩
      rw [List.flatten_cons, hflatten, ← List.drop_drop, List.take_append_drop]
    · rw [if_neg hmore]
      refine ⟨_, rfl, ?_, List.forall_mem_singleton.2 (List.length_take_le _ _)⟩
      rw [List.flatten_cons, List.flatten_nil, List.append_nil, List.take_of_length_le]
      rw [List.length_drop]
      omega

/-- Pages that are worked on one after another, until the work on one fails. -/
theorem crawl_through {f : β → Option γ} {found : List β} (h : crawl ask fuel cursor = .ok found) :
    crawl (through ask f) fuel cursor = (found.mapM f).elim (.error .refused) .ok := by
  induction fuel generalizing cursor found with
  | zero => cases h
  | succ fuel ih =>
    obtain ⟨b, next, rest, hask, rfl, hpages⟩ := crawl_succ_eq_ok_iff.1 h
    rw [crawl, through, hask, Option.bind_some]
    cases hf : f b with
    | none => simp [hf]
    | some c =>
      rw [List.mapM_cons, hf, Option.bind_eq_bind, Option.bind_some]
      rcases hpages with ⟨rfl, rfl⟩ | ⟨key, rfl, hrest⟩
      · rfl
      · dsimp only [Option.map_some]
        rw [ih hrest]
        cases rest.mapM f <;> rfl

end Crawl

end Pages
