import Kide.Lib.Panics
import Kide.Lib.Unicode
import Kide.Query.Navigation

/-!
# References on one line each

`print_short_references` (`navigation.rs`) prints the source text of each reference. The ranges are those of the index, the
text is that of the disk.

* `sourceSnippet_returns`, `byteToLocationSliced_eq` : the guards of these two are enough for every range;
* `genericTypeContext_returns_iff` : the search for angle brackets slices at the range as it is;
* `printShortReferences_returns_iff` : so the command panics exactly where a range is not one of the text that is read.
-/

namespace Kide
open Checks Panics Text Unicode

/-! ## The text of a range -/

/-- `split_whitespace().collect().join(" ")` -/
def joinWords (text : List Char) : List Char :=
  [' '].intercalate ((text.splitOnP isWhitespace).filter (· ≠ []))

def sourceSnippet (text : List Char) (start stop : Nat) : Except Panic (Option (List Char)) :=
  if stop < start ∨ byteLength text < stop ∨ isCharBoundary text start = false ∨ isCharBoundary text stop = false then .ok none
  else do
    let found ← textSlice text start stop
    .ok (some (joinWords found))

/-- `char_indices` -/
def charIndices (offset : Nat) : List Char → List (Nat × Char)
  | [] => []
  | c :: text => (offset, c) :: charIndices (offset + c.utf8Size) text

section
variable (isAlphanumeric : Char → Bool)

def typeNameChar (c : Char) : Bool := isAlphanumeric c || c == '.' || c == '_'

def genericTypeContext (text : List Char) (start stop : Nat) : Except Panic (Option (List Char)) := do
  let before ← textTo text start
  match rfind '<' before with
  | none => .ok none
  | some opening =>
    let after ← textFrom text stop
    match find '>' after with
    | none => .ok none
    | some found =>
      let close := stop + found + 1
      let name ← textTo text opening
      let nameStart := (((charIndices 0 name).reverse.takeWhile fun entry => typeNameChar isAlphanumeric entry.2).getLast?.map (·.1)).getD
        opening
      sourceSnippet text nameStart close

end

/-- `byte_to_location` with its slices. -/
def byteToLocationSliced (text : List Char) (offset : Nat) : Except Panic (Option (Nat × Nat)) :=
  if byteLength text < offset ∨ isCharBoundary text offset = false then .ok none
  else do
    let front ← textTo text offset
    let lineStart := ((rfind '\n' front).map (· + 1)).getD 0
    let line ← textSlice text lineStart offset
    .ok (some (front.count '\n' + 1, line.length + 1))

/-! ## The command -/

inductive ReferenceError where
  | panicked (panic : Panic)
  | absent (message : String)
  | store (source : IndexStoreError)
deriving DecidableEq

/-- The length of every candidate, as `max_by_key` asks for it. -/
def rangeLengths (candidates : List SourceOccurrence) : Except Panic (List (Nat × SourceOccurrence)) :=
  candidates.mapM fun candidate => do
    let length ← sub candidate.range.bytes.stop candidate.range.bytes.start
    .ok (length, candidate)

/-- Of the longest the last. -/
def longest (best : Option (Nat × SourceOccurrence)) (next : Nat × SourceOccurrence) : Option (Nat × SourceOccurrence) :=
  match best with
  | none => some next
  | some best => if best.1 ≤ next.1 then some next else some best

/-- What encloses a reference: the widest type reference at its start, or the reference itself. -/
def referenceContext (store : IndexStore) (source : SourceUnitId) (bytes : ByteRange) : Except ReferenceError ByteRange := do
  let occurrences ← (store.occurrencesAt source bytes.start).mapError .store
  let candidates := occurrences.filter fun candidate => candidate.kind = .typeReference ∧
    candidate.range.bytes.start ≤ bytes.start ∧ bytes.stop ≤ candidate.range.bytes.stop
  let keyed ← (rangeLengths candidates).mapError .panicked
  .ok (((keyed.foldl longest none).map fun found => found.2.range.bytes).getD bytes)

def unavailable : List Char := "<unavailable source>".toList

section
variable (isAlphanumeric : Char → Bool) (store : IndexStore)

def referenceSnippet (text : Option String) (context bytes : ByteRange) : Except Panic (List Char) :=
  match text with
  | none => .ok unavailable
  | some text => do
    match ← genericTypeContext isAlphanumeric text.toList bytes.start bytes.stop with
    | some found => .ok found
    | none =>
      let found ← sourceSnippet text.toList context.start context.stop
      .ok (found.getD unavailable)

/-- `reads` gives the text of a file as it is at each read. -/
def shortSourceLocation (reads : WorkspacePath → Option String) (source : SourceUnitId) (offset : Nat) :
    Except ReferenceError String :=
  match store.sourceUnit source with
  | none => .error (.absent "source unit is absent from the index")
  | some unit => do
    let location ← match reads unit.path with
      | none => .ok none
      | some text => (byteToLocationSliced text.toList offset).mapError .panicked
    match location with
    | some found => .ok (unit.path.asStr ++ ":" ++ toString found.1 ++ ":" ++ toString found.2)
    | none => .ok (unit.path.asStr ++ ":byte:" ++ toString offset)

def shortReference (reads : Nat → WorkspacePath → Option String) (index : Nat) (reference : SourceOccurrence) :
    Except ReferenceError String :=
  match store.sourceUnit reference.range.sourceUnit with
  | none => .error (.absent "reference source unit is absent from the index")
  | some source => do
    let context ← referenceContext store source.id reference.range.bytes
    let snippet ← (referenceSnippet isAlphanumeric (reads (2 * index) source.path) context reference.range.bytes).mapError .panicked
    let location ← shortSourceLocation store (reads (2 * index + 1)) source.id reference.range.bytes.start
    .ok (String.ofList snippet ++ " " ++ location)

/-- The lines of the references, one after the other. A file is read again for each. -/
def printShortReferences (reads : Nat → WorkspacePath → Option String) : Nat → List SourceOccurrence → Except ReferenceError (List String)
  | _, [] => .ok []
  | index, reference :: references => do
    let line ← shortReference isAlphanumeric store reads index reference
    let lines ← printShortReferences reads (index + 1) references
    .ok (line :: lines)

end

/-! ## Guarded slices -/

theorem sourceSnippet_returns (text : List Char) (start stop : Nat) : ∃ found, sourceSnippet text start stop = .ok found := by
  unfold sourceSnippet
  split
  · exact ⟨none, rfl⟩
  · next h =>
    rw [not_or, not_or, not_or, not_lt, Bool.not_eq_false, Bool.not_eq_false] at h
    obtain ⟨found, hfound⟩ := textSlice_of_boundaries h.1 h.2.2.1 h.2.2.2
    rw [hfound, ok_bind]
    exact ⟨_, rfl⟩

/-- With its slices the scanner finds what it finds without them, and never panics. -/
theorem byteToLocationSliced_eq (text : String) (offset : Nat) :
    byteToLocationSliced text.toList offset = .ok (byteToLocation text offset) := by
  unfold byteToLocationSliced byteToLocation
  cases hcut : splitAtByte text.toList offset with
  | none =>
    rw [if_pos (.inr (by rw [isCharBoundary, hcut]; rfl))]
    rfl
  | some cut =>
    obtain ⟨htext, hoffset⟩ := splitAtByte_eq_some_iff.1 hcut
    have hinside : ¬ (byteLength text.toList < offset ∨ isCharBoundary text.toList offset = false) := by
      rw [isCharBoundary, hcut, htext, byteLength_append]
      simp only [Option.isSome_some, Bool.true_eq_false, or_false, not_lt]
      omega
    have hfront : textTo text.toList offset = .ok cut.1 := by rw [textTo, hcut]
    rw [if_neg hinside, hfront, ok_bind, htext, ← hoffset]
    by_cases hline : '\n' ∈ cut.1
    · obtain ⟨before, after, hcut', hafter⟩ := exists_last hline
      have hstart : byteLength before + 1 = byteLength (before ++ ['\n']) := by
        rw [byteLength_append]
        rfl
      have hsplit : before ++ '\n' :: after = before ++ ['\n'] ++ after := by simp
      rw [hcut', rfind_append hafter, Option.map_some, Option.getD_some, hstart]
      dsimp only
      rw [hsplit, textSlice_append, ok_bind, Option.map_some, ← hsplit, hcut', afterLast_append_sep hafter]
    · have hslice := textSlice_append [] cut.1 cut.2
      rw [List.nil_append, byteLength_nil] at hslice
      rw [rfind_of_not_mem hline, Option.map_none, Option.getD_none]
      dsimp only
      rw [hslice, ok_bind, Option.map_some, afterLast_of_not_mem hline]

/-! ## The unguarded slices -/

/-- The start is in the text where a character begins, and so is the end if an angle bracket is open before the start. -/
def Sliceable (text : List Char) (start stop : Nat) : Prop :=
  ∃ before after, text = before ++ after ∧ byteLength before = start ∧ ('<' ∈ before → isCharBoundary text stop = true)

theorem textFrom_returns_iff {text : List Char} {start : Nat} :
    (∃ found, textFrom text start = .ok found) ↔ isCharBoundary text start = true := by
  unfold textFrom isCharBoundary
  cases splitAtByte text start with
  | none => exact iff_of_false (by rintro ⟨_, h⟩; cases h) (by decide)
  | some cut => exact iff_of_true ⟨_, rfl⟩ rfl

section
variable {isAlphanumeric : Char → Bool}

variable (isAlphanumeric) in
theorem genericTypeContext_returns_iff {text : List Char} {start stop : Nat} :
    (∃ found, genericTypeContext isAlphanumeric text start stop = .ok found) ↔ Sliceable text start stop := by
  unfold genericTypeContext
  constructor
  · rintro ⟨result, h⟩
    obtain ⟨before, hbefore, h⟩ := bind_eq_ok_iff.1 h
    unfold textTo at hbefore
    split at hbefore
    · next cut hcut =>
      obtain rfl := Except.ok.inj hbefore
      obtain ⟨htext, hlength⟩ := splitAtByte_eq_some_iff.1 hcut
      refine ⟨cut.1, cut.2, htext, hlength, fun hopen => ?_⟩
      rw [rfind, if_pos hopen] at h
      obtain ⟨after, hafter, -⟩ := bind_eq_ok_iff.1 h
      exact textFrom_returns_iff.1 ⟨after, hafter⟩
    · cases hbefore
  · rintro ⟨before, after, rfl, rfl, hstop⟩
    rw [textTo_append, ok_bind]
    by_cases hopen : '<' ∈ before
    · obtain ⟨name, rest, rfl, hrest⟩ := exists_last hopen
      obtain ⟨tail, htail⟩ := textFrom_returns_iff.2 (hstop hopen)
      have hname : textTo (name ++ '<' :: rest ++ after) (byteLength name) = .ok name := by
        rw [List.append_assoc, textTo_append]
      rw [rfind_append hrest]
      dsimp only
      rw [htail, ok_bind]
      cases find '>' tail with
      | none => exact ⟨none, rfl⟩
      | some found =>
        dsimp only
        rw [hname, ok_bind]
        exact sourceSnippet_returns _ _ _
    · rw [rfind_of_not_mem hopen]
      exact ⟨none, rfl⟩

theorem referenceSnippet_returns_iff {text : Option String} {context bytes : ByteRange} :
    (∃ found, referenceSnippet isAlphanumeric text context bytes = .ok found) ↔
      ∀ read, text = some read → Sliceable read.toList bytes.start bytes.stop := by
  cases text with
  | none => exact iff_of_true ⟨unavailable, rfl⟩ (fun read h => by cases h)
  | some text =>
    have hread : (∀ read, some text = some read → Sliceable read.toList bytes.start bytes.stop) ↔
        Sliceable text.toList bytes.start bytes.stop := by simp
    rw [hread, ← genericTypeContext_returns_iff isAlphanumeric, referenceSnippet]
    constructor
    · rintro ⟨result, h⟩
      obtain ⟨found, hfound, -⟩ := bind_eq_ok_iff.1 h
      exact ⟨found, hfound⟩
    · rintro ⟨found, hfound⟩
      rw [hfound, ok_bind]
      cases found with
      | some found => exact ⟨found, rfl⟩
      | none =>
        obtain ⟨found, hfound⟩ := sourceSnippet_returns text.toList context.start context.stop
        dsimp only
        rw [hfound, ok_bind]
        exact ⟨_, rfl⟩

end

/-! ## Candidates -/

section
variable {store : IndexStore} {live : List FileAnalysisSnapshot}

/-- What the index returns at an offset contains it. -/
theorem Holds.contains_of_occurrencesAt (h : Holds store live) {source : SourceUnitId} {offset : Nat} {found : List SourceOccurrence}
    (hfound : store.occurrencesAt source offset = .ok found) : ∀ o ∈ found, o.range.bytes.Contains offset := by
  obtain ⟨bound, hbound, hfound⟩ := bind_eq_ok_iff.1 hfound
  obtain ⟨-, rfl⟩ := sqliteOffset_ok_iff.1 hbound
  cases hfound
  intro o ho
  simp only [List.mem_map, List.mem_insertionSort, List.mem_filter, h.mem_occurrences, decide_eq_true_eq] at ho
  obtain ⟨_, ⟨⟨_, -, _, -, rfl⟩, -, hcontains⟩, rfl⟩ := ho
  exact hcontains

/-- No candidate is reversed, so no length is negative. -/
theorem Holds.referenceContext_cases (h : Holds store live) (source : SourceUnitId) (bytes : ByteRange) :
    (bytes.start < OFFSET_LIMIT ∧ ∃ context, referenceContext store source bytes = .ok context) ∨
    (¬ bytes.start < OFFSET_LIMIT ∧ ∃ reason, referenceContext store source bytes = .error (.store reason)) := by
  unfold referenceContext
  by_cases hbound : bytes.start < OFFSET_LIMIT
  · refine .inl ⟨hbound, ?_⟩
    cases hfound : store.occurrencesAt source bytes.start with
    | error reason =>
      rw [IndexStore.occurrencesAt, sqliteOffset_ok_iff.2 ⟨hbound, rfl⟩, ok_bind] at hfound
      cases hfound
    | ok occurrences =>
      have hcontains := h.contains_of_occurrencesAt hfound
      have hlengths : ∀ candidates : List SourceOccurrence, (∀ c ∈ candidates, c.range.bytes.Contains bytes.start) →
          ∃ keyed, rangeLengths candidates = .ok keyed := by
        intro candidates hcandidates
        refine ⟨candidates.map fun c => (c.range.bytes.length, c), mapM_eq_ok_iff.2 ?_⟩
        rw [List.forall₂_map_right_iff, List.forall₂_same]
        intro c hc
        have hle : c.range.bytes.start ≤ c.range.bytes.stop := (hcandidates c hc).1.trans (hcandidates c hc).2.le
        rw [sub_eq_ok_iff.2 ⟨hle, rfl⟩, ok_bind]
        rfl
      obtain ⟨keyed, hkeyed⟩ := hlengths (occurrences.filter fun candidate => candidate.kind = .typeReference ∧
        candidate.range.bytes.start ≤ bytes.start ∧ bytes.stop ≤ candidate.range.bytes.stop)
        fun c hc => hcontains c (List.mem_filter.1 hc).1
      change ∃ context, ((rangeLengths _).mapError ReferenceError.panicked >>= _) = _
      rw [hkeyed]
      exact ⟨_, rfl⟩
  · refine .inr ⟨hbound, ?_⟩
    cases hfound : store.occurrencesAt source bytes.start with
    | error reason => exact ⟨reason, rfl⟩
    | ok occurrences =>
      obtain ⟨bound, hok, -⟩ := bind_eq_ok_iff.1 hfound
      exact absurd (sqliteOffset_ok_iff.1 hok).1 hbound

/-- A source unit is stored under its id. -/
theorem Holds.sourceUnit_id (h : Holds store live) {id : SourceUnitId} {source : SourceUnit} (hsource : store.sourceUnit id = some source) :
    source.id = id := by
  obtain ⟨row, hrow, rfl⟩ := Option.map_eq_some_iff.1 hsource
  have hid := List.find?_some hrow
  have hmem := List.mem_of_find?_eq_some hrow
  rw [h.sourceSnapshots] at hmem
  obtain ⟨snapshot, -, rfl⟩ := List.mem_map.1 hmem
  exact of_decide_eq_true hid

end

/-! ## The loop -/

/-- The index has the source unit of the reference, and its start is an offset that the index can look up. -/
def Findable (store : IndexStore) (reference : SourceOccurrence) : Prop :=
  (store.sourceUnit reference.range.sourceUnit).isSome = true ∧ reference.range.bytes.start < OFFSET_LIMIT

instance (store : IndexStore) (reference : SourceOccurrence) : Decidable (Findable store reference) := inferInstanceAs (Decidable (_ ∧ _))

/-- The range of the reference is one of the text that is read for it. -/
def RangeInText (store : IndexStore) (reads : Nat → WorkspacePath → Option String) (index : Nat) (reference : SourceOccurrence) : Prop :=
  ∀ source, store.sourceUnit reference.range.sourceUnit = some source → ∀ text, reads (2 * index) source.path = some text →
    Sliceable text.toList reference.range.bytes.start reference.range.bytes.stop

section
variable {isAlphanumeric : Char → Bool} {store : IndexStore} {live : List FileAnalysisSnapshot}
  {reads : Nat → WorkspacePath → Option String}

theorem shortSourceLocation_returns (reads : WorkspacePath → Option String) {id : SourceUnitId} {source : SourceUnit}
    (hsource : store.sourceUnit id = some source) (offset : Nat) : ∃ location, shortSourceLocation store reads id offset = .ok location := by
  rw [shortSourceLocation, hsource]
  dsimp only
  cases reads source.path with
  | none => exact ⟨_, rfl⟩
  | some text =>
    dsimp only
    rw [byteToLocationSliced_eq]
    cases byteToLocation text offset with
    | none => exact ⟨_, rfl⟩
    | some found => exact ⟨_, rfl⟩

variable (isAlphanumeric reads) in
/-- A reference that the index cannot look up ends the loop without a panic. -/
theorem Holds.shortReference_of_not_findable (h : Holds store live) (index : Nat) {reference : SourceOccurrence}
    (hnot : ¬ Findable store reference) (panic : Panic) :
    (∀ line, shortReference isAlphanumeric store reads index reference ≠ .ok line) ∧
      shortReference isAlphanumeric store reads index reference ≠ .error (.panicked panic) := by
  unfold shortReference
  cases hsource : store.sourceUnit reference.range.sourceUnit with
  | none => exact ⟨(by intro line heq; cases heq), (by intro heq; cases heq)⟩
  | some source =>
    dsimp only
    rcases h.referenceContext_cases source.id reference.range.bytes with ⟨hbound, -⟩ | ⟨-, reason, hcontext⟩
    · exact absurd ⟨by rw [hsource]; rfl, hbound⟩ hnot
    · rw [hcontext]
      exact ⟨(by intro line heq; cases heq), (by intro heq; cases heq)⟩

variable (isAlphanumeric reads) in
/-- A reference that is looked up is printed, or its slice panics. -/
theorem Holds.shortReference_of_findable (h : Holds store live) (index : Nat) {reference : SourceOccurrence}
    (hfindable : Findable store reference) :
    (RangeInText store reads index reference ∧ ∃ line, shortReference isAlphanumeric store reads index reference = .ok line) ∨
    (¬ RangeInText store reads index reference ∧
      ∃ panic, shortReference isAlphanumeric store reads index reference = .error (.panicked panic)) := by
  obtain ⟨source, hsource⟩ := Option.isSome_iff_exists.1 hfindable.1
  have hid := h.sourceUnit_id hsource
  obtain ⟨context, hcontext⟩ : ∃ context, referenceContext store source.id reference.range.bytes = .ok context := by
    rcases h.referenceContext_cases source.id reference.range.bytes with ⟨-, hcontext⟩ | ⟨hbound, -⟩
    · exact hcontext
    · exact absurd hfindable.2 hbound
  have hrange : RangeInText store reads index reference ↔
      ∃ found, referenceSnippet isAlphanumeric (reads (2 * index) source.path) context reference.range.bytes = .ok found := by
    rw [referenceSnippet_returns_iff, RangeInText, hsource]
    simp
  obtain ⟨location, hlocation⟩ := shortSourceLocation_returns (reads (2 * index + 1)) (hid.symm ▸ hsource)
    reference.range.bytes.start
  rw [hrange, shortReference, hsource]
  dsimp only
  rw [hcontext, ok_bind]
  cases hsnippet : referenceSnippet isAlphanumeric (reads (2 * index) source.path) context reference.range.bytes with
  | ok found =>
    refine .inl ⟨⟨found, rfl⟩, ?_⟩
    change ∃ line, (shortSourceLocation _ _ _ _ >>= _) = _
    rw [hlocation]
    exact ⟨_, rfl⟩
  | error panic => exact .inr ⟨(by rintro ⟨_, heq⟩; cases heq), panic, rfl⟩

/-- **References.** Printing does not panic exactly if the range of every reference up to the first that the index cannot look up is
one of the text that is read for it. -/
theorem printShortReferences_returns_iff (h : Holds store live) (index : Nat) (references : List SourceOccurrence) :
    (∀ panic, printShortReferences isAlphanumeric store reads index references ≠ .error (.panicked panic)) ↔
      ∀ entry ∈ (references.takeWhile (Findable store)).zipIdx index, RangeInText store reads entry.2 entry.1 := by
  induction references generalizing index with
  | nil => exact iff_of_true (fun panic heq => by cases heq) (fun entry hmem => absurd hmem List.not_mem_nil)
  | cons reference references ih =>
    rw [printShortReferences]
    by_cases hfindable : Findable store reference
    · rw [List.takeWhile_cons_of_pos (p := fun b => decide (Findable store b)) (decide_eq_true hfindable), List.zipIdx_cons, List.forall_mem_cons, ← ih]
      rcases h.shortReference_of_findable isAlphanumeric reads index hfindable with
        ⟨hrange, line, hline⟩ | ⟨hrange, panic, hpanic⟩
      · rw [hline, ok_bind]
        cases printShortReferences isAlphanumeric store reads (index + 1) references with
        | ok lines => exact iff_of_true (fun panic heq => by cases heq) ⟨hrange, fun panic heq => by cases heq⟩
        | error reason =>
          refine ⟨fun hnot => ⟨hrange, fun panic heq => hnot panic ?_⟩, fun hnot panic heq => hnot.2 panic ?_⟩
          · rw [heq]
            rfl
          · exact heq
      · rw [hpanic]
        exact iff_of_false (fun hnot => hnot panic rfl) fun hboth => hrange hboth.1
    · rw [List.takeWhile_cons_of_neg (p := fun b => decide (Findable store b)) (by simpa using hfindable)]
      refine iff_of_true (fun panic heq => ?_) fun entry hmem => absurd hmem List.not_mem_nil
      obtain ⟨hline, hpanic⟩ := h.shortReference_of_not_findable isAlphanumeric reads index hfindable panic
      cases hresult : shortReference isAlphanumeric store reads index reference with
      | ok line => exact hline line hresult
      | error reason =>
        rw [hresult] at heq
        refine hpanic (hresult.trans ?_)
        cases heq
        rfl

end

/-! ## A file that got shorter -/

/-- The range of a use of `Widget` in `List<Widget>`. -/
def widgetUse : SourceOccurrence := typeUse 5 11 "Widget"

def cutText : Nat → WorkspacePath → Option String := fun _ _ => some "List"

theorem cut_file_panics :
    ¬ ∀ (isAlphanumeric : Char → Bool) (store : IndexStore) (live : List FileAnalysisSnapshot)
      (reads : Nat → WorkspacePath → Option String) (references : List SourceOccurrence), Holds store live →
        (∀ reference ∈ references, ∃ snapshot ∈ live, reference ∈ snapshot.occurrences) → ∀ panic,
          printShortReferences isAlphanumeric store reads 0 references ≠ .error (.panicked panic) := by
  intro h
  have hstored : ∀ reference ∈ [widgetUse], ∃ snapshot ∈ [genericUse], reference ∈ snapshot.occurrences := by decide
  refine h Char.isAlphanum (holding genericUse) [genericUse] cutText [widgetUse] genericUse_holds hstored .charBoundary ?_
  decide +kernel

/-- With the text that was indexed the reference is printed. -/
theorem widget_reference_returns :
    ¬ ∃ panic, printShortReferences Char.isAlphanum (holding genericUse) (fun _ _ => some "List<Widget>") 0 [widgetUse] =
      .error (.panicked panic) := by
  refine not_exists.2 ((printShortReferences_returns_iff genericUse_holds 0 [widgetUse]).2 fun entry hentry source _ text htext => ?_)
  have hentry : entry = (widgetUse, 0) := by
    have hreached : ([widgetUse].takeWhile (Findable (holding genericUse))).zipIdx 0 = [(widgetUse, 0)] := by decide +kernel
    rw [hreached] at hentry
    exact List.mem_singleton.1 hentry
  cases htext
  rw [hentry]
  exact ⟨"List<".toList, "Widget>".toList, by decide +kernel, by decide +kernel, fun _ => by decide +kernel⟩

end Kide
