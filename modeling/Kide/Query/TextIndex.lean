import Mathlib.Data.Prod.Lex
import Mathlib.Data.String.Basic
import Mathlib.Logic.Function.Basic
import Kide.Index.FreshnessGate
import Kide.Query.LexicalTerms
import Kide.Store.WorkspaceRecords

/-!
# The text index

The tables of `MIGRATION_7`, `sync_text_documents` and `lexical_matches` (`store.rs`). The tables stand apart from
`IndexStore`: no other function reads or writes them. How many values SQLite binds to a statement is a parameter.

* `Indexes`: what the tables hold of a collection of texts, kept by one document (`syncDocument_spec`), by one call
  (`syncTextDocuments_spec`) and by any calls (`synchronizedIndex_spec`);
* `lexicalMatches_exact`: after any calls a search finds the runs of the texts that are equal to its word.
-/

namespace Kide
open Text MaximalRuns Tables

/-! ## The tables -/

structure TextDocumentRow where
  workspacePath : WorkspacePath
  contentFingerprint : Fingerprint
deriving DecidableEq, Repr

structure TextTermRow where
  workspacePath : WorkspacePath
  term : String
  startByte : Nat
  endByte : Nat
deriving DecidableEq, Repr

/-- `PRIMARY KEY(workspace_path, term, start_byte)` -/
def TextTermRow.key (row : TextTermRow) : Option (WorkspacePath × String × Nat) :=
  some (row.workspacePath, row.term, row.startByte)

structure TextIndex where
  documents : List TextDocumentRow := []
  terms : List TextTermRow := []
deriving DecidableEq, Repr

inductive TextIndexError where
  | tooManyVariables | primaryKey | foreignKey
deriving DecidableEq, Repr

namespace TextIndex

/-- `DELETE FROM workspace_text_documents`; the terms of a deleted document are deleted with it. -/
def keepDocuments (index : TextIndex) (keep : WorkspacePath → Bool) : TextIndex :=
  let deleted := index.documents.filter fun row => !keep row.workspacePath
  { documents := index.documents.filter fun row => keep row.workspacePath
    terms := index.terms.filter fun row => row.workspacePath ∉ deleted.map (·.workspacePath) }

def insertTerms (index : TextIndex) (rows : List TextTermRow) : Except TextIndexError TextIndex :=
  if ∀ row ∈ rows, row.workspacePath ∈ index.documents.map (·.workspacePath) then
    match insertAll TextTermRow.key index.terms rows with
    | some terms => .ok { index with terms }
    | none => .error .primaryKey
  else .error .foreignKey

end TextIndex

/-! ## Synchronization -/

section
variable (isAlphanumeric : Char → Bool)

def termRows (document : TextDocument) : List TextTermRow :=
  (lexicalTerms isAlphanumeric document.content).map fun entry => ⟨document.path, entry.term, entry.start, entry.stop⟩

/-- The fingerprint of a path, as the index has it. -/
def storedFingerprint (index : TextIndex) (path : WorkspacePath) : Option Fingerprint :=
  (index.documents.find? (·.workspacePath = path)).map (·.contentFingerprint)

def syncDocument (index : TextIndex) (document : TextDocument) : Except TextIndexError TextIndex :=
  if storedFingerprint index document.path = some document.fingerprint then .ok index
  else
    TextIndex.insertTerms
      { documents := IndexStore.upsert (·.workspacePath) index.documents ⟨document.path, document.fingerprint⟩
        terms := index.terms.filter (·.workspacePath ≠ document.path) }
      (termRows isAlphanumeric document)

variable (variableLimit : Nat)

/-- `WHERE workspace_path NOT IN (?, …)`, with one variable for each path. -/
def deleteAbsent (index : TextIndex) (paths : List WorkspacePath) : Except TextIndexError TextIndex :=
  if paths = [] then .ok (index.keepDocuments fun _ => false)
  else if variableLimit < paths.length then .error .tooManyVariables
  else .ok (index.keepDocuments fun path => path ∈ paths)

def syncTextDocuments (index : TextIndex) (documents : List TextDocument) : Except TextIndexError TextIndex := do
  let kept ← deleteAbsent variableLimit index (documents.map (·.path))
  documents.foldlM (syncDocument isAlphanumeric) kept

/-- The index after the calls. The transaction of a call that fails is rolled back. -/
def synchronizedIndex (history : List (List TextDocument)) : TextIndex :=
  history.foldl (fun index documents => (syncTextDocuments isAlphanumeric variableLimit index documents).toOption.getD index)
    {}

/-- The documents of the last call that SQLite has variables for. -/
def lastSynchronized (history : List (List TextDocument)) : List TextDocument :=
  (history.filter fun documents => documents.length ≤ variableLimit).getLast?.getD []

end

/-! ## What the tables hold -/

/-- The tables are those of the texts. -/
structure Indexes (isAlphanumeric : Char → Bool) (index : TextIndex) (texts : WorkspacePath → Option TextDocument) : Prop where
  paths : ∀ path document, texts path = some document → document.path = path
  documents : ∀ row, row ∈ index.documents ↔
    ∃ document, texts row.workspacePath = some document ∧ document.fingerprint = row.contentFingerprint
  terms : ∀ row, row ∈ index.terms ↔
    ∃ document, texts row.workspacePath = some document ∧ row ∈ termRows isAlphanumeric document
  documentKeys : (index.documents.map (·.workspacePath)).Nodup
  termKeys : KeysUnique TextTermRow.key index.terms

section
variable {isAlphanumeric : Char → Bool} {index : TextIndex} {texts : WorkspacePath → Option TextDocument}

theorem indexes_empty : Indexes isAlphanumeric {} fun _ => none where
  paths := fun _ _ h => by cases h
  documents := fun row => ⟨fun h => (by cases h), fun h => (by obtain ⟨_, h, -⟩ := h; cases h)⟩
  terms := fun row => ⟨fun h => (by cases h), fun h => (by obtain ⟨_, h, -⟩ := h; cases h)⟩
  documentKeys := List.nodup_nil
  termKeys := keysUnique_nil _

/-! ### One document -/

theorem mem_termRows_path {document : TextDocument} {row : TextTermRow} (h : row ∈ termRows isAlphanumeric document) :
    row.workspacePath = document.path := by
  obtain ⟨entry, -, rfl⟩ := List.mem_map.1 h
  rfl

/-- The terms of a text begin at different bytes. -/
theorem termRows_keysUnique (document : TextDocument) : KeysUnique TextTermRow.key (termRows isAlphanumeric document) := by
  have hstarts : (lexicalTerms isAlphanumeric document.content).Pairwise fun a b => a.start ≠ b.start :=
    (lexicalTerms_sorted document.content).imp Nat.ne_of_lt
  unfold KeysUnique keys termRows
  rw [List.Nodup, List.pairwise_filterMap, List.pairwise_map]
  refine hstarts.imp fun hne _ ha _ hb heq => hne ?_
  obtain rfl := Option.some.inj ha
  obtain rfl := Option.some.inj hb
  exact (Prod.mk.inj (Prod.mk.inj heq).2).2

theorem storedFingerprint_eq (h : Indexes isAlphanumeric index texts) (path : WorkspacePath) :
    storedFingerprint index path = (texts path).map (·.fingerprint) := by
  unfold storedFingerprint
  cases htext : texts path with
  | none =>
    rw [List.find?_eq_none.2, Option.map_none, Option.map_none]
    intro row hrow hpath
    obtain ⟨document, hdocument, -⟩ := (h.documents row).1 hrow
    rw [of_decide_eq_true hpath, htext] at hdocument
    cases hdocument
  | some document =>
    have hrow : (⟨path, document.fingerprint⟩ : TextDocumentRow) ∈ index.documents :=
      (h.documents _).2 ⟨document, htext, rfl⟩
    rw [(find_eq_some_iff h.documentKeys).2 ⟨hrow, rfl⟩]
    rfl

theorem insertTerms_eq {rows : List TextTermRow}
    (hparents : ∀ row ∈ rows, row.workspacePath ∈ index.documents.map (·.workspacePath))
    (hkeys : KeysUnique TextTermRow.key rows) (hnew : List.Disjoint (keys TextTermRow.key index.terms) (keys TextTermRow.key rows)) :
    index.insertTerms rows = .ok { index with terms := index.terms ++ rows } := by
  unfold TextIndex.insertTerms
  rw [if_pos hparents, (insertAll_eq_some_iff TextTermRow.key).2 ⟨rfl, hkeys, hnew⟩]

/-- Rows of other paths have other keys than those of a document. -/
theorem disjoint_termRows (document : TextDocument) :
    List.Disjoint (keys TextTermRow.key (index.terms.filter (·.workspacePath ≠ document.path)))
      (keys TextTermRow.key (termRows isAlphanumeric document)) := by
  intro k hk hk'
  obtain ⟨kept, hkept, hk⟩ := List.mem_filterMap.1 hk
  obtain ⟨row, hrow, hk'⟩ := List.mem_filterMap.1 hk'
  have hpath : kept.workspacePath = row.workspacePath :=
    (Prod.mk.inj ((Option.some.inj hk).trans (Option.some.inj hk').symm)).1
  exact of_decide_eq_true (List.mem_filter.1 hkept).2 (hpath.trans (mem_termRows_path hrow))

/-- The tables with the rows of a document in place of those of its path. -/
theorem Indexes.replace (h : Indexes isAlphanumeric index texts) (document : TextDocument) :
    Indexes isAlphanumeric
      { documents := IndexStore.upsert (·.workspacePath) index.documents ⟨document.path, document.fingerprint⟩
        terms := index.terms.filter (·.workspacePath ≠ document.path) ++ termRows isAlphanumeric document }
      (Function.update texts document.path (some document)) where
  paths := by
    intro path text htext
    by_cases hpath : path = document.path
    · rw [hpath, Function.update_self, Option.some.injEq] at htext
      rw [hpath, htext]
    · rw [Function.update_of_ne hpath] at htext
      exact h.paths path text htext
  documents := by
    intro row
    rw [IndexStore.mem_upsert_iff, h.documents]
    by_cases hpath : row.workspacePath = document.path
    · rw [hpath, Function.update_self]
      constructor
      · rintro (⟨-, hne⟩ | rfl)
        · exact absurd rfl hne
        · exact ⟨document, rfl, rfl⟩
      · rintro ⟨_, hdocument, hfingerprint⟩
        obtain rfl := Option.some.inj hdocument
        cases row
        exact .inr (by simp_all)
    · rw [Function.update_of_ne hpath]
      exact ⟨fun hrow => hrow.elim And.left fun heq => absurd (congrArg _ heq) hpath, fun hrow => .inl ⟨hrow, hpath⟩⟩
  terms := by
    intro row
    rw [List.mem_append, List.mem_filter, h.terms, decide_eq_true_eq]
    by_cases hpath : row.workspacePath = document.path
    · rw [hpath, Function.update_self]
      constructor
      · rintro (⟨-, hne⟩ | hrow)
        · exact absurd rfl hne
        · exact ⟨document, rfl, hrow⟩
      · rintro ⟨_, hdocument, hrow⟩
        obtain rfl := Option.some.inj hdocument
        exact .inr hrow
    · rw [Function.update_of_ne hpath]
      exact ⟨fun hrow => hrow.elim And.left fun hrow => absurd (mem_termRows_path hrow) hpath,
        fun hrow => .inl ⟨hrow, hpath⟩⟩
  documentKeys := IndexStore.upsert_nodup _ h.documentKeys _
  termKeys :=
    (keysUnique_append _).2 ⟨h.termKeys.filter _ _, termRows_keysUnique document, disjoint_termRows document⟩

/-- **Step.** A document takes its path, if no other text of the path has its fingerprint. -/
theorem syncDocument_spec (h : Indexes isAlphanumeric index texts) {document : TextDocument}
    (hsame : ∀ stored, texts document.path = some stored → stored.fingerprint = document.fingerprint →
      stored.content = document.content) :
    ∃ next, syncDocument isAlphanumeric index document = .ok next ∧
      Indexes isAlphanumeric next (Function.update texts document.path (some document)) := by
  unfold syncDocument
  rw [storedFingerprint_eq h]
  by_cases hunchanged : (texts document.path).map (·.fingerprint) = some document.fingerprint
  · rw [if_pos hunchanged]
    obtain ⟨stored, hstored, hfingerprint⟩ := Option.map_eq_some_iff.1 hunchanged
    have hdocument : stored = document := by
      have hpath := h.paths _ _ hstored
      have hcontent := hsame stored hstored hfingerprint
      cases stored
      cases document
      simp_all
    rw [hdocument] at hstored
    exact ⟨index, rfl, by rwa [← hstored, Function.update_eq_self]⟩
  · rw [if_neg hunchanged]
    have hparents : ∀ row ∈ termRows isAlphanumeric document, row.workspacePath ∈
        (IndexStore.upsert (·.workspacePath) index.documents ⟨document.path, document.fingerprint⟩).map (·.workspacePath) := by
      intro row hrow
      rw [mem_termRows_path hrow]
      exact List.mem_map.2 ⟨_, (IndexStore.mem_upsert_iff _).2 (.inr rfl), rfl⟩
    exact ⟨_, insertTerms_eq hparents (termRows_keysUnique document) (disjoint_termRows document), h.replace document⟩

/-! ### One call -/

/-- The documents, and the texts where they have none. -/
def overlay (documents : List TextDocument) (texts : WorkspacePath → Option TextDocument) (path : WorkspacePath) :
    Option TextDocument :=
  (documents.find? (·.path = path)).or (texts path)

theorem overlay_cons {document : TextDocument} {documents : List TextDocument}
    (hnodup : document.path ∉ documents.map (·.path)) :
    overlay (document :: documents) texts = overlay documents (Function.update texts document.path (some document)) := by
  funext path
  unfold overlay
  by_cases hpath : document.path = path
  · have habsent : documents.find? (·.path = path) = none := by
      refine List.find?_eq_none.2 fun other hother heq => hnodup (List.mem_map.2 ⟨other, hother, ?_⟩)
      exact (of_decide_eq_true heq).trans hpath.symm
    rw [List.find?_cons_of_pos (by simpa using hpath), habsent, ← hpath, Function.update_self]
    rfl
  · rw [List.find?_cons_of_neg (by simpa using hpath), Function.update_of_ne (Ne.symm hpath)]

theorem syncDocuments_spec {documents : List TextDocument} (h : Indexes isAlphanumeric index texts)
    (hnodup : (documents.map (·.path)).Nodup)
    (hsame : ∀ document ∈ documents, ∀ stored, texts document.path = some stored →
      stored.fingerprint = document.fingerprint → stored.content = document.content) :
    ∃ next, documents.foldlM (syncDocument isAlphanumeric) index = .ok next ∧
      Indexes isAlphanumeric next (overlay documents texts) := by
  induction documents generalizing index texts with
  | nil => exact ⟨index, rfl, h⟩
  | cons document documents ih =>
    rw [List.map_cons, List.nodup_cons] at hnodup
    obtain ⟨next, hnext, hindexes⟩ := syncDocument_spec h (hsame document List.mem_cons_self)
    have hsame' : ∀ other ∈ documents, ∀ stored, Function.update texts document.path (some document) other.path =
        some stored → stored.fingerprint = other.fingerprint → stored.content = other.content := by
      intro other hother stored hstored
      have hne : other.path ≠ document.path := fun heq => hnodup.1 (heq ▸ List.mem_map_of_mem hother)
      rw [Function.update_of_ne hne] at hstored
      exact hsame other (List.mem_cons_of_mem _ hother) stored hstored
    rw [List.foldlM_cons, hnext, Checks.ok_bind, overlay_cons hnodup.1]
    exact ih hindexes hnodup.2 hsame'

/-- Every term has its document. -/
theorem Indexes.mem_documents_of_term (h : Indexes isAlphanumeric index texts) {row : TextTermRow} (hrow : row ∈ index.terms) :
    row.workspacePath ∈ index.documents.map (·.workspacePath) := by
  obtain ⟨document, hdocument, -⟩ := (h.terms row).1 hrow
  exact List.mem_map.2 ⟨⟨row.workspacePath, document.fingerprint⟩, (h.documents _).2 ⟨document, hdocument, rfl⟩, rfl⟩

theorem keepDocuments_spec (h : Indexes isAlphanumeric index texts) (keep : WorkspacePath → Bool) :
    Indexes isAlphanumeric (index.keepDocuments keep) fun path => if keep path then texts path else none where
  paths := by
    intro path document hdocument
    split at hdocument
    · exact h.paths path document hdocument
    · cases hdocument
  documents := by
    intro row
    show row ∈ index.documents.filter _ ↔ _
    rw [List.mem_filter, h.documents]
    by_cases hkeep : keep row.workspacePath = true
    · rw [if_pos hkeep]
      exact and_iff_left hkeep
    · rw [if_neg hkeep]
      exact ⟨fun hrow => absurd hrow.2 hkeep, fun ⟨_, hdocument, _⟩ => by cases hdocument⟩
  terms := by
    intro row
    show row ∈ index.terms.filter _ ↔ _
    rw [List.mem_filter, decide_eq_true_eq]
    by_cases hkeep : keep row.workspacePath = true
    · rw [if_pos hkeep, h.terms]
      refine and_iff_left fun hdeleted => ?_
      obtain ⟨document, hdocument, hpath⟩ := List.mem_map.1 hdeleted
      have hgone := (List.mem_filter.1 hdocument).2
      rw [hpath, hkeep] at hgone
      cases hgone
    · rw [if_neg hkeep]
      constructor
      · rintro ⟨hrow, hkept⟩
        obtain ⟨document, hdocument, hpath⟩ := List.mem_map.1 (h.mem_documents_of_term hrow)
        refine absurd (List.mem_map.2 ⟨document, List.mem_filter.2 ⟨hdocument, ?_⟩, hpath⟩) hkept
        rw [hpath, Bool.not_eq_true']
        exact eq_false_of_ne_true hkeep
      · rintro ⟨_, hdocument, -⟩
        cases hdocument
  documentKeys := h.documentKeys.sublist (List.filter_sublist.map _)
  termKeys := h.termKeys.filter _ _

theorem deleteAbsent_eq {variableLimit : Nat} {paths : List WorkspacePath} (hlimit : paths.length ≤ variableLimit) :
    deleteAbsent variableLimit index paths = .ok (index.keepDocuments fun path => path ∈ paths) := by
  unfold deleteAbsent
  by_cases hempty : paths = []
  · rw [if_pos hempty, hempty]
    rfl
  · rw [if_neg hempty, if_neg (Nat.not_lt.2 hlimit)]

/-- **Step.** A call whose paths are distinct, and no more than there are variables, leaves its documents. -/
theorem syncTextDocuments_spec {variableLimit : Nat} {documents : List TextDocument} (h : Indexes isAlphanumeric index texts)
    (hlimit : documents.length ≤ variableLimit) (hnodup : (documents.map (·.path)).Nodup)
    (hsame : ∀ document ∈ documents, ∀ stored, texts document.path = some stored →
      stored.fingerprint = document.fingerprint → stored.content = document.content) :
    ∃ next, syncTextDocuments isAlphanumeric variableLimit index documents = .ok next ∧
      Indexes isAlphanumeric next fun path => documents.find? (·.path = path) := by
  have hkept := keepDocuments_spec h fun path => path ∈ documents.map (·.path)
  have hsame' : ∀ document ∈ documents, ∀ stored,
      (if decide (document.path ∈ documents.map (·.path)) then texts document.path else none) = some stored →
        stored.fingerprint = document.fingerprint → stored.content = document.content := by
    intro document hdocument stored hstored
    rw [if_pos (decide_eq_true (List.mem_map_of_mem hdocument))] at hstored
    exact hsame document hdocument stored hstored
  obtain ⟨next, hnext, hindexes⟩ := syncDocuments_spec hkept hnodup hsame'
  refine ⟨next, ?_, ?_⟩
  · unfold syncTextDocuments
    rw [deleteAbsent_eq (by rwa [List.length_map])]
    exact hnext
  · have htexts : overlay documents (fun path => if decide (path ∈ documents.map (·.path)) then texts path else none) =
        fun path => documents.find? (·.path = path) := by
      funext path
      unfold overlay
      cases hfound : documents.find? (·.path = path) with
      | some document => rfl
      | none =>
        have habsent : path ∉ documents.map (·.path) := by
          intro hmem
          obtain ⟨document, hdocument, hpath⟩ := List.mem_map.1 hmem
          exact List.find?_eq_none.1 hfound document hdocument (decide_eq_true hpath)
        exact if_neg fun hmem => habsent (of_decide_eq_true hmem)
    rwa [htexts] at hindexes

theorem syncTextDocuments_error {variableLimit : Nat} {documents : List TextDocument}
    (hlimit : variableLimit < documents.length) :
    syncTextDocuments isAlphanumeric variableLimit index documents = .error .tooManyVariables := by
  have hne : documents.map (·.path) ≠ [] := by
    intro hempty
    rw [List.map_eq_nil_iff.1 hempty] at hlimit
    exact absurd hlimit (Nat.not_lt_zero _)
  unfold syncTextDocuments deleteAbsent
  rw [if_neg hne, List.length_map, if_pos hlimit]
  rfl

/-! ### Any calls -/

theorem synchronizedIndex_append_one (variableLimit : Nat) (history : List (List TextDocument)) (documents : List TextDocument) :
    synchronizedIndex isAlphanumeric variableLimit (history ++ [documents]) =
      (syncTextDocuments isAlphanumeric variableLimit (synchronizedIndex isAlphanumeric variableLimit history)
        documents).toOption.getD (synchronizedIndex isAlphanumeric variableLimit history) := by
  unfold synchronizedIndex
  rw [List.foldl_append]
  rfl

theorem lastSynchronized_append_one (variableLimit : Nat) (history : List (List TextDocument)) (documents : List TextDocument) :
    lastSynchronized variableLimit (history ++ [documents]) =
      if documents.length ≤ variableLimit then documents else lastSynchronized variableLimit history := by
  unfold lastSynchronized
  rw [List.filter_append, List.getLast?_append]
  by_cases hlimit : documents.length ≤ variableLimit
  · rw [if_pos hlimit, List.filter_singleton, decide_eq_true hlimit]
    rfl
  · rw [if_neg hlimit, List.filter_singleton, decide_eq_false hlimit]
    rfl

theorem mem_of_mem_lastSynchronized {variableLimit : Nat} {history : List (List TextDocument)} {document : TextDocument}
    (h : document ∈ lastSynchronized variableLimit history) : lastSynchronized variableLimit history ∈ history := by
  unfold lastSynchronized at h ⊢
  cases hlast : (history.filter fun documents => documents.length ≤ variableLimit).getLast? with
  | none =>
    rw [hlast] at h
    cases h
  | some documents => exact (List.mem_filter.1 (List.mem_of_getLast? hlast)).1

theorem lastSynchronized_nodup {variableLimit : Nat} {history : List (List TextDocument)}
    (hpaths : ∀ documents ∈ history, (documents.map (·.path)).Nodup) :
    ((lastSynchronized variableLimit history).map (·.path)).Nodup := by
  by_cases hempty : lastSynchronized variableLimit history = []
  · rw [hempty]
    exact List.nodup_nil
  · obtain ⟨document, hdocument⟩ := List.exists_mem_of_ne_nil _ hempty
    exact hpaths _ (mem_of_mem_lastSynchronized hdocument)

/-- **Run.** After any calls the tables are those of the documents of the last call that did not fail. -/
theorem synchronizedIndex_spec (variableLimit : Nat) {history : List (List TextDocument)}
    (hpaths : ∀ documents ∈ history, (documents.map (·.path)).Nodup)
    (hsame : ∀ document ∈ history.flatten, ∀ other ∈ history.flatten, other.fingerprint = document.fingerprint →
      other.content = document.content) :
    Indexes isAlphanumeric (synchronizedIndex isAlphanumeric variableLimit history) fun path =>
      (lastSynchronized variableLimit history).find? (·.path = path) := by
  induction history using List.reverseRecOn with
  | nil => exact indexes_empty
  | append_singleton history documents ih =>
    rw [List.flatten_append, List.flatten_singleton] at hsame
    have hold : ∀ document ∈ history.flatten, document ∈ history.flatten ++ documents :=
      fun _ hdocument => List.mem_append_left _ hdocument
    have hbefore := ih (fun earlier hearlier => hpaths earlier (List.mem_append_left _ hearlier))
      (fun document hdocument other hother => hsame document (hold _ hdocument) other (hold _ hother))
    rw [synchronizedIndex_append_one, lastSynchronized_append_one]
    by_cases hlimit : documents.length ≤ variableLimit
    · rw [if_pos hlimit]
      obtain ⟨next, hnext, hindexes⟩ := syncTextDocuments_spec hbefore hlimit (hpaths documents (by simp))
        (fun document hdocument stored hstored => by
          have hmem := List.mem_of_find?_eq_some hstored
          have hstored' := List.mem_flatten.2 ⟨_, mem_of_mem_lastSynchronized hmem, hmem⟩
          exact hsame document (List.mem_append_right _ hdocument) stored (hold _ hstored'))
      rw [hnext]
      exact hindexes
    · rw [if_neg hlimit, syncTextDocuments_error (Nat.not_le.1 hlimit)]
      exact hbefore

end

/-! ## Search -/

structure LexicalMatch where
  path : WorkspacePath
  range : ByteRange
  position : TextPosition
  snippet : String
deriving DecidableEq, Repr

section
variable (sha256 : Bytes → String) (isWhitespace : Char → Bool)

/-- The text at a path of the workspace, if it is still the one with the fingerprint. -/
def unchangedText (files : WorkspaceFiles) (path : WorkspacePath) (fingerprint : Fingerprint) : Option String :=
  (((files.read path).bind fun bytes => (documentFromBytes sha256 path bytes).toOption).filter
    (·.fingerprint = fingerprint)).map (·.content)

/-- `none` where `expect` or a slice of the text panics. -/
def matchAt (content : String) (row : TextTermRow) : Option LexicalMatch := do
  let position ← positionAt content row.startByte
  let snippet ← snippetAt isWhitespace content row.startByte row.endByte
  some ⟨row.workspacePath, ⟨row.startByte, row.endByte⟩, position, snippet⟩

/-- `ORDER BY workspace_path, start_byte` -/
def TextTermRow.place (row : TextTermRow) : String ×ₗ Nat := toLex (row.workspacePath.asStr, row.startByte)

/-- The rows of a term, each with the fingerprint of its document. -/
def termsWithDocuments (index : TextIndex) (query : String) : List (TextTermRow × Fingerprint) :=
  let joined := (index.terms.filter (·.term = query)).flatMap fun row =>
    (index.documents.filter (·.workspacePath = row.workspacePath)).map fun document => (row, document.contentFingerprint)
  joined.insertionSort fun a b => a.1.place ≤ b.1.place

/-- The rows whose document is unchanged, each with the text. -/
def termsInTexts (files : WorkspaceFiles) (index : TextIndex) (query : String) : List (String × TextTermRow) :=
  (termsWithDocuments index query).filterMap fun entry =>
    (unchangedText sha256 files entry.1.workspacePath entry.2).map fun content => (content, entry.1)

def lexicalMatches (files : WorkspaceFiles) (index : TextIndex) (query : String) : Option (List LexicalMatch) :=
  if query = "" then some []
  else (termsInTexts sha256 files index query).mapM fun entry => matchAt isWhitespace entry.1 entry.2

end

/-! ### The rows of a word -/

section
variable {isAlphanumeric : Char → Bool} {index : TextIndex} {texts : WorkspacePath → Option TextDocument} {query : String}

theorem mem_termsWithDocuments_iff (h : Indexes isAlphanumeric index texts) {row : TextTermRow} {fingerprint : Fingerprint} :
    (row, fingerprint) ∈ termsWithDocuments index query ↔ row.term = query ∧ ∃ document,
      texts row.workspacePath = some document ∧ row ∈ termRows isAlphanumeric document ∧ document.fingerprint = fingerprint := by
  unfold termsWithDocuments
  rw [List.mem_insertionSort, List.mem_flatMap]
  constructor
  · rintro ⟨_, hrow, hjoined⟩
    obtain ⟨parent, hparent, heq⟩ := List.mem_map.1 hjoined
    obtain ⟨rfl, rfl⟩ := Prod.mk.inj heq
    obtain ⟨hrow, hterm⟩ := List.mem_filter.1 hrow
    obtain ⟨hparent, hpath⟩ := List.mem_filter.1 hparent
    obtain ⟨document, hdocument, hterms⟩ := (h.terms _).1 hrow
    obtain ⟨other, hother, hfingerprint⟩ := (h.documents _).1 hparent
    rw [of_decide_eq_true hpath, hdocument] at hother
    obtain rfl := Option.some.inj hother
    exact ⟨of_decide_eq_true hterm, document, hdocument, hterms, hfingerprint⟩
  · rintro ⟨hterm, document, hdocument, hrow, rfl⟩
    have hparent : (⟨row.workspacePath, document.fingerprint⟩ : TextDocumentRow) ∈ index.documents :=
      (h.documents _).2 ⟨document, hdocument, rfl⟩
    refine ⟨row, List.mem_filter.2 ⟨(h.terms row).2 ⟨document, hdocument, hrow⟩, decide_eq_true hterm⟩, ?_⟩
    exact List.mem_map.2 ⟨_, List.mem_filter.2 ⟨hparent, decide_eq_true rfl⟩, rfl⟩

/-- No two rows of a word are at one place. -/
theorem termsWithDocuments_ne (h : Indexes isAlphanumeric index texts) (query : String) :
    (termsWithDocuments index query).Pairwise fun a b => a.1.place ≠ b.1.place := by
  have hdocuments : index.documents.Pairwise fun a b => a.workspacePath ≠ b.workspacePath :=
    List.pairwise_map.1 h.documentKeys
  have hterms : index.terms.Pairwise fun a b => a.key ≠ b.key := by
    have hkeys := h.termKeys
    unfold KeysUnique keys at hkeys
    rw [List.Nodup, List.pairwise_filterMap] at hkeys
    exact hkeys.imp fun hne heq => hne _ rfl _ heq.symm rfl
  unfold termsWithDocuments
  refine (List.Perm.pairwise_iff (fun hne heq => hne heq.symm) (List.perm_insertionSort _ _)).2 ?_
  refine List.pairwise_flatMap.2 ⟨fun row hrow => ?_, ?_⟩
  · -- A row has one document.
    refine List.pairwise_map.2 ((hdocuments.filter _).imp_of_mem fun {a b} ha hb hne => absurd ?_ hne)
    have hpath := of_decide_eq_true (List.mem_filter.1 ha).2
    exact hpath.trans (of_decide_eq_true (List.mem_filter.1 hb).2).symm
  · refine (hterms.filter _).imp_of_mem fun {a b} ha hb hne x hx y hy hplace => hne ?_
    obtain ⟨_, -, rfl⟩ := List.mem_map.1 hx
    obtain ⟨_, -, rfl⟩ := List.mem_map.1 hy
    have hterm : a.term = query := of_decide_eq_true (List.mem_filter.1 ha).2
    have hterm' : b.term = query := of_decide_eq_true (List.mem_filter.1 hb).2
    obtain ⟨hpath, hstart⟩ := Prod.mk.inj (toLex_inj.1 hplace)
    unfold TextTermRow.key
    rw [hterm, hterm', hstart, show a.workspacePath = b.workspacePath from congrArg WorkspacePath.mk hpath]

theorem termsWithDocuments_sorted (h : Indexes isAlphanumeric index texts) (query : String) :
    (termsWithDocuments index query).Pairwise fun a b => a.1.place < b.1.place := by
  have hle : (termsWithDocuments index query).Pairwise fun a b => a.1.place ≤ b.1.place := List.pairwise_insertionSort _ _
  exact (hle.and (termsWithDocuments_ne h query)).imp fun hboth => lt_of_le_of_ne hboth.1 hboth.2

end

/-! ### Matches -/

section
variable {sha256 : Bytes → String} {isAlphanumeric isWhitespace : Char → Bool} {query : String}

/-- A match is at a run of the text that is the word. -/
def IsOccurrence (isAlphanumeric isWhitespace : Char → Bool) (query : String) (document : TextDocument) (found : LexicalMatch) :
    Prop :=
  ∃ before run after, IsRun (isWordCharacter isAlphanumeric · = true) document.content.toList before run after ∧
    String.ofList run = query ∧ found.path = document.path ∧
    found.range = ⟨byteLength before, byteLength before + byteLength run⟩ ∧
    StandsAt isWhitespace before run after found.position found.snippet

theorem StandsAt.unique {before run after : List Char} {position other : TextPosition} {snippet text : String}
    (h : StandsAt isWhitespace before run after position snippet) (h' : StandsAt isWhitespace before run after other text) :
    position = other ∧ snippet = text := by
  have hline : position.line = other.line := UInt32.toNat_inj.1 (h.line.trans h'.line.symm)
  have hcolumn : position.column = other.column := UInt32.toNat_inj.1 (h.column.trans h'.column.symm)
  cases position
  cases other
  exact ⟨by rw [TextPosition.mk.injEq]; exact ⟨hline, hcolumn⟩, h.snippet.trans h'.snippet.symm⟩

theorem unchangedText_eq {files : WorkspaceFiles} {document : TextDocument} {bytes : Bytes}
    (hread : files.read document.path = some bytes) (hdocument : documentFromBytes sha256 document.path bytes = .ok document) :
    unchangedText sha256 files document.path document.fingerprint = some document.content := by
  unfold unchangedText
  rw [hread, Option.bind_some, hdocument]
  show ((some document).filter _).map _ = _
  rw [Option.filter_some, if_pos (decide_eq_true rfl), Option.map_some]

theorem content_size_le {path : WorkspacePath} {bytes : Bytes} {document : TextDocument}
    (h : documentFromBytes sha256 path bytes = .ok document) :
    byteLength document.content.toList ≤ MAX_TEXT_DOCUMENT_BYTES := by
  obtain ⟨htext, -, hcontent, -⟩ := documentFromBytes_ok_iff.1 h
  rw [byteLength_toList, hcontent, List.data_toByteArray]
  exact htext.1

theorem matchAt_eq (isWhitespace : Char → Bool) {content : String} {before run after : List Char}
    (h : content.toList = before ++ run ++ after) (hsize : byteLength content.toList ≤ MAX_TEXT_DOCUMENT_BYTES)
    (path : WorkspacePath) (term : String) :
    ∃ position snippet, StandsAt isWhitespace before run after position snippet ∧
      matchAt isWhitespace content ⟨path, term, byteLength before, byteLength before + byteLength run⟩ =
        some ⟨path, ⟨byteLength before, byteLength before + byteLength run⟩, position, snippet⟩ := by
  have hfits : byteLength content.toList + 1 < 2 ^ 32 := by
    unfold MAX_TEXT_DOCUMENT_BYTES at hsize
    omega
  obtain ⟨position, hposition, hline, hcolumn⟩ := positionAt_eq (h.trans (List.append_assoc _ _ _)) hfits
  refine ⟨position, _, ⟨hline, hcolumn, rfl⟩, ?_⟩
  unfold matchAt
  rw [hposition, snippetAt_eq isWhitespace h]
  rfl

/-- The rows of a document with a word become its occurrences. -/
theorem exists_row_matchAt_iff {document : TextDocument} (hsize : byteLength document.content.toList ≤ MAX_TEXT_DOCUMENT_BYTES)
    {found : LexicalMatch} :
    (∃ row ∈ termRows isAlphanumeric document, row.term = query ∧ matchAt isWhitespace document.content row = some found) ↔
      IsOccurrence isAlphanumeric isWhitespace query document found := by
  constructor
  · rintro ⟨row, hrow, hterm, hfound⟩
    obtain ⟨entry, hentry, rfl⟩ := List.mem_map.1 hrow
    obtain ⟨before, run, after, hrun, rfl⟩ := mem_lexicalTerms_iff.1 hentry
    obtain ⟨position, snippet, hstands, hmatch⟩ := matchAt_eq isWhitespace hrun.split hsize document.path (String.ofList run)
    rw [hmatch] at hfound
    obtain rfl := Option.some.inj hfound
    exact ⟨before, run, after, hrun, hterm, rfl, rfl, hstands⟩
  · rintro ⟨before, run, after, hrun, hterm, hpath, hrange, hstands⟩
    refine ⟨_, List.mem_map.2 ⟨_, mem_lexicalTerms_iff.2 ⟨before, run, after, hrun, rfl⟩, rfl⟩, hterm, ?_⟩
    obtain ⟨position, snippet, hstands', hmatch⟩ := matchAt_eq isWhitespace hrun.split hsize document.path (String.ofList run)
    rw [hmatch]
    obtain ⟨rfl, rfl⟩ := hstands'.unique hstands
    cases found
    simp_all

theorem matchAt_place {content : String} {row : TextTermRow} {found : LexicalMatch}
    (h : matchAt isWhitespace content row = some found) :
    toLex (found.path.asStr, found.range.start) = row.place := by
  unfold matchAt at h
  obtain ⟨position, -, h⟩ := Option.bind_eq_some_iff.1 h
  obtain ⟨snippet, -, h⟩ := Option.bind_eq_some_iff.1 h
  obtain rfl := Option.some.inj h
  rfl

end

/-! ### The search -/

section
variable {sha256 : Bytes → String} {isAlphanumeric isWhitespace : Char → Bool} {query : String} {index : TextIndex}
  {texts : WorkspacePath → Option TextDocument} {files : WorkspaceFiles}

/-- The workspace has the texts. -/
def OnDisk (sha256 : Bytes → String) (files : WorkspaceFiles) (texts : WorkspacePath → Option TextDocument) : Prop :=
  ∀ path document, texts path = some document →
    ∃ bytes, files.read path = some bytes ∧ documentFromBytes sha256 path bytes = .ok document

theorem OnDisk.size_le (hfiles : OnDisk sha256 files texts) {path : WorkspacePath} {document : TextDocument}
    (h : texts path = some document) : byteLength document.content.toList ≤ MAX_TEXT_DOCUMENT_BYTES := by
  obtain ⟨bytes, -, hok⟩ := hfiles path document h
  exact content_size_le hok

theorem mem_termsInTexts_iff (h : Indexes isAlphanumeric index texts) (hfiles : OnDisk sha256 files texts) {content : String}
    {row : TextTermRow} :
    (content, row) ∈ termsInTexts sha256 files index query ↔ row.term = query ∧ ∃ document,
      texts row.workspacePath = some document ∧ row ∈ termRows isAlphanumeric document ∧ content = document.content := by
  have htext : ∀ path document, texts path = some document →
      unchangedText sha256 files path document.fingerprint = some document.content := by
    intro path document hdocument
    obtain ⟨bytes, hread, hok⟩ := hfiles path document hdocument
    obtain rfl := h.paths path document hdocument
    exact unchangedText_eq hread hok
  unfold termsInTexts
  rw [List.mem_filterMap]
  constructor
  · rintro ⟨⟨_, fingerprint⟩, hentry, htaken⟩
    obtain ⟨_, hcontent, heq⟩ := Option.map_eq_some_iff.1 htaken
    obtain ⟨rfl, rfl⟩ := Prod.mk.inj heq
    obtain ⟨hterm, document, hdocument, hrow, rfl⟩ := (mem_termsWithDocuments_iff h).1 hentry
    rw [htext _ _ hdocument] at hcontent
    exact ⟨hterm, document, hdocument, hrow, (Option.some.inj hcontent).symm⟩
  · rintro ⟨hterm, document, hdocument, hrow, rfl⟩
    refine ⟨(row, document.fingerprint), (mem_termsWithDocuments_iff h).2 ⟨hterm, document, hdocument, hrow, rfl⟩, ?_⟩
    rw [htext _ _ hdocument]
    rfl

/-- No `expect` fails. -/
theorem exists_matchAt (h : Indexes isAlphanumeric index texts) (hfiles : OnDisk sha256 files texts)
    {entry : String × TextTermRow} (hentry : entry ∈ termsInTexts sha256 files index query) :
    ∃ found, matchAt isWhitespace entry.1 entry.2 = some found := by
  obtain ⟨content, row⟩ := entry
  obtain ⟨-, document, hdocument, hrow, rfl⟩ := (mem_termsInTexts_iff h hfiles).1 hentry
  obtain ⟨term, hterm, rfl⟩ := List.mem_map.1 hrow
  obtain ⟨before, run, after, hrun, rfl⟩ := mem_lexicalTerms_iff.1 hterm
  obtain ⟨position, snippet, -, hfound⟩ :=
    matchAt_eq isWhitespace hrun.split (hfiles.size_le hdocument) document.path (String.ofList run)
  exact ⟨_, hfound⟩

theorem termsInTexts_sorted (h : Indexes isAlphanumeric index texts) (query : String) :
    (termsInTexts sha256 files index query).Pairwise fun a b => a.2.place < b.2.place := by
  unfold termsInTexts
  refine List.pairwise_filterMap.2 ((termsWithDocuments_sorted h query).imp fun {a b} hlt x hx y hy => ?_)
  obtain ⟨_, -, rfl⟩ := Option.map_eq_some_iff.1 hx
  obtain ⟨_, -, rfl⟩ := Option.map_eq_some_iff.1 hy
  exact hlt

/-- A search finds the occurrences in the indexed texts, if the workspace has them. -/
theorem lexicalMatches_spec (isWhitespace : Char → Bool) (h : Indexes isAlphanumeric index texts)
    (hfiles : OnDisk sha256 files texts) (hquery : query ≠ "") :
    ∃ results, lexicalMatches sha256 isWhitespace files index query = some results ∧
      (∀ found, found ∈ results ↔ ∃ path document, texts path = some document ∧
        IsOccurrence isAlphanumeric isWhitespace query document found) ∧
      results.Pairwise fun a b => toLex (a.path.asStr, a.range.start) < toLex (b.path.asStr, b.range.start) := by
  refine ⟨_, (if_neg hquery).trans (Checks.mapM_eq_some_filterMap fun entry => exists_matchAt h hfiles), fun found => ?_, ?_⟩
  · rw [List.mem_filterMap]
    constructor
    · rintro ⟨⟨content, row⟩, hentry, hfound⟩
      obtain ⟨hterm, document, hdocument, hrow, rfl⟩ := (mem_termsInTexts_iff h hfiles).1 hentry
      have hsize := hfiles.size_le hdocument
      exact ⟨_, document, hdocument, (exists_row_matchAt_iff hsize).1 ⟨row, hrow, hterm, hfound⟩⟩
    · rintro ⟨path, document, hdocument, hoccurs⟩
      obtain ⟨row, hrow, hterm, hfound⟩ := (exists_row_matchAt_iff (hfiles.size_le hdocument)).2 hoccurs
      have hpath : row.workspacePath = path := (mem_termRows_path hrow).trans (h.paths _ _ hdocument)
      exact ⟨(document.content, row), (mem_termsInTexts_iff h hfiles).2 ⟨hterm, document, hpath ▸ hdocument, hrow, rfl⟩, hfound⟩
  · refine List.pairwise_filterMap.2 ((termsInTexts_sorted h query).imp fun {a b} hlt found hfound other hother => ?_)
    rw [matchAt_place hfound, matchAt_place hother]
    exact hlt

end

/-! ### After any calls -/

section
variable {sha256 : Bytes → String} {history : List (List TextDocument)}

theorem documentFromBytes_content {path : WorkspacePath} {bytes : Bytes} {document : TextDocument}
    (h : documentFromBytes sha256 path bytes = .ok document) : bytes = document.content.toByteArray.data.toList := by
  obtain ⟨-, -, hcontent, -⟩ := documentFromBytes_ok_iff.1 h
  rw [hcontent, List.data_toByteArray]

/-- Documents with one fingerprint have one digest. -/
theorem sha256_eq_of_fingerprint {document other : TextDocument}
    (hdocument : ∃ bytes, documentFromBytes sha256 document.path bytes = .ok document)
    (hother : ∃ bytes, documentFromBytes sha256 other.path bytes = .ok other)
    (h : other.fingerprint = document.fingerprint) :
    sha256 other.content.toByteArray.data.toList = sha256 document.content.toByteArray.data.toList := by
  obtain ⟨bytes, hok⟩ := hdocument
  obtain ⟨bytes', hok'⟩ := hother
  obtain ⟨-, -, -, hfingerprint⟩ := documentFromBytes_ok_iff.1 hok
  obtain ⟨-, -, -, hfingerprint'⟩ := documentFromBytes_ok_iff.1 hok'
  rw [hfingerprint, hfingerprint'] at h
  rw [← documentFromBytes_content hok, ← documentFromBytes_content hok']
  exact (String.append_right_inj _).1 (Fingerprint.mk.inj h)

/-- **Text search.** After any calls, each with distinct paths, and while the workspace has the documents of the last call
that did not fail, a search for a word finds exactly its occurrences in them, in the order of paths and offsets. -/
theorem lexicalMatches_exact (isAlphanumeric isWhitespace : Char → Bool) (variableLimit : Nat) (files : WorkspaceFiles)
    (hpaths : ∀ documents ∈ history, (documents.map (·.path)).Nodup)
    (hdocuments : ∀ documents ∈ history, ∀ document ∈ documents,
      ∃ bytes, documentFromBytes sha256 document.path bytes = .ok document)
    (hsha : ∀ document ∈ history.flatten, ∀ other ∈ history.flatten,
      sha256 other.content.toByteArray.data.toList = sha256 document.content.toByteArray.data.toList →
        other.content = document.content)
    (hfiles : ∀ document ∈ lastSynchronized variableLimit history,
      files.read document.path = some document.content.toByteArray.data.toList)
    {query : String} (hquery : query ≠ "") :
    ∃ results, lexicalMatches sha256 isWhitespace files (synchronizedIndex isAlphanumeric variableLimit history) query =
        some results ∧
      (∀ found, found ∈ results ↔ ∃ document ∈ lastSynchronized variableLimit history,
        IsOccurrence isAlphanumeric isWhitespace query document found) ∧
      results.Pairwise fun a b =>
        a.path.asStr < b.path.asStr ∨ a.path.asStr = b.path.asStr ∧ a.range.start < b.range.start := by
  have hdocument : ∀ document ∈ history.flatten, ∃ bytes, documentFromBytes sha256 document.path bytes = .ok document := by
    intro document hmem
    obtain ⟨documents, hcall, hin⟩ := List.mem_flatten.1 hmem
    exact hdocuments documents hcall document hin
  have hindexes : Indexes isAlphanumeric (synchronizedIndex isAlphanumeric variableLimit history) fun path =>
      (lastSynchronized variableLimit history).find? (·.path = path) :=
    synchronizedIndex_spec variableLimit hpaths fun document hmem other hother hfingerprint =>
      hsha document hmem other hother (sha256_eq_of_fingerprint (hdocument _ hmem) (hdocument _ hother) hfingerprint)
  have hfound : ∀ path document, (lastSynchronized variableLimit history).find? (·.path = path) = some document ↔
      document ∈ lastSynchronized variableLimit history ∧ document.path = path :=
    fun _ _ => find_eq_some_iff (lastSynchronized_nodup hpaths)
  have hdisk : OnDisk sha256 files fun path => (lastSynchronized variableLimit history).find? (·.path = path) := by
    intro path document hsome
    obtain ⟨hmem, rfl⟩ := (hfound path document).1 hsome
    obtain ⟨bytes, hok⟩ := hdocuments _ (mem_of_mem_lastSynchronized hmem) document hmem
    exact ⟨bytes, by rw [hfiles document hmem, documentFromBytes_content hok], hok⟩
  obtain ⟨results, hresults, hexact, hsorted⟩ := lexicalMatches_spec isWhitespace hindexes hdisk hquery
  refine ⟨results, hresults, fun found => ?_, hsorted.imp fun hlt => Prod.Lex.toLex_lt_toLex.1 hlt⟩
  rw [hexact]
  constructor
  · rintro ⟨path, document, hsome, hoccurs⟩
    exact ⟨document, ((hfound path document).1 hsome).1, hoccurs⟩
  · rintro ⟨document, hmem, hoccurs⟩
    exact ⟨document.path, document, (hfound _ document).2 ⟨hmem, rfl⟩, hoccurs⟩

/-- `cat catalog`, then `cat`, with the real hash function. -/
def editedCat : List (List TextDocument) :=
  ["cat catalog", "a\n cat\n"].map fun content =>
    [⟨⟨"a.txt"⟩, content, fingerprintBytes hexDigest content.toByteArray.data.toList⟩]

def editedCatFiles : WorkspaceFiles :=
  ⟨fun path => if path = ⟨"a.txt"⟩ then some "a\n cat\n".toByteArray.data.toList else none, [], fun _ => false, fun _ => [], []⟩

/-- After the edit there is the one word of the second line. -/
theorem lexicalMatches_editedCat :
    ∃ results, lexicalMatches hexDigest Char.isWhitespace editedCatFiles (synchronizedIndex Char.isAlphanum 32766 editedCat)
        "cat" = some results ∧
      (∀ found, found ∈ results ↔ ∃ document ∈ lastSynchronized 32766 editedCat,
        IsOccurrence Char.isAlphanum Char.isWhitespace "cat" document found) ∧
      results.Pairwise fun a b =>
        a.path.asStr < b.path.asStr ∨ a.path.asStr = b.path.asStr ∧ a.range.start < b.range.start := by
  have hdocuments : ∀ documents ∈ editedCat, ∀ document ∈ documents,
      ∃ bytes, documentFromBytes hexDigest document.path bytes = .ok document := by
    intro documents hcall document hdocument
    obtain ⟨content, hcontent, rfl⟩ := List.mem_map.1 hcall
    obtain rfl := List.mem_singleton.1 hdocument
    rcases List.mem_pair.1 hcontent with rfl | rfl
    · exact ⟨"cat catalog".toByteArray.data.toList, rfl⟩
    · exact ⟨"a\n cat\n".toByteArray.data.toList, rfl⟩
  exact lexicalMatches_exact Char.isAlphanum Char.isWhitespace 32766 editedCatFiles (by decide) hdocuments
    (by decide +kernel) (by decide +kernel) (by decide)

end

end Kide
