import Kide.Query.Selector
import Mathlib

/-!
# Nested applications

`symbols_with_nested_application_argument` (`store.rs`): symbols that one declaration is applied to, whose owner another
is applied to with a given argument. Arguments are compared in their columns, as a kind and a text.

`applicationValueColumns_injective`: the columns tell values apart, lists of strings by their JSON.
`nested_application_exact`: over every history of commits the query is the join of the applications that are stored.
-/

namespace Kide
open Tables

/-! ## The query -/

namespace IndexStore
variable (store : IndexStore)

/-- An application to the subject has an argument with this name in these columns. -/
def appliedWith (subject target : SymbolId) (argumentName : String) (columns : String × String) : Bool :=
  store.applications.any fun application =>
    application.subjectSymbolId = subject ∧ application.targetSymbolId = target ∧
      store.applicationArguments.any fun argument =>
        argument.applicationId = application.applicationId ∧ argument.name = some argumentName ∧
          argument.valueKind = columns.1 ∧ argument.valueText = columns.2

def symbolsWithNestedApplicationArgument (nestedTarget outerTarget : SymbolId) (argumentName : String)
    (argumentValue : ApplicationValue) : List SymbolRecord :=
  let rows := (store.applications.filter (·.targetSymbolId = nestedTarget)).flatMap fun nested =>
    store.symbols.filter (·.symbolId = nested.subjectSymbolId)
  ((orderSymbols rows.dedup).filterMap store.joinSymbol).filter fun record =>
    record.owner.any fun owner => store.appliedWith owner outerTarget argumentName (applicationValueColumns argumentValue)

end IndexStore

structure NestedApplicationArgumentPattern where
  nestedTarget : SymbolId
  outerTarget : SymbolId
  argumentName : String
  argumentValue : ApplicationValue
deriving DecidableEq, Repr

def selectNestedApplicationArgument (store : IndexStore) (pattern : NestedApplicationArgumentPattern) : SelectorResult :=
  let symbols := store.symbolsWithNestedApplicationArgument pattern.nestedTarget pattern.outerTarget
    pattern.argumentName pattern.argumentValue
  ⟨selectorState symbols, .appliedSymbolPosting pattern.nestedTarget, symbols⟩

/-! ## Values in columns -/

def hexValue (c : Char) : Nat := if c.toNat < 87 then c.toNat - 48 else c.toNat - 87

/-- The character an escaped text starts with. -/
def jsonUnescape : List Char → Option (Char × List Char)
  | '\\' :: '"' :: rest => some ('"', rest)
  | '\\' :: '\\' :: rest => some ('\\', rest)
  | '\\' :: 'b' :: rest => some (Char.ofNat 8, rest)
  | '\\' :: 't' :: rest => some (Char.ofNat 9, rest)
  | '\\' :: 'n' :: rest => some (Char.ofNat 10, rest)
  | '\\' :: 'f' :: rest => some (Char.ofNat 12, rest)
  | '\\' :: 'r' :: rest => some (Char.ofNat 13, rest)
  | '\\' :: 'u' :: '0' :: '0' :: high :: low :: rest => some (Char.ofNat (16 * hexValue high + hexValue low), rest)
  | c :: rest => some (c, rest)
  | [] => none

theorem jsonUnescape_control (n : Fin 32) (rest : List Char) :
    jsonUnescape (jsonEscape (Char.ofNat n) ++ rest) = some (Char.ofNat n, rest) := by
  fin_cases n <;> rfl

theorem jsonUnescape_plain {c : Char} (h : c ≠ '\\') (rest : List Char) : jsonUnescape (c :: rest) = some (c, rest) := by
  unfold jsonUnescape
  split <;> simp_all

theorem jsonEscape_plain {c : Char} (hquote : c ≠ '"') (hslash : c ≠ '\\') (hcontrol : ¬ c.toNat < 32) :
    jsonEscape c = [c] := by
  unfold jsonEscape
  rw [if_neg hquote, if_neg hslash, if_neg (by omega), if_neg (by omega), if_neg (by omega), if_neg (by omega),
    if_neg (by omega), if_neg hcontrol]

theorem jsonUnescape_escape (c : Char) (rest : List Char) : jsonUnescape (jsonEscape c ++ rest) = some (c, rest) := by
  by_cases hcontrol : c.toNat < 32
  · have hc := jsonUnescape_control ⟨c.toNat, hcontrol⟩ rest
    rwa [Char.ofNat_toNat] at hc
  by_cases hquote : c = '"'
  · subst hquote
    rfl
  by_cases hslash : c = '\\'
  · subst hslash
    rfl
  rw [jsonEscape_plain hquote hslash hcontrol]
  exact jsonUnescape_plain hslash rest

/-- An escaped character starts with no quote. -/
theorem jsonEscape_head (c : Char) : ∃ first rest, jsonEscape c = first :: rest ∧ first ≠ '"' := by
  by_cases hquote : c = '"'
  · subst hquote
    exact ⟨_, _, rfl, by decide⟩
  unfold jsonEscape
  rw [if_neg hquote]
  repeat' split
  all_goals first | exact ⟨_, _, rfl, by decide⟩ | exact ⟨_, _, rfl, hquote⟩

/-- The quote behind an escaped text is the first that is not escaped. -/
theorem escaped_append_inj {text other rest rest' : List Char}
    (h : text.flatMap jsonEscape ++ '"' :: rest = other.flatMap jsonEscape ++ '"' :: rest') : text = other ∧ rest = rest' := by
  induction text generalizing other with
  | nil =>
    cases other with
    | nil => exact ⟨rfl, (List.cons.inj h).2⟩
    | cons d other =>
      obtain ⟨first, tail, hd, hfirst⟩ := jsonEscape_head d
      rw [List.flatMap_cons, hd] at h
      exact absurd (List.cons.inj h).1.symm hfirst
  | cons c text ih =>
    cases other with
    | nil =>
      obtain ⟨first, tail, hc, hfirst⟩ := jsonEscape_head c
      rw [List.flatMap_cons, hc] at h
      exact absurd (List.cons.inj h).1 hfirst
    | cons d other =>
      rw [List.flatMap_cons, List.flatMap_cons, List.append_assoc, List.append_assoc] at h
      have hread := congrArg jsonUnescape h
      rw [jsonUnescape_escape, jsonUnescape_escape, Option.some.injEq, Prod.mk.injEq] at hread
      obtain ⟨rfl, htail⟩ := hread
      obtain ⟨rfl, hrest⟩ := ih htail
      exact ⟨rfl, hrest⟩

def jsonString (value : String) : String := "\"" ++ String.ofList (value.toList.flatMap jsonEscape) ++ "\""

theorem jsonStringList_eq (values : List String) :
    jsonStringList values = "[" ++ ",".intercalate (values.map jsonString) ++ "]" :=
  rfl

theorem jsonString_toList (value : String) : (jsonString value).toList = '"' :: value.toList.flatMap jsonEscape ++ ['"'] := by
  have hbody : (String.ofList (value.toList.flatMap jsonEscape)).toList = value.toList.flatMap jsonEscape := String.toList_ofList
  rw [jsonString, String.toList_append, String.toList_append, hbody]
  rfl

/-- The strings of a list behind the first. -/
def laterStrings (values : List String) : List Char :=
  values.flatMap fun value => ',' :: '"' :: value.toList.flatMap jsonEscape ++ ['"']

theorem jsonStrings_toList (value : String) (values : List String) :
    (",".intercalate ((value :: values).map jsonString)).toList =
      '"' :: value.toList.flatMap jsonEscape ++ '"' :: laterStrings values := by
  induction values generalizing value with
  | nil =>
    rw [List.map_singleton, String.intercalate_singleton, jsonString_toList]
    rfl
  | cons next values ih =>
    have hcomma : ",".toList = [','] := rfl
    rw [List.map_cons, List.map_cons, String.intercalate_cons_cons, ← List.map_cons, String.toList_append,
      String.toList_append, jsonString_toList, ih, hcomma]
    simp [laterStrings]

theorem jsonStringList_toList_nil : (jsonStringList []).toList = ['[', ']'] := by
  rfl

theorem jsonStringList_toList_cons (value : String) (values : List String) : (jsonStringList (value :: values)).toList =
    '[' :: '"' :: value.toList.flatMap jsonEscape ++ '"' :: (laterStrings values ++ [']']) := by
  have hopen : "[".toList = ['['] := rfl
  have hclose : "]".toList = [']'] := rfl
  rw [jsonStringList_eq, String.toList_append, String.toList_append, jsonStrings_toList, hopen, hclose]
  simp

theorem laterStrings_inj {values others : List String} (h : laterStrings values ++ [']'] = laterStrings others ++ [']']) :
    values = others := by
  induction values generalizing others with
  | nil =>
    cases others with
    | nil => rfl
    | cons other others => cases h
  | cons value values ih =>
    cases others with
    | nil => cases h
    | cons other others =>
      simp only [laterStrings, List.flatMap_cons, List.cons_append, List.append_assoc, List.cons.injEq, true_and] at h
      obtain ⟨hvalue, hrest⟩ := escaped_append_inj h
      rw [String.toList_inj.1 hvalue, ih hrest]

theorem jsonStringList_injective : Function.Injective jsonStringList := by
  intro values others h
  have hlists := congrArg String.toList h
  cases values with
  | nil =>
    cases others with
    | nil => rfl
    | cons other others =>
      rw [jsonStringList_toList_nil, jsonStringList_toList_cons] at hlists
      cases hlists
  | cons value values =>
    cases others with
    | nil =>
      rw [jsonStringList_toList_nil, jsonStringList_toList_cons] at hlists
      cases hlists
    | cons other others =>
      rw [jsonStringList_toList_cons, jsonStringList_toList_cons] at hlists
      simp only [List.cons_append, List.cons.injEq, true_and] at hlists
      obtain ⟨hvalue, hrest⟩ := escaped_append_inj hlists
      rw [String.toList_inj.1 hvalue, laterStrings_inj hrest]

theorem applicationValueColumns_injective : Function.Injective applicationValueColumns := by
  intro value other h
  cases value with
  | string value =>
    cases other with
    | string other => exact congrArg ApplicationValue.string (Prod.mk.inj h).2
    | _ => exact absurd (Prod.mk.inj h).1 (by decide)
  | stringList value =>
    cases other with
    | stringList other => exact congrArg ApplicationValue.stringList (jsonStringList_injective (Prod.mk.inj h).2)
    | _ => exact absurd (Prod.mk.inj h).1 (by decide)
  | boolean value =>
    cases other with
    | boolean other =>
      have htext := (Prod.mk.inj h).2
      cases value <;> cases other <;> first | rfl | exact absurd htext (by decide)
    | _ => exact absurd (Prod.mk.inj h).1 (by decide)
  | integer value =>
    cases other with
    | integer other => exact congrArg ApplicationValue.integer (Int.repr_injective (Prod.mk.inj h).2)
    | _ => exact absurd (Prod.mk.inj h).1 (by decide)

/-! ## Applications of a history -/

namespace SnapshotMap
variable (m : SnapshotMap)

/-- A stored snapshot applies the target to the subject. -/
def Applied (subject target : SymbolId) : Prop :=
  ∃ u snapshot, m u = some snapshot ∧
    ∃ application ∈ snapshot.applications, application.subject = subject ∧ application.target = target

/-- A stored snapshot applies the target to the subject with this argument. -/
def AppliedWith (subject target : SymbolId) (argumentName : String) (argumentValue : ApplicationValue) : Prop :=
  ∃ u snapshot, m u = some snapshot ∧
    ∃ application ∈ snapshot.applications, application.subject = subject ∧ application.target = target ∧
      ∃ argument ∈ application.arguments, argument.name = some argumentName ∧ argument.value = argumentValue

/-- A stored snapshot declares the symbol. -/
def Declares (record : SymbolRecord) : Prop :=
  ∃ u snapshot, m u = some snapshot ∧ ∃ symbol ∈ snapshot.symbols, symbol.stored snapshot = record

end SnapshotMap

section
variable {store : IndexStore} {live : List FileAnalysisSnapshot}

theorem Holds.exists_lookup (h : Holds store live) {P : FileAnalysisSnapshot → Prop} :
    (∃ u snapshot, lookup live u = some snapshot ∧ P snapshot) ↔ ∃ snapshot ∈ live, P snapshot := by
  constructor
  · rintro ⟨u, snapshot, hu, hP⟩
    exact ⟨snapshot, ((find_eq_some_iff h.ids_nodup).1 hu).1, hP⟩
  · rintro ⟨snapshot, hs, hP⟩
    exact ⟨snapshot.id, snapshot, (find_eq_some_iff h.ids_nodup).2 ⟨hs, rfl⟩, hP⟩

theorem Holds.mem_applicationArguments_iff (h : Holds store live) {row : ApplicationArgumentRow} :
    row ∈ store.applicationArguments ↔
      ∃ snapshot ∈ live, ∃ application ∈ snapshot.applications, row ∈ application.argumentRows := by
  rw [IndexStore.applicationArguments, h.table, List.mem_flatMap]
  simp only [rows_inApplicationArguments, List.mem_flatMap]

/-- An application id names one stored application. -/
theorem Holds.application_unique (h : Holds store live) {snapshot other : FileAnalysisSnapshot} (hs : snapshot ∈ live)
    (ho : other ∈ live) {application application' : ApplicationFact} (ha : application ∈ snapshot.applications)
    (ha' : application' ∈ other.applications) (hid : application.id = application'.id) : application = application' := by
  have hrow := h.mem_facts.2 ⟨snapshot, hs, applicationRow_mem ha⟩
  have hrow' := h.mem_facts.2 ⟨other, ho, applicationRow_mem ha'⟩
  have heq := h.unique.eq_of_key_eq FactRow.key hrow hrow' (k := .applications application.id) rfl
    (by rw [hid]; rfl)
  exact congrArg ApplicationRow.recordJson (FactRow.applications.inj heq)

theorem Holds.appliedWith_iff (h : Holds store live) {subject target : SymbolId} {argumentName : String}
    {argumentValue : ApplicationValue} :
    store.appliedWith subject target argumentName (applicationValueColumns argumentValue) = true ↔
      SnapshotMap.AppliedWith (lookup live) subject target argumentName argumentValue := by
  unfold IndexStore.appliedWith SnapshotMap.AppliedWith
  rw [h.exists_lookup, List.any_eq_true]
  simp only [List.any_eq_true, decide_eq_true_eq]
  constructor
  · rintro ⟨row, hrow, rfl, rfl, argumentRow, hargumentRow, hid, hname, hkind, htext⟩
    obtain ⟨snapshot, hs, application, ha, rfl⟩ := h.mem_applications_iff.1 hrow
    obtain ⟨other, ho, application', ha', hmem⟩ := h.mem_applicationArguments_iff.1 hargumentRow
    obtain ⟨argument, hargument, rfl⟩ := List.mem_map.1 hmem
    obtain rfl := h.application_unique ho hs ha' ha hid
    exact ⟨snapshot, hs, application', ha, rfl, rfl, argument, hargument, hname,
      applicationValueColumns_injective (Prod.ext hkind htext)⟩
  · rintro ⟨snapshot, hs, application, ha, rfl, rfl, argument, hargument, hname, rfl⟩
    refine ⟨_, h.mem_applications_iff.2 ⟨snapshot, hs, application, ha, rfl⟩, rfl, rfl, _,
      h.mem_applicationArguments_iff.2 ⟨snapshot, hs, application, ha, List.mem_map_of_mem hargument⟩, rfl, hname, rfl, rfl⟩

theorem Holds.mem_nestedRows (h : Holds store live) {nestedTarget : SymbolId} {row : SymbolRow} :
    row ∈ ((store.applications.filter (·.targetSymbolId = nestedTarget)).flatMap fun nested =>
      store.symbols.filter (·.symbolId = nested.subjectSymbolId)) ↔
      row ∈ store.symbols ∧ SnapshotMap.Applied (lookup live) row.symbolId nestedTarget := by
  unfold SnapshotMap.Applied
  rw [h.exists_lookup, List.mem_flatMap]
  simp only [List.mem_filter, decide_eq_true_eq]
  constructor
  · rintro ⟨nested, ⟨hnested, rfl⟩, hrow, hid⟩
    obtain ⟨snapshot, hs, application, ha, rfl⟩ := h.mem_applications_iff.1 hnested
    exact ⟨hrow, snapshot, hs, application, ha, hid.symm, rfl⟩
  · rintro ⟨hrow, snapshot, hs, application, ha, hid, rfl⟩
    exact ⟨_, ⟨h.mem_applications_iff.2 ⟨snapshot, hs, application, ha, rfl⟩, rfl⟩, hrow, hid.symm⟩

theorem Holds.mem_orderedNestedRows (h : Holds store live) {nestedTarget : SymbolId} {row : SymbolRow} :
    row ∈ IndexStore.orderSymbols ((store.applications.filter (·.targetSymbolId = nestedTarget)).flatMap fun nested =>
      store.symbols.filter (·.symbolId = nested.subjectSymbolId)).dedup ↔
      row ∈ store.symbols ∧ SnapshotMap.Applied (lookup live) row.symbolId nestedTarget := by
  rw [(IndexStore.orderSymbols_perm _).mem_iff, List.mem_dedup, h.mem_nestedRows]

theorem Holds.mem_nestedApplication (h : Holds store live) {nestedTarget outerTarget : SymbolId} {argumentName : String}
    {argumentValue : ApplicationValue} {record : SymbolRecord} :
    record ∈ store.symbolsWithNestedApplicationArgument nestedTarget outerTarget argumentName argumentValue ↔
      SnapshotMap.Declares (lookup live) record ∧ SnapshotMap.Applied (lookup live) record.id nestedTarget ∧
        ∃ owner, record.owner = some owner ∧
          SnapshotMap.AppliedWith (lookup live) owner outerTarget argumentName argumentValue := by
  unfold IndexStore.symbolsWithNestedApplicationArgument SnapshotMap.Declares
  rw [h.exists_lookup, List.mem_filter, Option.any_eq_true,
    h.mem_joined fun row hrow => (h.mem_orderedNestedRows.1 hrow).1]
  simp only [h.mem_orderedNestedRows, h.appliedWith_iff]
  constructor
  · rintro ⟨⟨snapshot, hs, symbol, hsymbol, ⟨-, happlied⟩, rfl⟩, howner⟩
    exact ⟨⟨snapshot, hs, symbol, hsymbol, rfl⟩, happlied, howner⟩
  · rintro ⟨⟨snapshot, hs, symbol, hsymbol, rfl⟩, happlied, howner⟩
    exact ⟨⟨snapshot, hs, symbol, hsymbol, ⟨h.mem_symbols_iff.2 ⟨snapshot, hs, symbol, hsymbol, rfl⟩, happlied⟩, rfl⟩, howner⟩

theorem Holds.nestedApplication_nodup (h : Holds store live) (nestedTarget outerTarget : SymbolId) (argumentName : String)
    (argumentValue : ApplicationValue) :
    (store.symbolsWithNestedApplicationArgument nestedTarget outerTarget argumentName argumentValue).Nodup := by
  refine List.Nodup.filter _ (h.joined_nodup (fun row hrow => ?_) ?_)
  · exact (h.mem_orderedNestedRows.1 hrow).1
  · exact (IndexStore.orderSymbols_perm _).nodup_iff.2 (List.nodup_dedup _)

end

/-- **Join.** After any commits the pattern selects the symbols that the nested target is applied to and whose owner the
outer target is applied to with the argument, each once. -/
theorem nested_application_exact (start : IndexStore) (operations : List (Disk × StoreOperation))
    (pattern : NestedApplicationArgumentPattern) :
    let state := operations.foldl StoreOperation.step (({ start with facts := [] } : IndexStore), fun _ => none)
    (∀ record, record ∈ (selectNestedApplicationArgument state.1 pattern).symbols ↔
      state.2.Declares record ∧ state.2.Applied record.id pattern.nestedTarget ∧
        ∃ owner, record.owner = some owner ∧
          state.2.AppliedWith owner pattern.outerTarget pattern.argumentName pattern.argumentValue) ∧
    (selectNestedApplicationArgument state.1 pattern).symbols.Nodup ∧
    Function.Injective applicationValueColumns := by
  intro state
  let first : IndexStore × SnapshotMap := ({ start with facts := [] }, fun _ => none)
  have hstart : Holds first.1 [] := Holds.empty start
  obtain ⟨live, hlive, hm⟩ := StoreOperation.run_holds operations hstart rfl
  change Holds state.1 live at hlive
  change state.2 = lookup live at hm
  rw [hm]
  exact ⟨fun record => hlive.mem_nestedApplication, hlive.nestedApplication_nodup _ _ _ _, applicationValueColumns_injective⟩

end Kide
