import Kide.Lib.Fields
import Kide.Query.ProjectQueryText

/-!
# Written clauses are read back

Clause by clause: what `write` writes, the parser reads. The two lists of a line are cut at ` and ` and at `,`, so there a
literal has a say (`predicate_clear_iff`, `argument_clear_iff`), and a literal with a separator in it leaves a piece with an
opening quote alone, which nothing reads (`unquote_open`).
-/

namespace Kide
open Checks Splits Unicode

namespace ProjectQuery

theorem okOr_some {α : Type} (a : α) (message : String) : okOr (some a) message = .ok a := rfl

theorem okOr_eq_ok_iff {α : Type} {value : Option α} {message : String} {a : α} : okOr value message = .ok a ↔ value = some a := by
  cases value <;> simp [okOr]

theorem map_eq_ok_iff {ε α β : Type} {x : Except ε α} {f : α → β} {b : β} : x.map f = .ok b ↔ ∃ a, x = .ok a ∧ f a = b := by
  cases x <;> simp [Except.map]

/-! ## Characters of names -/

theorem nameChar_code {c : Char} (h : nameChar c = true) :
    c.toNat = 45 ∨ (48 ≤ c.toNat ∧ c.toNat ≤ 57) ∨ (97 ≤ c.toNat ∧ c.toNat ≤ 122) := by
  change ((decide (c.val ≥ 'a'.val) && decide (c.val ≤ 'z'.val)) || c.isDigit || c == '-') = true at h
  simp only [Char.isDigit, Bool.or_eq_true, Bool.and_eq_true, decide_eq_true_eq, beq_iff_eq, UInt32.le_iff_toNat_le, ge_iff_le] at h
  rcases h with (h | h) | rfl
  · exact .inr (.inr h)
  · exact .inr (.inl h)
  · exact .inl rfl

theorem whitespace_code {c : Char} (h : isWhitespace c = true) : c.toNat ≤ 32 ∨ 133 ≤ c.toNat := by
  simp only [isWhitespace, decide_eq_true_eq] at h
  omega

/-- A character of a dotted name. -/
def WordChar (c : Char) : Prop := c.toNat = 45 ∨ c.toNat = 46 ∨ (48 ≤ c.toNat ∧ c.toNat ≤ 57) ∨ (97 ≤ c.toNat ∧ c.toNat ≤ 122)

theorem WordChar.not_whitespace {c : Char} (h : WordChar c) : isWhitespace c = false := by
  by_contra hne
  have := whitespace_code (by simpa using hne)
  unfold WordChar at h
  omega

theorem WordChar.ne {c d : Char} (h : WordChar c) (hd : ¬ WordChar d) : c ≠ d := fun heq => hd (heq ▸ h)

instance (c : Char) : Decidable (WordChar c) :=
  inferInstanceAs (Decidable (c.toNat = 45 ∨ c.toNat = 46 ∨ (48 ≤ c.toNat ∧ c.toNat ≤ 57) ∨ (97 ≤ c.toNat ∧ c.toNat ≤ 122)))

theorem validName_chars {value : List Char} (h : validName value = true) : value ≠ [] ∧ ∀ c ∈ value, WordChar c := by
  simp only [validName, dottedName, Bool.decide_and, Bool.and_eq_true, decide_eq_true_eq, List.all_eq_true, split_singleton] at h
  obtain ⟨hne, hsegments⟩ := h
  refine ⟨hne, fun c hc => ?_⟩
  have hjoined : c ∈ ['.'].intercalate (value.splitOn '.') := by rwa [List.intercalate_splitOn]
  rcases Fields.mem_intercalate hjoined with rfl | ⟨segment, hsegment, hin⟩
  · exact .inr (.inl rfl)
  · rcases nameChar_code ((hsegments segment hsegment).2 c hin) with h | h | h
    · exact .inl h
    · exact .inr (.inr (.inl h))
    · exact .inr (.inr (.inr h))

theorem notMem_of_valid {value : List Char} (h : validName value = true) {c : Char} (hc : ¬ WordChar c) : c ∉ value :=
  fun hmem => hc ((validName_chars h).2 c hmem)

theorem trim_of_valid {value : List Char} (h : validName value = true) : trim isWhitespace value = value :=
  trim_of_forall _ fun c hc => ((validName_chars h).2 c hc).not_whitespace

/-! ## Literals -/

theorem quoted_starts (value : String) : Starts isWhitespace (quoted value) := ⟨'"', _, rfl, by decide⟩

theorem quoted_stops (value : String) : Stops isWhitespace (quoted value) := ⟨'"' :: value.toList, '"', rfl, by decide⟩

theorem trim_quoted (value : String) : trim isWhitespace (quoted value) = quoted value :=
  trim_eq_self (quoted_starts value) (quoted_stops value)

theorem unquote_quoted (value : String) : unquote (quoted value) = .ok value := by
  rw [unquote, trim_quoted, quoted, ← List.singleton_append, dropPrefix?_append, Option.bind_some, dropSuffix?_append,
    Option.map_some, String.ofList_toList, okOr_some]

/-- A quote that is not closed. -/
theorem unquote_open {rest : List Char} (h : '"' ∉ rest) (value : String) : unquote ('"' :: rest) ≠ .ok value := by
  intro hok
  obtain ⟨inner, hinner, -⟩ := Option.map_eq_some_iff.1 (okOr_eq_ok_iff.1 hok)
  obtain ⟨opened, hopened, hclosed⟩ := Option.bind_eq_some_iff.1 hinner
  have hsuffix := dropSuffix?_eq_some_iff.1 hclosed
  have htrim := dropPrefix?_eq_some_iff.1 hopened
  have hstarts : trim isWhitespace ('"' :: rest) <+: '"' :: rest := by
    rw [trim, List.dropWhile_cons_of_neg (by decide)]
    exact List.rdropWhile_prefix _ _
  rw [htrim, List.singleton_append, List.cons_prefix_cons] at hstarts
  refine h (hstarts.2.subset ?_)
  rw [hsuffix]
  simp

/-! ## Numbers -/

theorem toDigits_ne_nil (n : Nat) : Nat.toDigits 10 n ≠ [] := List.length_pos_iff.1 Nat.length_toDigits_pos

theorem parseDigits_toDigits (n : Nat) : parseDigits (Nat.toDigits 10 n) = some n := by
  have hall : (Nat.toDigits 10 n).all Char.isDigit = true :=
    List.all_eq_true.2 fun c hc => Nat.isDigit_of_mem_toDigits (by decide) (by decide) hc
  rw [parseDigits, if_pos ⟨toDigits_ne_nil n, hall⟩, Nat.ofDigitChars_ten_toDigits]

/-- Digits begin with none of the other characters that are looked for. -/
theorem dropPrefix?_toDigits {c : Char} (hc : c.isDigit = false) (rest : List Char) (n : Nat) :
    (Nat.toDigits 10 n).dropPrefix? (c :: rest) = none := by
  rw [Option.eq_none_iff_forall_not_mem]
  intro tail htail
  have hmem : c ∈ Nat.toDigits 10 n := by
    rw [dropPrefix?_eq_some_iff.1 htail]
    exact List.mem_cons_self
  rw [Nat.isDigit_of_mem_toDigits (by decide) (by decide) hmem] at hc
  cases hc

theorem parseU32_toDigits {n : Nat} (h : n < 2 ^ 32) : parseU32 (Nat.toDigits 10 n) = some n := by
  rw [parseU32, dropPrefix?_toDigits (by decide), Option.getD_none, parseDigits_toDigits]
  rw [Option.filter_some, if_pos (by simpa using h)]

theorem parseI64_writeInteger {value : Int} (h : -2 ^ 63 ≤ value ∧ value < 2 ^ 63) : parseI64 (writeInteger value) = some value := by
  unfold writeInteger parseI64
  by_cases hneg : value < 0
  · have hbound : decide (value.natAbs ≤ 2 ^ 63) = true := by rw [decide_eq_true_eq]; omega
    rw [if_pos hneg, ← List.singleton_append, dropPrefix?_append]
    dsimp only
    rw [parseDigits_toDigits, Option.filter_some, if_pos hbound, Option.map_some]
    congr 1
    omega
  · have hbound : decide (value.natAbs < 2 ^ 63) = true := by rw [decide_eq_true_eq]; omega
    rw [if_neg hneg, dropPrefix?_toDigits (by decide)]
    dsimp only
    rw [dropPrefix?_toDigits (by decide), Option.getD_none, parseDigits_toDigits, Option.filter_some, if_pos hbound,
      Option.map_some]
    congr 1
    omega

/-! ## Symbols, values and terms -/

theorem between_append (opening value : List Char) : between opening (opening ++ value ++ [')']) = some value := by
  rw [between, List.append_assoc, dropPrefix?_append, Option.bind_some, dropSuffix?_append]

theorem dropPrefix?_dollar (name : List Char) : ('$' :: name).dropPrefix? ['$'] = some name := dropPrefix?_append ['$'] name

theorem parseSymbol_write (symbol : QuerySymbol) : parseSymbol (writeSymbol symbol) = .ok symbol := by
  cases symbol with
  | parameter name =>
    have hname : (writeSymbol (.parameter name)).dropPrefix? ['$'] = some name.toList := dropPrefix?_dollar _
    rw [parseSymbol, hname]
    dsimp only
    rw [String.ofList_toList]
  | id value =>
    have hno : (writeSymbol (.id value)).dropPrefix? ['$'] = none := rfl
    have hin : between "symbol-id(".toList (writeSymbol (.id value)) = some (quoted value.asStr) := between_append _ _
    rw [parseSymbol, hno]
    dsimp only
    rw [hin]
    dsimp only
    rw [unquote_quoted]
    rfl
  | qualifiedName value =>
    have hno : (writeSymbol (.qualifiedName value)).dropPrefix? ['$'] = none := rfl
    have hid : between "symbol-id(".toList (writeSymbol (.qualifiedName value)) = none := rfl
    have hin : between "qualified-symbol(".toList (writeSymbol (.qualifiedName value)) = some (quoted value) := between_append _ _
    rw [parseSymbol, hno]
    dsimp only
    rw [hid]
    dsimp only
    rw [hin]
    dsimp only
    rw [unquote_quoted]
    rfl

theorem parseComponent_write (component : QueryComponent) : parseComponent (writeComponent component) = .ok component := by
  cases component with
  | parameter name =>
    have hname : (writeComponent (.parameter name)).dropPrefix? ['$'] = some name.toList := dropPrefix?_dollar _
    rw [parseComponent, hname]
    dsimp only
    rw [String.ofList_toList]
  | id value =>
    have hno : (writeComponent (.id value)).dropPrefix? ['$'] = none := rfl
    rw [parseComponent, hno]
    dsimp only
    rw [writeComponent, unquote_quoted]
    rfl

theorem parseString_write (start : QueryString) : parseString (writeString start) = .ok start := by
  cases start with
  | parameter name =>
    have hname : (writeString (.parameter name)).dropPrefix? ['$'] = some name.toList := dropPrefix?_dollar _
    rw [parseString, hname]
    dsimp only
    rw [String.ofList_toList]
  | literal value =>
    have hno : (writeString (.literal value)).dropPrefix? ['$'] = none := rfl
    rw [parseString, hno]
    dsimp only
    rw [writeString, unquote_quoted]
    rfl

/-- The kinds and languages with a spelling. -/
def PredicateSupported : QueryPredicate → Prop
  | .kind kind => kind ∈ [.class_, .interface, .method, .function]
  | .language language => language ∈ [.kotlin, .java]
  | _ => True

theorem parseKind_write {kind : SymbolKind} (h : kind ∈ [SymbolKind.class_, .interface, .method, .function]) :
    parseKind (writeKind kind) = .ok kind := by
  revert h
  cases kind <;> decide +kernel

theorem parseLanguage_write {language : Language} (h : language ∈ [Language.kotlin, .java]) :
    parseLanguage (writeLanguage language) = .ok language := by
  rcases List.mem_cons.1 h with rfl | h
  · decide +kernel
  · rw [List.mem_singleton.1 h]
    decide +kernel

/-- The left side of a term and what is on its right. -/
theorem splitOnce_term (left : List Char) (h : Clear " == ".toList left) (right : List Char) :
    splitOnce " == ".toList (left ++ " == ".toList ++ right) = some (left, right) := splitOnce_append (by decide) h right

theorem parsePredicate_write {predicate : QueryPredicate} (h : PredicateSupported predicate) :
    parsePredicate (writePredicate predicate) = .ok predicate := by
  cases predicate with
  | kind kind =>
    have hcut := splitOnce_term "kind".toList (by unfold Clear; decide) (writeKind kind)
    change (okOr (splitOnce " == ".toList ("kind".toList ++ " == ".toList ++ writeKind kind)) _ >>= _) = _
    rw [hcut, okOr_some, ok_bind]
    change (parseKind (writeKind kind)).map _ = _
    rw [parseKind_write h]
    rfl
  | language language =>
    have hcut := splitOnce_term "language".toList (by unfold Clear; decide) (writeLanguage language)
    change (okOr (splitOnce " == ".toList ("language".toList ++ " == ".toList ++ writeLanguage language)) _ >>= _) = _
    rw [hcut, okOr_some, ok_bind]
    change (parseLanguage (writeLanguage language)).map _ = _
    rw [parseLanguage_write h]
    rfl
  | component component =>
    have hcut := splitOnce_term "component".toList (by unfold Clear; decide) (writeComponent component)
    change (okOr (splitOnce " == ".toList ("component".toList ++ " == ".toList ++ writeComponent component)) _ >>= _) = _
    rw [hcut, okOr_some, ok_bind]
    change (parseComponent (writeComponent component)).map _ = _
    rw [parseComponent_write]
    rfl
  | qualifiedNamePrefix start =>
    have hcut := splitOnce_term "qualified-name-prefix".toList (by unfold Clear; decide) (writeString start)
    change (okOr (splitOnce " == ".toList ("qualified-name-prefix".toList ++ " == ".toList ++ writeString start)) _ >>= _) = _
    rw [hcut, okOr_some, ok_bind]
    change (parseString (writeString start)).map _ = _
    rw [parseString_write]
    rfl

/-- A literal is cut behind its opening quote. -/
theorem cut_in_literal {sep front tail a b : List Char} (hsep : sep ≠ []) (hquote : '"' ∉ sep) {value : String}
    (hvalue : '"' ∉ value.toList) (hfront : ¬ sep <:+: front) (htail : ¬ sep <:+: tail)
    (h : a ++ sep ++ b = front ++ quoted value ++ tail) : ∃ rest, a = front ++ '"' :: rest ∧ '"' ∉ rest := by
  have hquoted : front ++ quoted value ++ tail = front ++ '"' :: (value.toList ++ '"' :: tail) := by simp [quoted]
  obtain ⟨rest, rfl, hrest⟩ := cut_behind hsep hquote hfront (h.trans hquoted)
  refine ⟨rest, rfl, fun hmem => ?_⟩
  rcases List.append_eq_append_iff.1 (hrest.trans (List.append_assoc _ _ _)) with ⟨x, rfl, hx⟩ | ⟨x, heq, -⟩
  · cases x with
    | nil =>
      obtain ⟨d, sep', rfl⟩ := List.exists_cons_of_ne_nil hsep
      rw [List.nil_append, List.cons_append, List.cons.injEq] at hx
      exact hquote (hx.1 ▸ List.mem_cons_self)
    | cons d x =>
      rw [List.cons_append, List.cons.injEq] at hx
      exact htail ⟨x, b, by rw [hx.2, List.append_assoc]⟩
  · exact hvalue (heq ▸ List.mem_append_left _ hmem)

/-! ## Lists of terms -/

/-- What the term quotes. -/
def predicateLiteral : QueryPredicate → Option String
  | .component (.id value) => some value.asStr
  | .qualifiedNamePrefix (.literal value) => some value
  | _ => none

/-- A text on one line without a quote. -/
def SingleLine (value : String) : Prop := '\n' ∉ value.toList ∧ '"' ∉ value.toList

/-- The names of parameters are valid and literals stay on their line. -/
def PredicateWritable (predicate : QueryPredicate) : Prop :=
  PredicateSupported predicate ∧
    match predicate with
    | .component (.id value) => SingleLine value.asStr
    | .component (.parameter name) => validName name.toList = true
    | .qualifiedNamePrefix (.literal value) => SingleLine value
    | .qualifiedNamePrefix (.parameter name) => validName name.toList = true
    | _ => True

def andSep : List Char := " and ".toList

theorem clear_parameter (front : List Char) {name : List Char} (hfront : ¬ andSep <:+: front) (hname : validName name = true) :
    Clear andSep (front ++ '$' :: name) := by
  unfold Clear
  rw [List.append_assoc, List.cons_append, infix_append_cons_iff (by decide), not_or]
  refine ⟨hfront, fun hin => ?_⟩
  have hcount := hin.count_le ' '
  rw [List.count_append, List.count_eq_zero.2 (notMem_of_valid hname (by decide))] at hcount
  revert hcount
  decide

theorem clear_quoted_iff {front : List Char} (hfront : ¬ andSep <:+: front) (value : String) :
    Clear andSep (front ++ quoted value) ↔ ¬ andSep <:+: value.toList := by
  unfold Clear
  rw [quoted, List.append_assoc, List.cons_append, List.append_assoc, List.singleton_append, infix_append_cons_iff (by decide),
    infix_append_cons_iff (by decide), not_or, not_or]
  constructor
  · exact fun h => h.2.1
  · exact fun h => ⟨hfront, h, by decide⟩

/-- A term with a literal: what is before it, and that nothing reads it while the quote is open. -/
theorem predicate_of_literal {predicate : QueryPredicate} {value : String} (h : predicateLiteral predicate = some value) :
    ∃ front, writePredicate predicate = front ++ quoted value ∧ ¬ andSep <:+: front ∧
      ∀ rest, '"' ∉ rest → ∀ result, parsePredicate (front ++ '"' :: rest) ≠ .ok result := by
  have hno : ∀ rest : List Char, ('"' :: rest).dropPrefix? ['$'] = none := fun _ => rfl
  cases predicate with
  | kind kind => cases h
  | language language => cases h
  | component component =>
    cases component with
    | parameter name => cases h
    | id id =>
      cases h
      refine ⟨"component == ".toList, rfl, by decide, fun rest hrest result hok => ?_⟩
      obtain ⟨cut, hcut, hok⟩ := bind_eq_ok_iff.1 hok
      have hterm := splitOnce_term "component".toList (by unfold Clear; decide) ('"' :: rest)
      obtain rfl := Option.some.inj (hterm.symm.trans (okOr_eq_ok_iff.1 hcut))
      obtain ⟨_, hparsed, -⟩ := map_eq_ok_iff.1 hok
      dsimp only at hparsed
      rw [parseComponent, hno] at hparsed
      obtain ⟨literal, hliteral, -⟩ := map_eq_ok_iff.1 hparsed
      exact unquote_open hrest literal hliteral
  | qualifiedNamePrefix start =>
    cases start with
    | parameter name => cases h
    | literal literal =>
      cases h
      refine ⟨"qualified-name-prefix == ".toList, rfl, by decide, fun rest hrest result hok => ?_⟩
      obtain ⟨cut, hcut, hok⟩ := bind_eq_ok_iff.1 hok
      have hterm := splitOnce_term "qualified-name-prefix".toList (by unfold Clear; decide) ('"' :: rest)
      obtain rfl := Option.some.inj (hterm.symm.trans (okOr_eq_ok_iff.1 hcut))
      obtain ⟨_, hparsed, -⟩ := map_eq_ok_iff.1 hok
      dsimp only at hparsed
      rw [parseString, hno] at hparsed
      obtain ⟨literal, hliteral, -⟩ := map_eq_ok_iff.1 hparsed
      exact unquote_open hrest literal hliteral

/-- A term without a literal is clear. -/
theorem clear_of_no_literal {predicate : QueryPredicate} (h : PredicateWritable predicate) (hnone : predicateLiteral predicate = none) :
    Clear andSep (writePredicate predicate) := by
  obtain ⟨hsupported, hnames⟩ := h
  cases predicate with
  | kind kind =>
    have hkinds : ∀ kind ∈ [SymbolKind.class_, .interface, .method, .function], Clear andSep (writePredicate (.kind kind)) := by
      unfold Clear
      decide
    exact hkinds kind hsupported
  | language language =>
    have hlanguages : ∀ language ∈ [Language.kotlin, .java], Clear andSep (writePredicate (.language language)) := by
      unfold Clear
      decide
    exact hlanguages language hsupported
  | component component =>
    cases component with
    | id value => cases hnone
    | parameter name => exact clear_parameter "component == ".toList (by decide) hnames
  | qualifiedNamePrefix start =>
    cases start with
    | literal value => cases hnone
    | parameter name => exact clear_parameter "qualified-name-prefix == ".toList (by decide) hnames

theorem predicate_clear_iff {predicate : QueryPredicate} (h : PredicateWritable predicate) :
    Clear andSep (writePredicate predicate) ↔ ∀ value ∈ predicateLiteral predicate, ¬ andSep <:+: value.toList := by
  cases hliteral : predicateLiteral predicate with
  | none => exact iff_of_true (clear_of_no_literal h hliteral) (by simp)
  | some value =>
    obtain ⟨front, hwrite, hfront, -⟩ := predicate_of_literal hliteral
    rw [hwrite, clear_quoted_iff hfront]
    simp

/-- Where the separator stands in a term it stands in the literal. -/
theorem clear_of_not_within {predicate : QueryPredicate} (h : PredicateWritable predicate)
    (hin : ¬ andSep <:+: writePredicate predicate) : Clear andSep (writePredicate predicate) := by
  refine (predicate_clear_iff h).2 fun value hvalue hliteral => hin (hliteral.trans ?_)
  obtain ⟨front, hwrite, -⟩ := predicate_of_literal hvalue
  exact ⟨front ++ ['"'], ['"'], by simp [hwrite, quoted]⟩

theorem literal_singleLine {predicate : QueryPredicate} (h : PredicateWritable predicate) {value : String}
    (hvalue : predicateLiteral predicate = some value) : SingleLine value := by
  obtain ⟨-, hnames⟩ := h
  cases predicate with
  | kind kind => cases hvalue
  | language language => cases hvalue
  | component component =>
    cases component with
    | parameter name => cases hvalue
    | id id => cases hvalue; exact hnames
  | qualifiedNamePrefix start =>
    cases start with
    | parameter name => cases hvalue
    | literal literal => cases hvalue; exact hnames

/-- A term that was cut inside its literal is not read. -/
theorem parsePredicate_cut {predicate : QueryPredicate} (h : PredicateWritable predicate) {a b : List Char}
    (hcut : a ++ andSep ++ b = writePredicate predicate) (result : QueryPredicate) : parsePredicate a ≠ .ok result := by
  cases hliteral : predicateLiteral predicate with
  | none => exact absurd ⟨a, b, hcut⟩ (clear_of_no_literal h hliteral).not_within
  | some value =>
    obtain ⟨front, hwrite, hfront, hunread⟩ := predicate_of_literal hliteral
    have heq : a ++ andSep ++ b = front ++ quoted value ++ [] := by rw [hcut, hwrite, List.append_nil]
    obtain ⟨rest, rfl, hrest⟩ :=
      cut_in_literal (by decide) (by decide) (literal_singleLine h hliteral).2 hfront (by decide) heq
    exact hunread rest hrest result

/-- No literal of a `where` line has the separator of the terms in it. -/
def TermsSeparable (predicates : List QueryPredicate) : Prop :=
  ∀ predicate ∈ predicates, ∀ value ∈ predicateLiteral predicate, ¬ andSep <:+: value.toList

theorem parsePredicates_write {predicates : List QueryPredicate} (hne : predicates ≠ [])
    (h : ∀ predicate ∈ predicates, PredicateWritable predicate) (hseparable : TermsSeparable predicates) :
    parsePredicates (andSep.intercalate (predicates.map writePredicate)) = .ok predicates := by
  have hclear : ∀ piece ∈ predicates.map writePredicate, Clear andSep piece :=
    List.forall_mem_map.2 fun predicate hmem => (predicate_clear_iff (h predicate hmem)).2 (hseparable predicate hmem)
  rw [parsePredicates]
  change (split andSep _).mapM _ = _
  rw [split_intercalate (by decide) (by simpa using hne) hclear]
  exact mapM_map_eq_ok_self_iff.2 fun predicate hmem => parsePredicate_write (h predicate hmem).1

theorem termsSeparable_of_ok {predicates result : List QueryPredicate} (h : ∀ predicate ∈ predicates, PredicateWritable predicate)
    (hok : parsePredicates (andSep.intercalate (predicates.map writePredicate)) = .ok result) : TermsSeparable predicates := by
  intro predicate hmem value hvalue hin
  have hclear : ∀ piece ∈ predicates.map writePredicate, ¬ andSep <:+: piece → Clear andSep piece :=
    List.forall_mem_map.2 fun predicate hmem => clear_of_not_within (h predicate hmem)
  have hpiece : ∃ piece ∈ predicates.map writePredicate, andSep <:+: piece := by
    refine ⟨_, List.mem_map_of_mem hmem, ?_⟩
    by_contra hnot
    exact (predicate_clear_iff (h predicate hmem)).1 (clear_of_not_within (h predicate hmem) hnot) value hvalue hin
  obtain ⟨a, b, hab, -, ha⟩ := exists_cut (by decide) hclear hpiece
  obtain ⟨cut, hcutmem, hcut⟩ := List.mem_map.1 hab
  obtain ⟨term, -, hterm⟩ := forall₂_exists_mem (mapM_eq_ok_iff.1 hok) ha
  exact parsePredicate_cut (h cut hcutmem) hcut.symm term hterm

/-! ## Lists between commas -/

/-- A comma and a space separate like a comma, with the space at the next piece. -/
theorem intercalate_comma_space (piece : List Char) (pieces : List (List Char)) :
    ", ".toList.intercalate (piece :: pieces) = [','].intercalate (piece :: pieces.map (' ' :: ·)) := by
  induction pieces generalizing piece with
  | nil => simp [List.intercalate]
  | cons next pieces ih =>
    rw [intercalate_cons (List.cons_ne_nil _ _), ih, List.map_cons, intercalate_cons (List.cons_ne_nil _ _)]
    cases pieces with
    | nil => simp [List.intercalate]
    | cons other pieces =>
      rw [List.map_cons, intercalate_cons (List.cons_ne_nil _ _), intercalate_cons (List.cons_ne_nil _ _)]
      simp

section
variable {α : Type} {f : List Char → Except ProjectQueryError α} {g : α → List Char} {values : List α}

/-- Pieces without a comma are read back, whether or not a space stands before them. -/
theorem mapM_comma (hspace : ∀ piece, f (' ' :: piece) = f piece) (hne : values ≠ []) (hcomma : ∀ value ∈ values, ',' ∉ g value)
    (hread : ∀ value ∈ values, f (g value) = .ok value) :
    (split [','] (", ".toList.intercalate (values.map g))).mapM f = .ok values := by
  obtain ⟨first, rest, rfl⟩ := List.exists_cons_of_ne_nil hne
  obtain ⟨hfirst, hrest⟩ := List.forall_mem_cons.1 hcomma
  have hclear : ∀ piece ∈ g first :: (rest.map g).map (' ' :: ·), Clear [','] piece := by
    refine List.forall_mem_cons.2 ⟨clear_singleton_iff.2 hfirst, ?_⟩
    rw [List.map_map]
    refine List.forall_mem_map.2 fun value hvalue => clear_singleton_iff.2 ?_
    simpa using hrest value hvalue
  rw [List.map_cons, intercalate_comma_space, split_intercalate (by decide) (List.cons_ne_nil _ _) hclear, mapM_eq_ok_iff]
  refine .cons (hread first List.mem_cons_self) ?_
  rw [List.map_map, List.forall₂_map_left_iff, List.forall₂_same]
  exact fun value hvalue => (hspace _).trans (hread value (List.mem_cons_of_mem _ hvalue))

/-- A piece that is cut at a comma is read on its own. -/
theorem exists_comma_cut (hspace : ∀ piece, f (' ' :: piece) = f piece) {results : List α}
    (hok : (split [','] (", ".toList.intercalate (values.map g))).mapM f = .ok results) (hin : ∃ value ∈ values, ',' ∈ g value) :
    ∃ value ∈ values, ∃ a b result, a ++ [','] ++ b = g value ∧ f a = .ok result := by
  obtain ⟨bad, hbad, hcomma⟩ := hin
  obtain ⟨first, rest, rfl⟩ := List.exists_cons_of_ne_nil (List.ne_nil_of_mem hbad)
  rw [List.map_cons, intercalate_comma_space] at hok
  have hpiece : ∃ piece ∈ g first :: (rest.map g).map (' ' :: ·), [','] <:+: piece := by
    rcases List.mem_cons.1 hbad with rfl | hbad
    · exact ⟨_, List.mem_cons_self, (List.singleton_infix_iff _ _).2 hcomma⟩
    · refine ⟨' ' :: g bad, List.mem_cons_of_mem _ (List.mem_map_of_mem (List.mem_map_of_mem hbad)), ?_⟩
      exact (List.singleton_infix_iff _ _).2 (List.mem_cons_of_mem _ hcomma)
  obtain ⟨a, b, hab, -, ha⟩ := exists_cut (List.cons_ne_nil ',' [])
    (fun piece _ hnot => clear_singleton_iff.2 fun hmem => hnot ((List.singleton_infix_iff _ _).2 hmem)) hpiece
  obtain ⟨result, -, hresult⟩ := forall₂_exists_mem (mapM_eq_ok_iff.1 hok) ha
  rcases List.mem_cons.1 hab with heq | hab
  · exact ⟨first, List.mem_cons_self, a, b, result, heq, hresult⟩
  · rw [List.map_map] at hab
    obtain ⟨value, hvalue, heq⟩ := List.mem_map.1 hab
    cases a with
    | nil => simp at heq
    | cons c a =>
      simp only [Function.comp_apply, List.cons_append, List.cons.injEq] at heq
      obtain ⟨rfl, heq⟩ := heq
      exact ⟨value, List.mem_cons_of_mem _ hvalue, a, b, result, heq.symm, (hspace a).symm.trans hresult⟩

end

/-! ## Arguments -/

def valueLiteral : QueryCapabilityValue → Option String
  | .symbolId value => some value.asStr
  | .componentId value => some value.asStr
  | .string value => some value
  | _ => none

def ValueWritable : QueryCapabilityValue → Prop
  | .parameter name => validName name.toList = true
  | .integer value => -2 ^ 63 ≤ value ∧ value < 2 ^ 63
  | .symbolId value => SingleLine value.asStr
  | .componentId value => SingleLine value.asStr
  | .string value => SingleLine value

def ArgumentWritable (argument : QueryCapabilityArgument) : Prop :=
  validName argument.name.toList = true ∧ '.' ∉ argument.name.toList ∧ ValueWritable argument.value

/-- An integer begins with a digit or a minus. -/
theorem dropPrefix?_writeInteger {c : Char} (hdigit : c.isDigit = false) (hminus : c ≠ '-') (rest : List Char) (value : Int) :
    (writeInteger value).dropPrefix? (c :: rest) = none := by
  unfold writeInteger
  split
  · rw [Option.eq_none_iff_forall_not_mem]
    intro tail htail
    exact hminus (List.cons.inj (dropPrefix?_eq_some_iff.1 htail)).1.symm
  · exact dropPrefix?_toDigits hdigit rest _

theorem parseCapabilityValue_write {value : QueryCapabilityValue} (h : ValueWritable value) :
    parseCapabilityValue (writeCapabilityValue value) = .ok value := by
  cases value with
  | parameter name =>
    have hname : (writeCapabilityValue (.parameter name)).dropPrefix? ['$'] = some name.toList := dropPrefix?_dollar _
    rw [parseCapabilityValue, hname]
    dsimp only
    rw [String.ofList_toList]
  | symbolId value =>
    have hno : (writeCapabilityValue (.symbolId value)).dropPrefix? ['$'] = none := rfl
    have hin : between "symbol-id(".toList (writeCapabilityValue (.symbolId value)) = some (quoted value.asStr) := between_append _ _
    rw [parseCapabilityValue, hno]
    dsimp only
    rw [hin]
    dsimp only
    rw [unquote_quoted]
    rfl
  | componentId value =>
    have hno : (writeCapabilityValue (.componentId value)).dropPrefix? ['$'] = none := rfl
    have hid : between "symbol-id(".toList (writeCapabilityValue (.componentId value)) = none := rfl
    have hin : between "component-id(".toList (writeCapabilityValue (.componentId value)) = some (quoted value.asStr) :=
      between_append _ _
    rw [parseCapabilityValue, hno]
    dsimp only
    rw [hid]
    dsimp only
    rw [hin]
    dsimp only
    rw [unquote_quoted]
    rfl
  | string value =>
    have hno : (writeCapabilityValue (.string value)).dropPrefix? ['$'] = none := rfl
    have hid : between "symbol-id(".toList (writeCapabilityValue (.string value)) = none := rfl
    have hcomponent : between "component-id(".toList (writeCapabilityValue (.string value)) = none := rfl
    have hquote : ['"'] <+: writeCapabilityValue (.string value) := ⟨_, rfl⟩
    have hunquote : unquote (writeCapabilityValue (.string value)) = .ok value := unquote_quoted value
    rw [parseCapabilityValue, hno]
    dsimp only
    rw [hid]
    dsimp only
    rw [hcomponent]
    dsimp only
    rw [if_pos hquote, hunquote]
    rfl
  | integer value =>
    have hno : (writeInteger value).dropPrefix? ['$'] = none := dropPrefix?_writeInteger (by decide) (by decide) _ _
    have hid : between "symbol-id(".toList (writeInteger value) = none := by
      rw [between]
      change ((writeInteger value).dropPrefix? ('s' :: "ymbol-id(".toList)).bind _ = _
      rw [dropPrefix?_writeInteger (by decide) (by decide)]
      rfl
    have hcomponent : between "component-id(".toList (writeInteger value) = none := by
      rw [between]
      change ((writeInteger value).dropPrefix? ('c' :: "omponent-id(".toList)).bind _ = _
      rw [dropPrefix?_writeInteger (by decide) (by decide)]
      rfl
    have hquote : ¬ ['"'] <+: writeInteger value := by
      rintro ⟨rest, hrest⟩
      have hnone := dropPrefix?_writeInteger (c := '"') (by decide) (by decide) [] value
      rw [dropPrefix?_eq_some_iff.2 hrest.symm] at hnone
      cases hnone
    have hwrite : writeCapabilityValue (.integer value) = writeInteger value := rfl
    rw [hwrite, parseCapabilityValue, hno]
    dsimp only
    rw [hid]
    dsimp only
    rw [hcomponent]
    dsimp only
    rw [if_neg hquote, parseI64_writeInteger h]
    rfl

theorem writeInteger_no_space (value : Int) : writeInteger value ≠ [] ∧ ∀ c ∈ writeInteger value, c = '-' ∨ c.isDigit = true := by
  unfold writeInteger
  split
  · refine ⟨List.cons_ne_nil _ _, fun c hc => ?_⟩
    rcases List.mem_cons.1 hc with rfl | hc
    · exact .inl rfl
    · exact .inr (Nat.isDigit_of_mem_toDigits (by decide) (by decide) hc)
  · exact ⟨toDigits_ne_nil _, fun c hc => .inr (Nat.isDigit_of_mem_toDigits (by decide) (by decide) hc)⟩

theorem digit_not_whitespace {c : Char} (h : c.isDigit = true) : isWhitespace c = false := by
  have hname : nameChar c = true := by simp [nameChar, h]
  rcases nameChar_code hname with hcode | hcode | hcode
  · exact WordChar.not_whitespace (.inl hcode)
  · exact WordChar.not_whitespace (.inr (.inr (.inl hcode)))
  · exact WordChar.not_whitespace (.inr (.inr (.inr hcode)))

theorem value_ends {value : QueryCapabilityValue} (h : ValueWritable value) :
    Starts isWhitespace (writeCapabilityValue value) ∧ Stops isWhitespace (writeCapabilityValue value) := by
  cases value with
  | parameter name =>
    obtain ⟨hne, hchars⟩ := validName_chars h
    exact ⟨⟨'$', _, rfl, by decide⟩, (stops_of_forall hne fun c hc => (hchars c hc).not_whitespace).append ['$']⟩
  | symbolId value => exact ⟨⟨'s', _, rfl, by decide⟩, ⟨_, ')', rfl, by decide⟩⟩
  | componentId value => exact ⟨⟨'c', _, rfl, by decide⟩, ⟨_, ')', rfl, by decide⟩⟩
  | string value => exact ⟨quoted_starts value, quoted_stops value⟩
  | integer value =>
    obtain ⟨hne, hchars⟩ := writeInteger_no_space value
    have hspace : ∀ c ∈ writeInteger value, isWhitespace c = false := fun c hc => by
      rcases hchars c hc with rfl | hdigit
      · decide
      · exact digit_not_whitespace hdigit
    exact ⟨starts_of_forall hne hspace, stops_of_forall hne hspace⟩

theorem valid_starts {name : List Char} (h : validName name = true) : Starts isWhitespace name :=
  starts_of_forall (validName_chars h).1 fun c hc => ((validName_chars h).2 c hc).not_whitespace

/-- The name and the value of an argument. -/
theorem splitOnce_argument {name : List Char} (h : validName name = true) (value : List Char) :
    splitOnce ['='] (name ++ '=' :: value) = some (name, value) := by
  have hcut := splitOnce_append (List.cons_ne_nil '=' []) (clear_singleton_iff.2 (notMem_of_valid h (by decide))) value
  rwa [List.append_assoc] at hcut

theorem parseCapabilityArgument_write {argument : QueryCapabilityArgument} (h : ArgumentWritable argument) :
    parseCapabilityArgument (writeArgument argument) = .ok argument := by
  obtain ⟨hname, hdot, hvalue⟩ := h
  obtain ⟨hstarts, hstops⟩ := value_ends hvalue
  have htrim : trim isWhitespace (writeArgument argument) = argument.name.toList ++ '=' :: writeCapabilityValue argument.value :=
    trim_eq_self ((valid_starts hname).append _) (by
      rw [writeArgument, ← List.singleton_append, ← List.append_assoc]
      exact hstops.append _)
  have hchecked : ¬ (validName argument.name.toList = false ∨ '.' ∈ argument.name.toList) := by simp [hname, hdot]
  rw [parseCapabilityArgument, htrim, splitOnce_argument hname, okOr_some, ok_bind]
  dsimp only
  rw [trim_of_valid hname, (reject_eq_ok_iff (u := ())).2 hchecked, ok_bind, trim_eq_self hstarts hstops, parseCapabilityValue_write hvalue,
    ok_bind, String.ofList_toList]

theorem parseCapabilityArgument_space (piece : List Char) : parseCapabilityArgument (' ' :: piece) = parseCapabilityArgument piece := by
  rw [parseCapabilityArgument, trim_cons_of_pos _ (by decide), parseCapabilityArgument]

/-- A literal between parentheses whose quote is open. -/
theorem between_open {opening rest inner : List Char} (hrest : '"' ∉ rest) (h : between opening (opening ++ '"' :: rest) = some inner)
    (value : String) : unquote inner ≠ .ok value := by
  rw [between, dropPrefix?_append, Option.bind_some] at h
  have hinner := dropSuffix?_eq_some_iff.1 h
  cases inner with
  | nil => simp at hinner
  | cons c inner =>
    rw [List.cons_append, List.cons.injEq] at hinner
    obtain ⟨rfl, rfl⟩ := hinner
    exact unquote_open (fun hmem => hrest (List.mem_append_left _ hmem)) value

/-- No number has a letter in it. -/
theorem parseI64_letter {c : Char} (hdigit : c.isDigit = false) (hminus : c ≠ '-') (hplus : c ≠ '+') (rest : List Char) :
    parseI64 (c :: rest) = none := by
  have hnone : ∀ d : Char, c ≠ d → (c :: rest).dropPrefix? [d] = none := by
    intro d hd
    rw [Option.eq_none_iff_forall_not_mem]
    intro tail htail
    exact hd (List.cons.inj (dropPrefix?_eq_some_iff.1 htail)).1
  rw [parseI64, hnone '-' hminus]
  dsimp only
  rw [hnone '+' hplus, Option.getD_none, parseDigits, if_neg (by simp [hdigit])]
  rfl

/-- A value with a literal: what is around it, and that nothing reads it while the quote is open. -/
theorem value_of_literal {value : QueryCapabilityValue} {literal : String} (h : valueLiteral value = some literal) :
    ∃ front tail, writeCapabilityValue value = front ++ quoted literal ++ tail ∧ ',' ∉ front ∧ ',' ∉ tail ∧
      (∀ rest, Starts isWhitespace (front ++ '"' :: rest)) ∧
      ∀ rest, '"' ∉ rest → ∀ result, parseCapabilityValue (front ++ '"' :: rest) ≠ .ok result := by
  cases value with
  | parameter name => cases h
  | integer value => cases h
  | string value =>
    cases h
    refine ⟨[], [], ?_, by simp, by simp, fun rest => ⟨'"', rest, rfl, by decide⟩, ?_⟩
    · rw [List.nil_append, List.append_nil]
      rfl
    intro rest hrest result hok
    have hno : ('"' :: rest).dropPrefix? ['$'] = none := rfl
    have hid : between "symbol-id(".toList ('"' :: rest) = none := rfl
    have hcomponent : between "component-id(".toList ('"' :: rest) = none := rfl
    rw [List.nil_append, parseCapabilityValue, hno] at hok
    dsimp only at hok
    rw [hid] at hok
    dsimp only at hok
    rw [hcomponent] at hok
    dsimp only at hok
    rw [if_pos ⟨rest, rfl⟩] at hok
    obtain ⟨inner, hinner, -⟩ := map_eq_ok_iff.1 hok
    exact unquote_open hrest inner hinner
  | symbolId value =>
    cases h
    refine ⟨"symbol-id(".toList, [')'], rfl, by decide, by decide, fun rest => ⟨'s', _, rfl, by decide⟩, ?_⟩
    intro rest hrest result hok
    have hno : ("symbol-id(".toList ++ '"' :: rest).dropPrefix? ['$'] = none := rfl
    have hcomponent : between "component-id(".toList ("symbol-id(".toList ++ '"' :: rest) = none := rfl
    have hquote : ¬ ['"'] <+: "symbol-id(".toList ++ '"' :: rest := fun h => absurd (List.cons_prefix_cons.1 h).1 (by decide)
    have hnumber : parseI64 ("symbol-id(".toList ++ '"' :: rest) = none :=
      parseI64_letter (c := 's') (by decide) (by decide) (by decide) _
    rw [parseCapabilityValue, hno] at hok
    dsimp only at hok
    cases hid : between "symbol-id(".toList ("symbol-id(".toList ++ '"' :: rest) with
    | some inner =>
      rw [hid] at hok
      obtain ⟨value, hvalue, -⟩ := map_eq_ok_iff.1 hok
      exact between_open hrest hid value hvalue
    | none =>
      rw [hid] at hok
      dsimp only at hok
      rw [hcomponent] at hok
      dsimp only at hok
      rw [if_neg hquote, hnumber] at hok
      cases hok
  | componentId value =>
    cases h
    refine ⟨"component-id(".toList, [')'], rfl, by decide, by decide, fun rest => ⟨'c', _, rfl, by decide⟩, ?_⟩
    intro rest hrest result hok
    have hno : ("component-id(".toList ++ '"' :: rest).dropPrefix? ['$'] = none := rfl
    have hid : between "symbol-id(".toList ("component-id(".toList ++ '"' :: rest) = none := rfl
    have hquote : ¬ ['"'] <+: "component-id(".toList ++ '"' :: rest := fun h => absurd (List.cons_prefix_cons.1 h).1 (by decide)
    have hnumber : parseI64 ("component-id(".toList ++ '"' :: rest) = none :=
      parseI64_letter (c := 'c') (by decide) (by decide) (by decide) _
    rw [parseCapabilityValue, hno] at hok
    dsimp only at hok
    rw [hid] at hok
    dsimp only at hok
    cases hcomponent : between "component-id(".toList ("component-id(".toList ++ '"' :: rest) with
    | some inner =>
      rw [hcomponent] at hok
      obtain ⟨value, hvalue, -⟩ := map_eq_ok_iff.1 hok
      exact between_open hrest hcomponent value hvalue
    | none =>
      rw [hcomponent] at hok
      dsimp only at hok
      rw [if_neg hquote, hnumber] at hok
      cases hok

theorem value_singleLine {value : QueryCapabilityValue} (h : ValueWritable value) {literal : String}
    (hliteral : valueLiteral value = some literal) : SingleLine literal := by
  cases value with
  | parameter name => cases hliteral
  | integer value => cases hliteral
  | symbolId value => cases hliteral; exact h
  | componentId value => cases hliteral; exact h
  | string value => cases hliteral; exact h

theorem argument_comma_iff {argument : QueryCapabilityArgument} (h : ArgumentWritable argument) :
    ',' ∉ writeArgument argument ↔ ∀ literal ∈ valueLiteral argument.value, ',' ∉ literal.toList := by
  obtain ⟨hname, -, hvalue⟩ := h
  have hnot : ',' ∉ argument.name.toList := notMem_of_valid hname (by decide)
  rw [writeArgument, List.mem_append, List.mem_cons, not_or, not_or]
  cases hliteral : valueLiteral argument.value with
  | some literal =>
    obtain ⟨front, tail, hwrite, hfront, htail, -⟩ := value_of_literal hliteral
    rw [hwrite]
    simp [hnot, hfront, htail, quoted]
  | none =>
    refine iff_of_true ⟨hnot, by decide, ?_⟩ (by simp)
    cases hargument : argument.value with
    | parameter name =>
      rw [hargument] at hvalue
      have hparameter := notMem_of_valid (c := ',') hvalue (by decide)
      change ',' ∉ '$' :: name.toList
      simpa using hparameter
    | integer value =>
      intro hmem
      rcases (writeInteger_no_space value).2 ',' hmem with hminus | hdigit
      · cases hminus
      · cases hdigit
    | symbolId value => rw [hargument] at hliteral; cases hliteral
    | componentId value => rw [hargument] at hliteral; cases hliteral
    | string value => rw [hargument] at hliteral; cases hliteral

/-- An argument that was cut inside its literal is not read. -/
theorem parseCapabilityArgument_cut {argument : QueryCapabilityArgument} (h : ArgumentWritable argument) {a b : List Char}
    (hcut : a ++ [','] ++ b = writeArgument argument) (result : QueryCapabilityArgument) : parseCapabilityArgument a ≠ .ok result := by
  cases hliteral : valueLiteral argument.value with
  | none =>
    refine absurd ?_ ((argument_comma_iff h).2 (by simp [hliteral]))
    rw [← hcut]
    simp
  | some literal =>
    obtain ⟨hname, hdot, hvalue⟩ := h
    obtain ⟨front, tail, hwrite, hfront, htail, hstarts, hunread⟩ := value_of_literal hliteral
    have hcomma : ¬ [','] <:+: argument.name.toList ++ '=' :: front := by
      rw [List.singleton_infix_iff]
      simp [notMem_of_valid (c := ',') hname (by decide), hfront]
    have heq : a ++ [','] ++ b = (argument.name.toList ++ '=' :: front) ++ quoted literal ++ tail := by
      rw [hcut, writeArgument, hwrite]
      simp
    obtain ⟨rest, rfl, hrest⟩ := cut_in_literal (List.cons_ne_nil _ _) (by decide) (value_singleLine hvalue hliteral).2 hcomma
      (by rwa [List.singleton_infix_iff]) heq
    have hopen : ∀ rest : List Char, '"' ∉ rest → '"' ∉ rest.rdropWhile isWhitespace := fun rest hrest hmem =>
      hrest ((List.rdropWhile_prefix _ rest).subset hmem)
    intro hok
    obtain ⟨cut, hsplit, hok⟩ := bind_eq_ok_iff.1 hok
    rw [okOr_eq_ok_iff, trim_of_starts (((valid_starts hname).append _).append _), rdropWhile_append_cons (by decide), List.append_assoc,
      List.cons_append, splitOnce_argument hname] at hsplit
    cases hsplit
    obtain ⟨_, -, hok⟩ := bind_eq_ok_iff.1 hok
    obtain ⟨value, hparsed, -⟩ := bind_eq_ok_iff.1 hok
    rw [trim_of_starts (hstarts _), rdropWhile_append_cons (by decide)] at hparsed
    exact hunread _ (hopen _ (hopen _ hrest)) value hparsed

/-- No literal of an argument has a comma in it. -/
def ArgumentsSeparable (step : QueryCapabilityStep) : Prop :=
  ∀ argument ∈ step.arguments, ∀ literal ∈ valueLiteral argument.value, ',' ∉ literal.toList

def StepWritable (step : QueryCapabilityStep) : Prop :=
  validName step.name.toList = true ∧ ∀ argument ∈ step.arguments, ArgumentWritable argument

/-- The arguments of a step between its parentheses. -/
def writeArguments (arguments : List QueryCapabilityArgument) : List Char := ", ".toList.intercalate (arguments.map writeArgument)

theorem trim_writeArguments {arguments : List QueryCapabilityArgument} (hne : arguments ≠ [])
    (h : ∀ argument ∈ arguments, ArgumentWritable argument) : trim isWhitespace (writeArguments arguments) ≠ [] := by
  refine trim_ne_nil (Starts.intercalate (by simpa using hne) (List.forall_mem_map.2 fun argument hmem => ?_))
  exact (valid_starts (h argument hmem).1).append _

theorem splitOnce_step {name : List Char} (h : validName name = true) (rest : List Char) :
    splitOnce ['('] (name ++ '(' :: rest) = some (name, rest) := by
  have hcut := splitOnce_append (List.cons_ne_nil '(' []) (clear_singleton_iff.2 (notMem_of_valid h (by decide))) rest
  rwa [List.append_assoc] at hcut

/-- A step is what its name and its arguments are. -/
theorem parseCapabilityStep_eq {name : List Char} (h : validName name = true) (arguments : List Char) :
    parseCapabilityStep (name ++ '(' :: (arguments ++ [')'])) =
      (parseCapabilityArguments arguments).map fun arguments => ⟨String.ofList name, arguments⟩ := by
  rw [parseCapabilityStep, splitOnce_step h, okOr_some, ok_bind]
  dsimp only
  rw [dropSuffix?_append, okOr_some, ok_bind, (reject_eq_ok_iff (u := ())).2 (by simp [h]), ok_bind]
  cases parseCapabilityArguments arguments <;> rfl

theorem parseCapabilityArguments_write {step : QueryCapabilityStep} (h : StepWritable step) (hseparable : ArgumentsSeparable step) :
    parseCapabilityArguments (writeArguments step.arguments) = .ok step.arguments := by
  unfold parseCapabilityArguments
  by_cases hne : step.arguments = []
  · rw [hne]
    rfl
  · rw [if_neg (trim_writeArguments hne h.2)]
    exact mapM_comma parseCapabilityArgument_space hne
      (fun argument hmem => (argument_comma_iff (h.2 argument hmem)).2 (hseparable argument hmem))
      fun argument hmem => parseCapabilityArgument_write (h.2 argument hmem)

theorem argumentsSeparable_of_ok {step : QueryCapabilityStep} (h : StepWritable step) {result : List QueryCapabilityArgument}
    (hok : parseCapabilityArguments (writeArguments step.arguments) = .ok result) : ArgumentsSeparable step := by
  intro argument hmem literal hliteral hcomma
  unfold parseCapabilityArguments at hok
  rw [if_neg (trim_writeArguments (List.ne_nil_of_mem hmem) h.2)] at hok
  have hin : ∃ argument ∈ step.arguments, ',' ∈ writeArgument argument := by
    refine ⟨argument, hmem, ?_⟩
    by_contra hnot
    exact (argument_comma_iff (h.2 argument hmem)).1 hnot literal hliteral hcomma
  obtain ⟨cut, hcutmem, a, b, value, hcut, hvalue⟩ := exists_comma_cut parseCapabilityArgument_space hok hin
  exact parseCapabilityArgument_cut (h.2 cut hcutmem) hcut value hvalue

end ProjectQuery

end Kide
