import Kide.Query.ProjectQueryRoundTrip

/-!
# The law of written queries

The header and the statements of a written query, its lines in its text, and `parse_write_iff`.

The loop over the statements adds what each line says (`parseStatement_from`, `parseStatement_where`, …). A line that is
not read in any state is found in the loop by `exists_of_foldlM_eq_ok`.
-/

namespace Kide
open Checks Splits Unicode

namespace ProjectQuery

/-! ## The header -/

def ParameterWritable (parameter : QueryParameter) : Prop :=
  validName parameter.name.toList = true ∧ '.' ∉ parameter.name.toList

theorem parseParameterType_write (ty : QueryParameterType) : parseParameterType (writeParameterType ty) = .ok ty := by
  cases ty <;> decide +kernel

theorem parameterType_chars (ty : QueryParameterType) : writeParameterType ty ≠ [] ∧ ∀ c ∈ writeParameterType ty, WordChar c := by
  have hall : (writeParameterType ty).all (fun c => decide (WordChar c)) = true := by cases ty <;> decide
  exact ⟨by cases ty <;> decide, fun c hc => of_decide_eq_true (List.all_eq_true.1 hall c hc)⟩

theorem parameterType_ends (ty : QueryParameterType) :
    Starts isWhitespace (writeParameterType ty) ∧ Stops isWhitespace (writeParameterType ty) := by
  obtain ⟨hne, hchars⟩ := parameterType_chars ty
  have hspace : ∀ c ∈ writeParameterType ty, isWhitespace c = false := fun c hc => (hchars c hc).not_whitespace
  exact ⟨starts_of_forall hne hspace, stops_of_forall hne hspace⟩

theorem parseParameter_write {parameter : QueryParameter} (h : ParameterWritable parameter) :
    parseParameter (writeParameter parameter) = .ok parameter := by
  obtain ⟨hname, hdot⟩ := h
  obtain ⟨hstarts, hstops⟩ := parameterType_ends parameter.ty
  have hwrite : writeParameter parameter = parameter.name.toList ++ [':'] ++ ' ' :: writeParameterType parameter.ty := by
    simp [writeParameter]
  have htrim : trim isWhitespace (writeParameter parameter) = writeParameter parameter :=
    trim_eq_self (((valid_starts hname).append _).append _) (hstops.append _)
  have hcut : splitOnce [':'] (writeParameter parameter) = some (parameter.name.toList, ' ' :: writeParameterType parameter.ty) := by
    rw [hwrite]
    exact splitOnce_append (List.cons_ne_nil _ _) (clear_singleton_iff.2 (notMem_of_valid hname (by decide))) _
  have hchecked : ¬ (validName parameter.name.toList = false ∨ '.' ∈ parameter.name.toList) := by simp [hname, hdot]
  rw [parseParameter, htrim, hcut, okOr_some, ok_bind]
  dsimp only
  rw [trim_of_valid hname, (reject_eq_ok_iff (u := ())).2 hchecked, ok_bind, trim_cons_of_pos _ (by decide),
    trim_eq_self hstarts hstops, parseParameterType_write, ok_bind, String.ofList_toList]

theorem parseParameter_space (piece : List Char) : parseParameter (' ' :: piece) = parseParameter piece := by
  rw [parseParameter, trim_cons_of_pos _ (by decide), parseParameter]

theorem notMem_writeParameter {parameter : QueryParameter} (h : ParameterWritable parameter) {c : Char} (hc : ¬ WordChar c)
    (hsep : c ∉ ": ".toList) : c ∉ writeParameter parameter := by
  rw [writeParameter, List.mem_append, List.mem_append]
  rintro ((hname | hbetween) | hty)
  · exact notMem_of_valid h.1 hc hname
  · exact hsep hbetween
  · exact hc ((parameterType_chars parameter.ty).2 c hty)

theorem parseParameters_write {parameters : List QueryParameter} (h : ∀ parameter ∈ parameters, ParameterWritable parameter) :
    parseParameters (", ".toList.intercalate (parameters.map writeParameter)) = .ok parameters := by
  unfold parseParameters
  by_cases hne : parameters = []
  · rw [hne]
    rfl
  · have hstarts : Starts isWhitespace (", ".toList.intercalate (parameters.map writeParameter)) :=
      Starts.intercalate (by simpa using hne) (List.forall_mem_map.2 fun parameter hmem =>
        ((valid_starts (h parameter hmem).1).append _).append _)
    rw [if_neg (trim_ne_nil hstarts)]
    exact mapM_comma parseParameter_space hne (fun parameter hmem => notMem_writeParameter (h parameter hmem) (by decide) (by decide))
      fun parameter hmem => parseParameter_write (h parameter hmem)

theorem parseHeader_write {query : ProjectQuery} (hname : validName query.name.toList = true)
    (hparameters : ∀ parameter ∈ query.parameters, ParameterWritable parameter) :
    parseHeader (writeHeader query) = .ok (query.name, query.parameters) := by
  have hassoc : ∀ start name inner : List Char, start ++ name ++ '(' :: (inner ++ [')', ' ', Char.ofNat 0x7b]) =
      start ++ (name ++ '(' :: (inner ++ [')']) ++ [' ', Char.ofNat 0x7b]) := by simp
  have hwrite : writeHeader query = "command ".toList ++
      (query.name.toList ++ '(' :: (", ".toList.intercalate (query.parameters.map writeParameter) ++ [')']) ++
        [' ', Char.ofNat 0x7b]) := hassoc _ _ _
  rw [parseHeader, hwrite, dropPrefix?_append, Option.bind_some, dropSuffix?_append, okOr_some, ok_bind, splitOnce_step hname,
    okOr_some, ok_bind]
  dsimp only
  rw [dropSuffix?_append, okOr_some, ok_bind, (reject_eq_ok_iff (u := ())).2 (by simp [hname]), ok_bind,
    parseParameters_write hparameters, ok_bind, String.ofList_toList]

/-! ## The statements -/

/-- How a start is spelled. -/
def relationOf : QueryFrom → String × QuerySymbol
  | .appliedSymbol symbol => ("applies", symbol)
  | .subtypeOf symbol => ("subtype_of", symbol)

theorem parseFrom_write (start : QueryFrom) :
    parseFrom (writeFrom start) = some ((relationOf start).1, writeSymbol (relationOf start).2) := by
  cases start with
  | appliedSymbol symbol =>
    have hin : between ("from ".toList ++ "applies".toList ++ ['(']) (writeFrom (.appliedSymbol symbol)) = some (writeSymbol symbol) :=
      between_append _ _
    rw [parseFrom, List.findSome?_cons, hin]
    rfl
  | subtypeOf symbol =>
    have hno : between ("from ".toList ++ "applies".toList ++ ['(']) (writeFrom (.subtypeOf symbol)) = none := rfl
    have hin : between ("from ".toList ++ "subtype_of".toList ++ ['(']) (writeFrom (.subtypeOf symbol)) = some (writeSymbol symbol) :=
      between_append _ _
    rw [parseFrom, List.findSome?_cons, hno]
    dsimp only [Option.map_none]
    rw [List.findSome?_cons, hin]
    rfl

theorem startingRelation_relationOf (start : QueryFrom) : startingRelation (relationOf start).1 (relationOf start).2 = start := by
  cases start <;> rfl

section
variable (read : Statements)

theorem parseStatement_from (hfirst : read.start = none) (start : QueryFrom) :
    parseStatement read (writeFrom start) = .ok { read with start := some start } := by
  rw [parseStatement, parseFrom_write]
  dsimp only
  rw [parseSymbol_write, ok_bind, (reject_eq_ok_iff (u := ())).2 (by simp [hfirst]), ok_bind, startingRelation_relationOf]

theorem parseStatement_where (terms : List Char) :
    parseStatement read ("where ".toList ++ terms) =
      (parsePredicates terms).map fun terms => { read with predicates := read.predicates ++ terms } := by
  have hno : parseFrom ("where ".toList ++ terms) = none := rfl
  rw [parseStatement, hno]
  dsimp only
  rw [dropPrefix?_append]

theorem parseStatement_using (step : List Char) :
    parseStatement read ("using capability ".toList ++ step) =
      (parseCapabilityStep step).map fun step => { read with capabilitySteps := read.capabilitySteps ++ [step] } := by
  have hno : parseFrom ("using capability ".toList ++ step) = none := rfl
  have hwhere : ("using capability ".toList ++ step).dropPrefix? "where ".toList = none := rfl
  rw [parseStatement, hno]
  dsimp only
  rw [hwhere]
  dsimp only
  rw [dropPrefix?_append]

theorem parseStatement_return : parseStatement read "return symbol".toList = .ok read := by
  have hno : parseFrom "return symbol".toList = none := rfl
  have hwhere : "return symbol".toList.dropPrefix? "where ".toList = none := rfl
  have husing : "return symbol".toList.dropPrefix? "using capability ".toList = none := rfl
  rw [parseStatement, hno]
  dsimp only
  rw [hwhere]
  dsimp only
  rw [husing]
  dsimp only
  rw [if_pos rfl]

theorem parseStatement_limit {limit : Nat} (h : limit < 2 ^ 32) :
    parseStatement read ("limit ".toList ++ Nat.toDigits 10 limit) = .ok { read with limit := some limit } := by
  have hno : parseFrom ("limit ".toList ++ Nat.toDigits 10 limit) = none := rfl
  have hwhere : ("limit ".toList ++ Nat.toDigits 10 limit).dropPrefix? "where ".toList = none := rfl
  have husing : ("limit ".toList ++ Nat.toDigits 10 limit).dropPrefix? "using capability ".toList = none := rfl
  have hreturn : "limit ".toList ++ Nat.toDigits 10 limit ≠ "return symbol".toList := fun heq =>
    absurd (List.cons.inj heq).1 (by decide)
  rw [parseStatement, hno]
  dsimp only
  rw [hwhere]
  dsimp only
  rw [husing]
  dsimp only
  rw [if_neg hreturn, dropPrefix?_append]
  dsimp only
  rw [parseU32_toDigits h, okOr_some]
  rfl

theorem parseStatement_step {step : QueryCapabilityStep} (h : StepWritable step) :
    parseStatement read (writeStep step) =
      (parseCapabilityArguments (writeArguments step.arguments)).map fun arguments =>
        { read with capabilitySteps := read.capabilitySteps ++ [⟨step.name, arguments⟩] } := by
  have hwrite : writeStep step = "using capability ".toList ++ (step.name.toList ++ '(' :: (writeArguments step.arguments ++ [')'])) :=
    List.append_assoc _ _ _
  rw [hwrite, parseStatement_using, parseCapabilityStep_eq h.1, String.ofList_toList]
  cases parseCapabilityArguments (writeArguments step.arguments) <;> rfl

/-- The lines of the steps, one after the other. -/
theorem parseSteps_write {steps : List QueryCapabilityStep} (h : ∀ step ∈ steps, StepWritable step)
    (hseparable : ∀ step ∈ steps, ArgumentsSeparable step) :
    (steps.map writeStep).foldlM parseStatement read = .ok { read with capabilitySteps := read.capabilitySteps ++ steps } := by
  induction steps generalizing read with
  | nil => rw [List.append_nil]; rfl
  | cons step steps ih =>
    obtain ⟨hstep, hsteps⟩ := List.forall_mem_cons.1 h
    obtain ⟨hfirst, hrest⟩ := List.forall_mem_cons.1 hseparable
    rw [List.map_cons, List.foldlM_cons, parseStatement_step read hstep, parseCapabilityArguments_write hstep hfirst]
    change List.foldlM parseStatement _ _ = _
    rw [ih _ hsteps hrest, List.append_assoc]
    rfl

theorem parseWhere_write {predicates : List QueryPredicate} (h : ∀ predicate ∈ predicates, PredicateWritable predicate)
    (hseparable : TermsSeparable predicates) :
    (writeWhere predicates).foldlM parseStatement read = .ok { read with predicates := read.predicates ++ predicates } := by
  unfold writeWhere
  split
  · next hnil =>
    rw [hnil, List.append_nil]
    rfl
  · next hne =>
    have hterms := parsePredicates_write hne h hseparable
    rw [List.foldlM_cons, parseStatement_where]
    change ((parsePredicates (andSep.intercalate (predicates.map writePredicate))).map _ >>= _) = _
    rw [hterms]
    rfl

end

/-! ## A program -/

def SymbolWritable : QuerySymbol → Prop
  | .id value => SingleLine value.asStr
  | .qualifiedName value => SingleLine value
  | .parameter name => validName name.toList = true

structure ProgramWritable (program : QueryProgram) : Prop where
  start : SymbolWritable (relationOf program.start).2
  predicates : ∀ predicate ∈ program.predicates, PredicateWritable predicate
  steps : ∀ step ∈ program.capabilitySteps, StepWritable step
  limit : program.limit < 2 ^ 32

/-- No separator of a clause stands in a literal of the clause. -/
def Separable (program : QueryProgram) : Prop :=
  TermsSeparable program.predicates ∧ ∀ step ∈ program.capabilitySteps, ArgumentsSeparable step

theorem parseStatements_write {program : QueryProgram} (h : ProgramWritable program) (hseparable : Separable program) :
    (writeStatements program).foldlM parseStatement ⟨none, [], [], none⟩ =
      .ok ⟨some program.start, program.predicates, program.capabilitySteps, some program.limit⟩ := by
  rw [writeStatements, List.cons_append, List.cons_append, List.foldlM_cons, parseStatement_from _ rfl, ok_bind, List.foldlM_append, List.foldlM_append,
    parseWhere_write _ h.predicates hseparable.1, ok_bind, parseSteps_write _ h.steps hseparable.2, ok_bind, List.foldlM_cons,
    parseStatement_return, ok_bind, List.foldlM_cons, parseStatement_limit _ h.limit, ok_bind]
  rfl

theorem separable_of_ok {program : QueryProgram} (h : ProgramWritable program) {read result : Statements}
    (hok : (writeStatements program).foldlM parseStatement read = .ok result) : Separable program := by
  constructor
  · intro predicate hmem
    have hne : program.predicates ≠ [] := List.ne_nil_of_mem hmem
    have hline : "where ".toList ++ andSep.intercalate (program.predicates.map writePredicate) ∈ writeStatements program := by
      simp [writeStatements, writeWhere, hne, andSep]
    obtain ⟨before, after, hread⟩ := exists_of_foldlM_eq_ok hok hline
    rw [parseStatement_where] at hread
    obtain ⟨terms, hterms, -⟩ := map_eq_ok_iff.1 hread
    exact termsSeparable_of_ok h.predicates hterms predicate hmem
  · intro step hmem
    have hline : writeStep step ∈ writeStatements program := by
      simp only [writeStatements, List.mem_append, List.mem_cons]
      exact .inl (.inr (List.mem_map_of_mem hmem))
    obtain ⟨before, after, hread⟩ := exists_of_foldlM_eq_ok hok hline
    rw [parseStatement_step before (h.steps step hmem)] at hread
    obtain ⟨arguments, harguments, -⟩ := map_eq_ok_iff.1 hread
    exact argumentsSeparable_of_ok (h.steps step hmem) harguments

/-! ## The lines -/

/-- A line that the parser takes as it is. -/
structure Line (line : List Char) : Prop where
  single : '\n' ∉ line
  starts : Starts isWhitespace line
  stops : Stops isWhitespace line
  statement : ¬ ['#'] <+: line

theorem Line.no_return {line : List Char} (h : Line line) : line.dropSuffix? ['\r'] = none := by
  obtain ⟨front, c, rfl, hc⟩ := h.stops
  rw [Option.eq_none_iff_forall_not_mem]
  intro rest hrest
  have hlast := (List.append_inj' (dropSuffix?_eq_some_iff.1 hrest) rfl).2
  rw [List.cons.injEq] at hlast
  rw [hlast.1] at hc
  revert hc
  decide

theorem textLines_flatMap {lines : List (List Char)} (h : ∀ line ∈ lines, Line line) :
    textLines (lines.flatMap (· ++ ['\n'])) = lines := by
  induction lines with
  | nil => rfl
  | cons line lines ih =>
    obtain ⟨hline, hlines⟩ := List.forall_mem_cons.1 h
    rw [List.flatMap_cons, List.append_assoc, List.singleton_append, textLines, Text.splitInclusive_append_cons hline.single,
      List.map_cons, dropSuffix?_append]
    dsimp only
    rw [hline.no_return, Option.getD_none]
    exact congrArg (line :: ·) (ih hlines)

theorem parse_lines {lines : List (List Char)} (h : ∀ line ∈ lines, Line line) :
    parse (String.ofList (lines.flatMap (· ++ ['\n']))) = parseLines lines := by
  have htrim : lines.map (trim isWhitespace) = lines := by
    conv_rhs => rw [← List.map_id lines]
    exact List.map_congr_left fun line hmem => trim_eq_self (h line hmem).starts (h line hmem).stops
  have hkept : lines.filter (fun line => decide (line ≠ [] ∧ ¬ ['#'] <+: line)) = lines := by
    refine List.filter_eq_self.2 fun line hmem => decide_eq_true ⟨?_, (h line hmem).statement⟩
    obtain ⟨c, rest, rfl, -⟩ := (h line hmem).starts
    exact List.cons_ne_nil c rest
  rw [parse, String.toList_ofList, textLines_flatMap h, htrim, hkept]

/-! ### Written lines -/

theorem newline_notMem_quoted {value : String} (h : SingleLine value) : '\n' ∉ quoted value := by
  rw [quoted, List.mem_cons, List.mem_append]
  rintro (hquote | hvalue | hquote)
  · revert hquote; decide
  · exact h.1 hvalue
  · revert hquote; decide

/-- A literal between two texts without a line end. -/
theorem newline_notMem_between (front : List Char) {tail : List Char} (hfront : '\n' ∉ front) (htail : '\n' ∉ tail) {inner : List Char}
    (hinner : '\n' ∉ inner) : '\n' ∉ front ++ inner ++ tail := by
  rw [List.mem_append, List.mem_append]
  rintro ((h | h) | h)
  · exact hfront h
  · exact hinner h
  · exact htail h

theorem newline_notMem_parameter {name : String} (h : validName name.toList = true) : '\n' ∉ '$' :: name.toList := by
  rw [List.mem_cons]
  rintro (hdollar | hname)
  · revert hdollar; decide
  · exact notMem_of_valid h (by decide) hname

theorem newline_notMem_writeSymbol {symbol : QuerySymbol} (h : SymbolWritable symbol) : '\n' ∉ writeSymbol symbol := by
  cases symbol with
  | id value => exact newline_notMem_between "symbol-id(".toList (by decide) (by decide) (newline_notMem_quoted h)
  | qualifiedName value =>
    exact newline_notMem_between "qualified-symbol(".toList (by decide) (by decide) (newline_notMem_quoted h)
  | parameter name => exact newline_notMem_parameter h

theorem newline_notMem_writeValue {value : QueryCapabilityValue} (h : ValueWritable value) : '\n' ∉ writeCapabilityValue value := by
  cases value with
  | parameter name => exact newline_notMem_parameter h
  | symbolId value =>
    exact newline_notMem_between "symbol-id(".toList (by decide) (by decide) (newline_notMem_quoted h)
  | componentId value =>
    exact newline_notMem_between "component-id(".toList (by decide) (by decide) (newline_notMem_quoted h)
  | string value => exact newline_notMem_quoted h
  | integer value =>
    intro hmem
    rcases (writeInteger_no_space value).2 _ hmem with hminus | hdigit
    · revert hminus; decide
    · revert hdigit; decide

theorem newline_notMem_writeArguments {arguments : List QueryCapabilityArgument} (h : ∀ argument ∈ arguments, ArgumentWritable argument) :
    '\n' ∉ writeArguments arguments := by
  intro hmem
  rcases mem_intercalate hmem with hsep | ⟨piece, hpiece, hin⟩
  · revert hsep; decide
  · obtain ⟨argument, hargument, rfl⟩ := List.mem_map.1 hpiece
    obtain ⟨hname, -, hvalue⟩ := h argument hargument
    rcases List.mem_append.1 hin with hin | hin
    · exact notMem_of_valid hname (by decide) hin
    · rcases List.mem_cons.1 hin with hequal | hin
      · revert hequal; decide
      · exact newline_notMem_writeValue hvalue hin

/-- A term: it is on one line and ends in a character of its own. -/
theorem predicate_line {predicate : QueryPredicate} (h : PredicateWritable predicate) :
    '\n' ∉ writePredicate predicate ∧ Stops isWhitespace (writePredicate predicate) := by
  obtain ⟨hsupported, hnames⟩ := h
  have hname : ∀ name : String, validName name.toList = true → Stops isWhitespace ('$' :: name.toList) := fun name hname =>
    (stops_of_forall (validName_chars hname).1 fun c hc => ((validName_chars hname).2 c hc).not_whitespace).append ['$']
  have happend : ∀ front inner : List Char, '\n' ∉ front → '\n' ∉ inner → '\n' ∉ front ++ inner := fun front inner hfront hinner hmem =>
    (List.mem_append.1 hmem).elim hfront hinner
  cases predicate with
  | kind kind =>
    have hkinds : ∀ kind ∈ [SymbolKind.class_, .interface, .method, .function],
        '\n' ∉ writeKind kind ∧ (writeKind kind ≠ [] ∧ (writeKind kind).any isWhitespace = false) := by decide
    obtain ⟨hline, hne, hspace⟩ := hkinds kind hsupported
    have hstops := stops_of_forall hne fun c hc => Bool.eq_false_iff.2 (List.any_eq_false.1 hspace c hc)
    exact ⟨happend "kind == ".toList _ (by decide) hline, hstops.append _⟩
  | language language =>
    have hlanguages : ∀ language ∈ [Language.kotlin, .java],
        '\n' ∉ writeLanguage language ∧ (writeLanguage language ≠ [] ∧ (writeLanguage language).any isWhitespace = false) := by decide
    obtain ⟨hline, hne, hspace⟩ := hlanguages language hsupported
    have hstops := stops_of_forall hne fun c hc => Bool.eq_false_iff.2 (List.any_eq_false.1 hspace c hc)
    exact ⟨happend "language == ".toList _ (by decide) hline, hstops.append _⟩
  | component component =>
    cases component with
    | id value =>
      exact ⟨happend "component == ".toList _ (by decide) (newline_notMem_quoted hnames), (quoted_stops value.asStr).append _⟩
    | parameter name => exact ⟨happend "component == ".toList _ (by decide) (newline_notMem_parameter hnames), (hname name hnames).append _⟩
  | qualifiedNamePrefix start =>
    cases start with
    | literal value =>
      exact ⟨happend "qualified-name-prefix == ".toList _ (by decide) (newline_notMem_quoted hnames), (quoted_stops value).append _⟩
    | parameter name =>
      exact ⟨happend "qualified-name-prefix == ".toList _ (by decide) (newline_notMem_parameter hnames), (hname name hnames).append _⟩

/-- A name with something in parentheses, on one line. -/
theorem call_line (c : Char) (front : List Char) {name inner tail : List Char} (hc : isWhitespace c = false ∧ c ≠ '#') (hfront : '\n' ∉ c :: front)
    (hname : validName name = true) (hinner : '\n' ∉ inner) (htail : '\n' ∉ tail) (hstops : Stops isWhitespace tail) :
    Line (c :: front ++ name ++ '(' :: (inner ++ tail)) := by
  refine ⟨?_, ⟨c, _, rfl, hc.1⟩, ((hstops.append _).append ['(']).append _, fun h => hc.2 (List.cons_prefix_cons.1 h).1.symm⟩
  intro hmem
  rcases List.mem_append.1 hmem with hmem | hmem
  · exact (List.mem_append.1 hmem).elim hfront (notMem_of_valid hname (by decide))
  · rcases List.mem_cons.1 hmem with hopen | hmem
    · revert hopen; decide
    · exact (List.mem_append.1 hmem).elim hinner htail

theorem header_line {query : ProjectQuery} (hname : validName query.name.toList = true)
    (hparameters : ∀ parameter ∈ query.parameters, ParameterWritable parameter) : Line (writeHeader query) := by
  refine call_line 'c' "ommand ".toList (by decide) (by decide) hname ?_ (by decide) ⟨[')', ' '], Char.ofNat 0x7b, rfl, by decide⟩
  intro hmem
  rcases mem_intercalate hmem with hsep | ⟨piece, hpiece, hin⟩
  · revert hsep; decide
  · obtain ⟨parameter, hparameter, rfl⟩ := List.mem_map.1 hpiece
    exact notMem_writeParameter (hparameters parameter hparameter) (by decide) (by decide) hin

theorem from_line {start : QueryFrom} (h : SymbolWritable (relationOf start).2) : Line (writeFrom start) := by
  cases start with
  | appliedSymbol symbol =>
    exact ⟨newline_notMem_between "from applies(".toList (by decide) (by decide) (newline_notMem_writeSymbol h),
      ⟨'f', _, rfl, by decide⟩, ⟨_, ')', rfl, by decide⟩, fun h => absurd (List.cons_prefix_cons.1 h).1 (by decide)⟩
  | subtypeOf symbol =>
    exact ⟨newline_notMem_between "from subtype_of(".toList (by decide) (by decide) (newline_notMem_writeSymbol h),
      ⟨'f', _, rfl, by decide⟩, ⟨_, ')', rfl, by decide⟩, fun h => absurd (List.cons_prefix_cons.1 h).1 (by decide)⟩

theorem where_line {predicates : List QueryPredicate} (h : ∀ predicate ∈ predicates, PredicateWritable predicate) :
    ∀ line ∈ writeWhere predicates, Line line := by
  unfold writeWhere
  split
  · exact fun line hmem => absurd hmem List.not_mem_nil
  · next hne =>
    refine List.forall_mem_singleton.2 ⟨?_, ⟨'w', _, rfl, by decide⟩, ?_, fun h => absurd (List.cons_prefix_cons.1 h).1 (by decide)⟩
    · rw [List.mem_append]
      rintro (hmem | hmem)
      · revert hmem; decide
      · rcases mem_intercalate hmem with hsep | ⟨piece, hpiece, hin⟩
        · revert hsep; decide
        · obtain ⟨predicate, hpredicate, rfl⟩ := List.mem_map.1 hpiece
          exact (predicate_line (h predicate hpredicate)).1 hin
    · exact (Stops.intercalate (by simpa using hne) (List.forall_mem_map.2 fun predicate hmem =>
        (predicate_line (h predicate hmem)).2)).append _

theorem step_line {step : QueryCapabilityStep} (h : StepWritable step) : Line (writeStep step) :=
  call_line 'u' "sing capability ".toList (by decide) (by decide) h.1 (newline_notMem_writeArguments h.2)
    (by decide) ⟨[], ')', rfl, by decide⟩

theorem limit_line (limit : Nat) : Line ("limit ".toList ++ Nat.toDigits 10 limit) := by
  have hdigits : ∀ c ∈ Nat.toDigits 10 limit, c.isDigit = true := fun c hc => Nat.isDigit_of_mem_toDigits (by decide) (by decide) hc
  refine ⟨?_, ⟨'l', _, rfl, by decide⟩, ?_, fun h => absurd (List.cons_prefix_cons.1 h).1 (by decide)⟩
  · rw [List.mem_append]
    rintro (hmem | hmem)
    · revert hmem; decide
    · exact absurd (hdigits _ hmem) (by decide)
  · exact (stops_of_forall (toDigits_ne_nil limit) fun c hc => digit_not_whitespace (hdigits c hc)).append _

/-! ## The law -/

/-- What the law is about: valid names, supported kinds and languages, literals on one line without a quote, and numbers of
the width of their fields. -/
structure Writable (query : ProjectQuery) : Prop where
  name : validName query.name.toList = true
  parameters : ∀ parameter ∈ query.parameters, ParameterWritable parameter
  program : ProgramWritable query.program

theorem lines_of_writable {query : ProjectQuery} (h : Writable query) : ∀ line ∈ writeLines query, Line line := by
  have hreturn : Line "return symbol".toList :=
    ⟨by decide, ⟨'r', _, rfl, by decide⟩, ⟨"return symbo".toList, 'l', rfl, by decide⟩, by decide⟩
  have hclosing : Line closing := ⟨by decide, ⟨Char.ofNat 0x7d, [], rfl, by decide⟩, ⟨[], Char.ofNat 0x7d, rfl, by decide⟩, by decide⟩
  intro line hmem
  simp only [writeLines, writeStatements, List.mem_append, List.mem_cons, List.not_mem_nil, or_false] at hmem
  rcases hmem with (rfl | ((rfl | hwhere) | hstep) | rfl | rfl) | rfl
  · exact header_line h.name h.parameters
  · exact from_line h.program.start
  · exact where_line h.program.predicates line hwhere
  · obtain ⟨step, hin, rfl⟩ := List.mem_map.1 hstep
    exact step_line (h.program.steps step hin)
  · exact hreturn
  · exact limit_line query.program.limit
  · exact hclosing

theorem parseLines_write {query : ProjectQuery} (h : Writable query) :
    parseLines (writeLines query) = .ok query ↔ Separable query.program := by
  have hlast : (writeHeader query :: (writeStatements query.program ++ [closing])).getLast? = some closing :=
    List.getLast?_concat (l := writeHeader query :: writeStatements query.program)
  rw [writeLines, List.cons_append, parseLines, parseHeader_write h.name h.parameters, ok_bind,
    (reject_eq_ok_iff (u := ())).2 (not_not_intro hlast), ok_bind, List.dropLast_concat]
  constructor
  · intro hok
    obtain ⟨read, hread, -⟩ := bind_eq_ok_iff.1 hok
    exact separable_of_ok h.program hread
  · intro hseparable
    rw [parseStatements_write h.program hseparable]
    rfl

/-- A written query is read back exactly if no term of a `where` line and no argument of a step has the separator of its
line in its literal. -/
theorem parse_write_iff {query : ProjectQuery} (h : Writable query) :
    parse (write query) = .ok query ↔ Separable query.program := by
  rw [write, parse_lines (lines_of_writable h), parseLines_write h]

/-- The direct uses of a type in a component, at most ten. -/
def usesIn (component : ComponentId) : ProjectQuery :=
  ⟨"application.uses", [⟨"target", .qualifiedSymbol⟩],
    ⟨.appliedSymbol (.parameter "target"), [.component (.id component), .kind .class_],
      [⟨"jvm.bean-contracts", [⟨"contract", .string "bean"⟩, ⟨"depth", .integer (-2)⟩]⟩], 10⟩⟩

theorem usesIn_writable {component : ComponentId} (h : SingleLine component.asStr) : Writable (usesIn component) := by
  have hname : validName "application.uses".toList = true := by decide +kernel
  have htarget : validName "target".toList = true ∧ '.' ∉ "target".toList := by decide +kernel
  refine ⟨hname, List.forall_mem_singleton.2 htarget, ⟨htarget.1, ?_, List.forall_mem_singleton.2 ⟨by decide +kernel, ?_⟩, ?_⟩⟩
  · exact List.forall_mem_cons.2 ⟨⟨trivial, h⟩, List.forall_mem_singleton.2 ⟨List.mem_cons_self, trivial⟩⟩
  · refine List.forall_mem_cons.2 ⟨⟨by decide +kernel, by decide +kernel, ?_⟩, List.forall_mem_singleton.2 ?_⟩
    · exact ⟨by decide +kernel, by decide +kernel⟩
    · exact ⟨by decide +kernel, by decide +kernel, by decide, by decide⟩
  · change 10 < 2 ^ 32
    decide

theorem parse_write_usesIn :
    Writable (usesIn ⟨":app"⟩) ∧
      (parse (write (usesIn ⟨":app"⟩)) = .ok (usesIn ⟨":app"⟩) ↔ Separable (usesIn ⟨":app"⟩).program) := by
  have h : Writable (usesIn ⟨":app"⟩) := usesIn_writable ⟨by decide +kernel, by decide +kernel⟩
  exact ⟨h, parse_write_iff h⟩

/-- A component whose id has ` and ` in it. -/
theorem parse_write_components_and :
    ∃ query, Writable query ∧ query = usesIn ⟨"component:tools and more"⟩ ∧ parse (write query) ≠ .ok query :=
  ⟨usesIn ⟨"component:tools and more"⟩, usesIn_writable ⟨by decide +kernel, by decide +kernel⟩, rfl, by decide +kernel⟩

end ProjectQuery

end Kide
