import Kide.Index.CrossArtifact
import Kide.Query.ProjectQueryRoundTrip
import Kide.Query.References
import Kide.Query.Selector
import Kide.Query.SemanticQuery
import Kide.Query.SymbolNames
import Kide.Store.Hierarchy
import Kide.Store.SymbolRecords
import Mathlib.Data.Prod.Lex

/-!
# The semantic commands

`symbols` (`search.rs`), `select`, `definition`, `refs`, `implementations`, `callers` and `type-at` (`navigation.rs`), from the
target that a command is given to what it prints, in JSON or for people. A symbol's targets are an id, a location or a name.

* `printed_facts_verified`: no command prints a fact that did not pass the freshness gate;
* `human_output_agrees`: both outputs of a command have the same status and the same facts;
* `printed_reference_leads_back`: the place printed for a reference is a target that stands for what it refers to.

What a command prints before it fails is left out, and so are the metadata of a response.
-/

namespace Kide
open Checks Text

/-! ## Targets -/

inductive TargetResolution where
  | symbol (id : SymbolId)
  | noResult
  | stale
  | ambiguous (candidates : List SymbolId)
deriving DecidableEq, Repr

inductive CommandFailure where
  | bail (message : String)
  | unreadable (path : WorkspacePath)
  | notANumber
  | location (source : LocationResolutionError)
  | store (source : IndexStoreError)
  | like (source : LikeError)
  | artifact (source : ArtifactQueryError)
  | selector (source : SelectorError)
  | typeAt (source : NavigationError)
  | printing (source : ReferenceError)
  /-- More hierarchy edges than there are. -/
  | outOfFuel
  | unreachable

/-- The context of a command, with the index it opens, the blobs in the artifact cache and what it uses of libraries. -/
structure WorkspaceContext where
  sha256 : Bytes → String
  isAlphanumeric : Char → Bool
  reader : BlobReader
  openBlob : ArtifactDescriptor → Option ArtifactBlob
  configuration : EffectiveConfiguration
  files : WorkspaceFiles
  store : IndexStore

def LOCATION_FORM : String := "location must be PATH:LINE:COLUMN"

/-- What is in front of the last colon. -/
def beforeLast (text : List Char) : Option (List Char) :=
  if ':' ∈ text then some (text.reverse.dropWhile (· ≠ ':')).tail.reverse else none

def parseCoordinate (part : List Char) : Except CommandFailure UInt32 :=
  match ProjectQuery.parseU32 part with
  | some number => .ok (UInt32.ofNat number)
  | none => .error .notANumber

/-- `rsplitn(3, ':')` -/
def parseLocation (value : String) : Except CommandFailure Location := do
  let column ← parseCoordinate (afterLast ':' value.toList)
  match beforeLast value.toList with
  | none => .error (.bail LOCATION_FORM)
  | some front => do
    let line ← parseCoordinate (afterLast ':' front)
    match (beforeLast front).filter (· ≠ []) with
    | none => .error (.bail LOCATION_FORM)
    | some path => .ok ⟨⟨String.ofList path⟩, ⟨line, column⟩⟩

/-- `fs::read_to_string(..).ok()` -/
def readToString (files : WorkspaceFiles) (path : WorkspacePath) : Option String :=
  (files.read path).bind fun bytes => String.fromUTF8? bytes.toByteArray

/-- The prefixes of symbol ids. -/
def isSymbolId (value : String) : Bool :=
  ["jvm:sha256:", "kotlin:", "java:"].any fun start => start.toList.isPrefixOf value.toList

def LocationResolution.target : LocationResolution → TargetResolution
  | .symbol id => .symbol id
  | .noResult => .noResult
  | .ambiguous candidates => .ambiguous candidates

namespace WorkspaceContext
variable (context : WorkspaceContext)

/-- The only unit of a path is of the text as it is. -/
def checkSource (path : WorkspacePath) (sourceText : String) : Except CommandFailure Bool :=
  match context.store.sourceUnitsAtPath path with
  | [unit] =>
    match documentFromBytes context.sha256 path sourceText.toByteArray.data.toList with
    | .error _ => .error (.bail "location source is not an eligible UTF-8 text file")
    | .ok current => .ok (current.fingerprint = unit.content)
  | _ => .ok true

def resolveTarget (value : String) : Except CommandFailure TargetResolution :=
  if isSymbolId value then
    .ok (if (context.store.symbol ⟨value⟩).isSome || context.store.artifactCandidatesWithSymbol ⟨value⟩ ≠ [] then .symbol ⟨value⟩
      else .noResult)
  else
    match parseLocation value with
    | .ok location =>
      match readToString context.files location.path with
      | none => .error (.unreadable location.path)
      | some sourceText => do
        let current ← context.checkSource location.path sourceText
        if current then
          let resolution ← (resolveLocation context.store location sourceText).mapError .location
          .ok resolution.target
        else .ok .stale
    | .error _ =>
      match (context.store.symbolsNamed value).map (·.id) with
      | [] => .ok .noResult
      | [symbol] => .ok (.symbol symbol)
      | candidates => .ok (.ambiguous candidates)

end WorkspaceContext

/-! ## Output -/

inductive Output where
  | response (answer : QueryAnswer)
  /-- One line of JSON for each symbol. -/
  | records (symbols : List SymbolRecord)
  /-- The lines of the facts. -/
  | short (facts : QueryPayload) (lines : List String)
  | message (text : String)

/-- The facts that can be read off an output. -/
def Output.facts : Output → Option QueryPayload
  | .response answer => answer.result
  | .records symbols => some (.symbols symbols)
  | .short facts _ => some facts
  | .message _ => none

abbrev Reply := Output × QueryStatus

namespace WorkspaceContext
variable (context : WorkspaceContext)

def problem (payload : QueryPayload) : Option QueryProblem :=
  freshnessProblem context.sha256 context.configuration context.files context.store payload

def printQueryResponse (answer : QueryAnswer) : Reply :=
  let answer := gated context.sha256 context.configuration context.files context.store answer
  (.response answer, answer.status)

def withheld (problem : QueryProblem) : Reply := context.printQueryResponse ⟨.stale, none, [problem]⟩

def targetFreshnessProblem (symbol : SymbolId) : Option QueryProblem :=
  (context.store.symbol symbol).bind fun symbol => context.problem (.definition symbol)

/-- `none` where the source says `unreachable!`. -/
def targetProblem : TargetResolution → Option QueryAnswer
  | .noResult => some ⟨.noResult, none, []⟩
  | .stale => some ⟨.stale, none, [staleSourceProblem]⟩
  | .ambiguous candidates =>
    some ⟨.ambiguous, none, [⟨"ambiguous_target", "target resolves to " ++ toString candidates.length ++ " symbols", false⟩]⟩
  | .symbol _ => none

def shortSymbol (symbol : SymbolRecord) (label : Option String) : Except ReferenceError String := do
  let name := symbol.qualifiedName.getD symbol.name
  let location ← shortSourceLocation context.store (readToString context.files) symbol.declaration.sourceUnit symbol.nameRange.bytes.start
  let start := label.elim "" fun label => label ++ " "
  .ok (start ++ symbol.kind.debug.toLower ++ " " ++ name ++ " " ++ location)

def printShortSymbols (symbols : List SymbolRecord) : Except CommandFailure (List String) :=
  (symbols.mapM (context.shortSymbol · none)).mapError .printing

def printReferences (references : List SourceOccurrence) : Except CommandFailure (List String) :=
  (printShortReferences context.isAlphanumeric context.store (fun _ => readToString context.files) 0 references).mapError .printing

end WorkspaceContext

def QueryPayload.isEmpty : QueryPayload → Bool
  | .refs references => references = []
  | .callers calls => calls = []
  | .implementations found => found = []
  | _ => false

def queryResult (payload : QueryPayload) : QueryAnswer :=
  if payload.isEmpty then ⟨.noResult, none, []⟩ else ⟨.ok, some payload, []⟩

namespace WorkspaceContext
variable (context : WorkspaceContext)

/-! ## Relations of a target -/

/-- What `references`, `callers` and `implementations` do with their target. -/
def onTarget (value : String) (relation : SymbolId → Except CommandFailure Reply) : Except CommandFailure Reply := do
  match ← context.resolveTarget value with
  | .symbol symbol =>
    match context.targetFreshnessProblem symbol with
    | some problem => .ok (context.withheld problem)
    | none => relation symbol
  | resolution =>
    match targetProblem resolution with
    | some answer => .ok (context.printQueryResponse answer)
    | none => .error .unreachable

/-- What they do with the facts they find. -/
def answerFacts (humanOutput : Bool) (payload : QueryPayload) (nothing : String) (lines : Except CommandFailure (List String)) :
    Except CommandFailure Reply :=
  if humanOutput then
    match context.problem payload with
    | some problem => .ok (context.withheld problem)
    | none =>
      if payload.isEmpty then .ok (.message nothing, .noResult)
      else do
        let lines ← lines
        .ok (.short payload lines, .ok)
  else .ok (context.printQueryResponse (queryResult payload))

/-- The calls of the constructors of a class, in the unit that declares it. -/
def constructorCalls (symbol : SymbolId) (record : SymbolRecord) : List SourceOccurrence :=
  ((context.store.symbolsForSource record.declaration.sourceUnit).filter fun candidate =>
    candidate.kind = .constructor ∧ (candidate.owner = some symbol ∨ candidate.nameRange = record.nameRange)).flatMap
      fun constructor => (context.store.callsTo constructor.id).map (·.source)

def referenceKey (reference : SourceOccurrence) : String ×ₗ Nat ×ₗ Nat ×ₗ String ×ₗ String :=
  toLex (reference.range.sourceUnit.asStr, toLex (reference.range.bytes.start, toLex (reference.range.bytes.stop,
    toLex (reference.kind.debug, (reference.target.map (·.asStr)).getD ""))))

def targetReferences (symbol : SymbolId) : List SourceOccurrence :=
  let references := (context.store.referencesTo symbol).map (·.source)
  let references :=
    match context.store.symbol symbol with
    | some record =>
      if record.kind ∈ [SymbolKind.class_, .interface, .object, .enum] then references ++ context.constructorCalls symbol record else references
    | none => references
  (references.insertionSort fun a b => referenceKey a ≤ referenceKey b).destutter (· ≠ ·)

def references (humanOutput : Bool) (value : String) : Except CommandFailure Reply :=
  context.onTarget value fun symbol =>
    let references := context.targetReferences symbol
    context.answerFacts humanOutput (.refs references) "no references" (context.printReferences references)

def callers (humanOutput : Bool) (value : String) : Except CommandFailure Reply :=
  context.onTarget value fun symbol =>
    let calls := (context.store.callsTo symbol).map (·.source)
    context.answerFacts humanOutput (.callers calls) "no callers" (context.printReferences calls)

def targetImplementations (transitive : Bool) (symbol : SymbolId) : Except CommandFailure (List SymbolRecord) := do
  let edges ←
    if transitive then
      match context.store.implementationsOfTransitive (context.store.hierarchyEdges.length + 2) symbol with
      | some edges => .ok edges
      | none => .error .outOfFuel
    else .ok (context.store.implementationsOf symbol)
  let symbols := edges.filterMap fun edge => context.store.symbol edge.subtype
  if symbols = [] ∧ ¬ transitive then
    (cachedDependencyImplementations context.reader context.openBlob context.store symbol).mapError .artifact
  else .ok symbols

def implementations (transitive humanOutput : Bool) (value : String) : Except CommandFailure Reply :=
  context.onTarget value fun symbol => do
    let symbols ← context.targetImplementations transitive symbol
    context.answerFacts humanOutput (.implementations symbols) "no implementations" (context.printShortSymbols symbols)

/-! ## Definitions and types -/

def definitionAnswer : TargetResolution → QueryAnswer
  | .symbol id =>
    match context.store.symbol id with
    | some symbol => ⟨.ok, some (.definition symbol), []⟩
    | none => ⟨.noResult, none, [⟨"resolved_symbol_missing", "location resolved to a symbol absent from the index", false⟩]⟩
  | .noResult => ⟨.noResult, none, []⟩
  | .stale => ⟨.stale, none, [staleSourceProblem]⟩
  | .ambiguous candidates =>
    ⟨.ambiguous, none, [⟨"ambiguous_location", "location resolves to " ++ toString candidates.length ++ " symbols", false⟩]⟩

def definition (humanOutput : Bool) (value : String) : Except CommandFailure Reply := do
  let resolution ← context.resolveTarget value
  let answer := context.definitionAnswer resolution
  if humanOutput then
    let answer := gated context.sha256 context.configuration context.files context.store answer
    match answer.result with
    | some (.definition symbol) => do
      let line ← (context.shortSymbol symbol (some "definition")).mapError .printing
      .ok (.short (.definition symbol) [line], answer.status)
    | some _ => .error .unreachable
    | none => .ok (.message "no definition", answer.status)
  else .ok (context.printQueryResponse answer)

/-- The answer of `typeAt` has passed the gate, which is the same for both outputs. -/
def typeAtPosition (humanOutput : Bool) (value : String) : Except CommandFailure Reply := do
  let location ← parseLocation value
  match readToString context.files location.path with
  | none => .error (.unreadable location.path)
  | some sourceText => do
    let answer ← (Kide.typeAt context.sha256 context.configuration context.files context.store location sourceText).mapError .typeAt
    if humanOutput then
      match answer.result with
      | some (.typeAt occurrence ty) => .ok (.short (.typeAt occurrence ty) [ty.display], answer.status)
      | some _ => .error .unreachable
      | none => .ok (.message "no type", answer.status)
    else .ok (.response answer, answer.status)

/-! ## Symbols -/

/-- `artifact_query::symbols_with_qualified_name`; an artifact without a cached blob has none. -/
def artifactSymbolsWithQualifiedName (artifact : ArtifactDescriptor) (qualifiedName : String) :
    Except ArtifactQueryError (List SymbolRecord) :=
  match context.openBlob artifact with
  | none => .ok []
  | some blob => do
    let sections ← ArtifactQuery.ofLayout (ArtifactBlobSections.openBlob context.reader blob)
    let directory ← ArtifactQuery.ofLayout (sections.qualifiedSymbolDirectory context.reader blob)
    let ordinals := (directory.entries.filter (·.qualifiedName = qualifiedName)).map (·.symbolOrdinal)
    ordinals.mapM fun ordinal => do
      let block ← ArtifactQuery.ofLayout (sections.symbolDetailBlock context.reader blob ordinal)
      ArtifactQuery.ofGraph (ArtifactAdapter.decodeSymbolDetail block ordinal)

/-- `ORDER BY artifact_catalog.source_unit_id` -/
def artifactCandidatesWithQualifiedName (qualifiedName : String) : List ArtifactDescriptor :=
  ((context.store.symbolLocators.filter (·.qualifiedName = qualifiedName)).flatMap fun row =>
    context.store.artifactCatalog.filter (·.sourceUnit.id = row.sourceUnitId)).insertionSort fun a b => a.sourceUnit.id.le b.sourceUnit.id

def cachedDependencySymbols (qualifiedName : String) : Except ArtifactQueryError (List SymbolRecord) := do
  let symbols ← (context.artifactCandidatesWithQualifiedName qualifiedName).mapM fun descriptor =>
    context.artifactSymbolsWithQualifiedName descriptor qualifiedName
  .ok symbols.flatten

/-- The first of four lookups that finds something. -/
def lookUpSymbols (query : String) : Except CommandFailure (List SymbolRecord) :=
  let symbols := context.store.symbolsNamed query
  let symbols := if symbols = [] then (context.store.symbolsWithQualifiedName query).filterMap context.store.symbol else symbols
  if symbols = [] then do
    let symbols ← (context.cachedDependencySymbols query).mapError .artifact
    if symbols = [] then (context.store.symbolsMatchingName query).mapError .like else .ok symbols
  else .ok symbols

def symbolKey (symbol : SymbolRecord) : String ×ₗ Nat ×ₗ String :=
  toLex (symbol.declaration.sourceUnit.asStr, toLex (symbol.nameRange.bytes.start, symbol.id.asStr))

def symbolsStatus (symbols : List SymbolRecord) : QueryStatus :=
  match symbols.length with
  | 0 => .noResult
  | 1 => .ok
  | _ => .ambiguous

def ambiguousSymbolQuery : QueryProblem :=
  ⟨"ambiguous_symbol_query", "symbol query matched multiple declarations; choose a returned stable symbol id", false⟩

/-- `print_response` without the gate, which the command asks itself. -/
def symbols (short : Bool) (query : String) : Except CommandFailure Reply := do
  let symbols ← context.lookUpSymbols query
  let symbols := symbols.insertionSort fun a b => symbolKey a ≤ symbolKey b
  let status := symbolsStatus symbols
  if symbols = [] then .ok (.response ⟨status, none, []⟩, status)
  else
    match context.problem (.symbols symbols) with
    | some problem => .ok (.response ⟨.stale, none, [problem]⟩, .stale)
    | none =>
      if short then do
        let lines ← context.printShortSymbols symbols
        .ok (.short (.symbols symbols) lines, status)
      else .ok (.response ⟨status, some (.symbols symbols), if status = .ambiguous then [ambiguousSymbolQuery] else []⟩, status)

def selectorStatus : SelectorState → QueryStatus
  | .complete => .ok
  | .partially => .stale
  | .noResult => .noResult

/-- The arguments of `select`. `clap` rejects both language views at once. -/
structure SelectArguments where
  applies : String
  view : Option LanguageView
  component : Option String
  qualifiedPrefix : Option String

def appliedSymbol (applies : String) : Except CommandFailure SymbolId :=
  match context.store.symbolsWithQualifiedName applies with
  | [symbol] => .ok symbol
  | [] => .ok ⟨applies⟩
  | candidates => .error (.bail ("applied symbol name is ambiguous: " ++ toString candidates.length ++ " candidates"))

def selectSymbols (humanOutput : Bool) (arguments : SelectArguments) : Except CommandFailure Reply := do
  let applied ← context.appliedSymbol arguments.applies
  let result ← (select context.store {
    views := arguments.view.toList
    predicates := [.appliedSymbol applied] ++ (arguments.component.map fun component => .component ⟨component⟩).toList
      ++ (arguments.qualifiedPrefix.map fun start => .qualifiedNamePrefix start).toList }).mapError .selector
  match context.problem (.symbols result.symbols) with
  | some problem => .ok (context.withheld problem)
  | none =>
    if humanOutput then do
      let lines ← context.printShortSymbols result.symbols
      .ok (.short (.symbols result.symbols) lines, selectorStatus result.state)
    else .ok (.records result.symbols, selectorStatus result.state)

end WorkspaceContext

/-! ## Commands -/

inductive SemanticCommand where
  | symbols (query : String)
  | select (arguments : WorkspaceContext.SelectArguments)
  | definition (target : String)
  | refs (targets : List String)
  | implementations (targets : List String) (transitive : Bool)
  | callers (targets : List String)
  | typeAt (location : String)

def singly (reply : Except CommandFailure Reply) : Except CommandFailure (List Output × QueryStatus) := do
  let (output, status) ← reply
  .ok ([output], status)

/-- The targets in order, each once. -/
def fanOut (targets : List String) (query : String → Except CommandFailure Reply) : Except CommandFailure (List Output × QueryStatus) := do
  let targets := (targets.insertionSort (· ≤ ·)).destutter (· ≠ ·)
  let replies ← targets.mapM query
  .ok (replies.map Prod.fst, if replies.any (·.2 = .ok) then .ok else .noResult)

namespace WorkspaceContext
variable (context : WorkspaceContext)

/-- `short` of `symbols` and `refs` stands for `humanOutput`. -/
def run (command : SemanticCommand) (humanOutput : Bool) : Except CommandFailure (List Output × QueryStatus) :=
  match command with
  | .symbols query => singly (context.symbols humanOutput query)
  | .select arguments => singly (context.selectSymbols humanOutput arguments)
  | .definition target => singly (context.definition humanOutput target)
  | .refs targets => fanOut targets (context.references humanOutput)
  | .implementations targets transitive => fanOut targets (context.implementations transitive humanOutput)
  | .callers targets => fanOut targets (context.callers humanOutput)
  | .typeAt location => singly (context.typeAtPosition humanOutput location)

/-- What a command prints, unless it fails. -/
def printed (command : SemanticCommand) (humanOutput : Bool) : List Output :=
  match context.run command humanOutput with
  | .ok reply => reply.1
  | .error _ => []

end WorkspaceContext

/-! ## Facts that passed the gate -/

/-- Facts are only in answers that are `ok`. -/
def QueryAnswer.Regular (answer : QueryAnswer) : Prop := ∀ payload, answer.result = some payload → answer.status = .ok

namespace WorkspaceContext
variable (context : WorkspaceContext)

/-- The facts of an output passed the gate. -/
def Passed (output : Output) : Prop := ∀ payload, output.facts = some payload → context.problem payload = none

/-- So did all that a computation prints. -/
def Passes (reply : Except CommandFailure Reply) : Prop := ∀ found, reply = .ok found → context.Passed found.1

variable {context}

theorem passed_of_gated {answer : QueryAnswer} (h : answer.Regular) {payload : QueryPayload}
    (hresult : (gated context.sha256 context.configuration context.files context.store answer).result = some payload) :
    context.problem payload = none := by
  have hanswer := gated_result hresult
  have hstatus := h payload hanswer
  unfold gated at hresult
  rw [hanswer, hstatus] at hresult
  dsimp only at hresult
  unfold problem
  cases hproblem : freshnessProblem context.sha256 context.configuration context.files context.store payload with
  | none => rfl
  | some problem =>
    rw [hproblem] at hresult
    cases hresult

theorem passed_response {answer : QueryAnswer} (h : answer.Regular) : context.Passed (context.printQueryResponse answer).1 :=
  fun _ hfacts => passed_of_gated h hfacts

theorem passed_none {output : Output} (h : output.facts = none) : context.Passed output := by
  intro payload hfacts
  rw [h] at hfacts
  cases hfacts

theorem regular_none {status : QueryStatus} {problems : List QueryProblem} : QueryAnswer.Regular ⟨status, none, problems⟩ :=
  fun _ hresult => by cases hresult

theorem regular_queryResult (payload : QueryPayload) : (queryResult payload).Regular := by
  unfold queryResult
  split
  · exact regular_none
  · exact fun _ _ => rfl

theorem passed_withheld (problem : QueryProblem) : context.Passed (context.withheld problem).1 := passed_response regular_none

theorem passes_ok {reply : Reply} (h : context.Passed reply.1) : context.Passes (.ok reply) := by
  rintro found ⟨⟩
  exact h

theorem passes_error (error : CommandFailure) : context.Passes (.error error) := fun _ h => by cases h

theorem passes_bind {α : Type} {found : Except CommandFailure α} {next : α → Except CommandFailure Reply}
    (h : ∀ a, found = .ok a → context.Passes (next a)) : context.Passes (found >>= next) := by
  intro reply hreply
  obtain ⟨a, ha, hnext⟩ := bind_eq_ok_iff.1 hreply
  exact h a ha reply hnext

theorem passes_onTarget {value : String} {relation : SymbolId → Except CommandFailure Reply}
    (h : ∀ symbol, context.Passes (relation symbol)) : context.Passes (context.onTarget value relation) := by
  refine passes_bind fun resolution _ => ?_
  cases resolution with
  | symbol symbol =>
    dsimp only
    split
    · exact passes_ok (passed_withheld _)
    · exact h symbol
  | noResult => exact passes_ok (passed_response regular_none)
  | stale => exact passes_ok (passed_response regular_none)
  | ambiguous candidates => exact passes_ok (passed_response regular_none)

theorem passes_answerFacts (humanOutput : Bool) (payload : QueryPayload) (nothing : String)
    (lines : Except CommandFailure (List String)) : context.Passes (context.answerFacts humanOutput payload nothing lines) := by
  unfold answerFacts
  split
  · split
    · exact passes_ok (passed_withheld _)
    · next hproblem =>
      split
      · exact passes_ok (passed_none rfl)
      · refine passes_bind fun lines _ => passes_ok fun other hother => ?_
        cases hother
        exact hproblem
  · exact passes_ok (passed_response (regular_queryResult payload))

theorem regular_definitionAnswer (resolution : TargetResolution) : (context.definitionAnswer resolution).Regular := by
  unfold definitionAnswer
  cases resolution with
  | symbol id =>
    dsimp only
    split
    · exact fun _ _ => rfl
    · exact regular_none
  | noResult => exact regular_none
  | stale => exact regular_none
  | ambiguous candidates => exact regular_none

theorem passes_definition (humanOutput : Bool) (value : String) : context.Passes (context.definition humanOutput value) := by
  refine passes_bind fun resolution _ => ?_
  dsimp only
  have hregular := @regular_definitionAnswer context resolution
  split
  · split
    · next symbol hresult =>
      refine passes_bind fun line _ => passes_ok fun payload hfacts => ?_
      cases hfacts
      exact passed_of_gated hregular hresult
    · exact passes_error _
    · exact passes_ok (passed_none rfl)
  · exact passes_ok (passed_response hregular)

/-- An answer of `typeAt` is one of the gate. -/
theorem typeAt_gated {location : Location} {sourceText : String} {answer : QueryAnswer}
    (h : Kide.typeAt context.sha256 context.configuration context.files context.store location sourceText = .ok answer) :
    ∃ found : QueryAnswer, found.Regular ∧ (∀ payload, found.result = some payload → ∃ occurrence ty, payload = .typeAt occurrence ty) ∧
      answer = gated context.sha256 context.configuration context.files context.store found := by
  unfold Kide.typeAt at h
  split at h
  · obtain ⟨offset, -, h⟩ := bind_eq_ok_iff.1 h
    obtain ⟨found, -, h⟩ := bind_eq_ok_iff.1 h
    cases h
    refine ⟨_, ?_, ?_, rfl⟩
    · cases found with
      | none => exact regular_none
      | some found => exact fun _ _ => rfl
    · cases found with
      | none => exact fun _ hresult => by cases hresult
      | some found =>
        rintro payload ⟨⟩
        exact ⟨found.1, found.2, rfl⟩
  · cases h

theorem passes_typeAt (humanOutput : Bool) (value : String) : context.Passes (context.typeAtPosition humanOutput value) := by
  refine passes_bind fun location _ => ?_
  cases readToString context.files location.path with
  | none => exact passes_error _
  | some sourceText =>
    refine passes_bind fun answer hanswer => ?_
    obtain ⟨found, hregular, -, rfl⟩ := typeAt_gated (mapError_eq_ok_iff.1 hanswer)
    split
    · split
      · next occurrence ty hresult =>
        refine passes_ok fun payload hfacts => ?_
        cases hfacts
        exact passed_of_gated hregular hresult
      · exact passes_error _
      · exact passes_ok (passed_none rfl)
    · exact passes_ok fun payload hfacts => passed_of_gated hregular hfacts

theorem passes_symbols (short : Bool) (query : String) : context.Passes (context.symbols short query) := by
  refine passes_bind fun symbols _ => ?_
  dsimp only
  split
  · exact passes_ok (passed_none rfl)
  · split
    · exact passes_ok (passed_none rfl)
    · next hproblem =>
      split
      · refine passes_bind fun lines _ => passes_ok fun payload hfacts => ?_
        cases hfacts
        exact hproblem
      · refine passes_ok fun payload hfacts => ?_
        cases hfacts
        exact hproblem

theorem passes_selectSymbols (humanOutput : Bool) (arguments : SelectArguments) :
    context.Passes (context.selectSymbols humanOutput arguments) := by
  refine passes_bind fun applied _ => passes_bind fun result _ => ?_
  split
  · exact passes_ok (passed_withheld _)
  · next hproblem =>
    split
    · refine passes_bind fun lines _ => passes_ok fun payload hfacts => ?_
      cases hfacts
      exact hproblem
    · refine passes_ok fun payload hfacts => ?_
      cases hfacts
      exact hproblem

theorem passes_singly {reply : Except CommandFailure Reply} (h : context.Passes reply) {found : List Output × QueryStatus}
    (hfound : singly reply = .ok found) : ∀ output ∈ found.1, context.Passed output := by
  obtain ⟨⟨output, status⟩, hreply, hpair⟩ := bind_eq_ok_iff.1 hfound
  cases hpair
  intro other hother
  rw [List.mem_singleton.1 hother]
  exact h _ hreply

theorem passes_fanOut {targets : List String} {query : String → Except CommandFailure Reply} (h : ∀ target, context.Passes (query target))
    {found : List Output × QueryStatus} (hfound : fanOut targets query = .ok found) : ∀ output ∈ found.1, context.Passed output := by
  obtain ⟨replies, hreplies, hpair⟩ := bind_eq_ok_iff.1 hfound
  cases hpair
  intro output houtput
  obtain ⟨reply, hreply, rfl⟩ := List.mem_map.1 houtput
  obtain ⟨target, -, htarget⟩ := forall₂_exists_mem (mapM_eq_ok_iff.1 hreplies).flip hreply
  exact h target reply htarget

theorem run_passed (command : SemanticCommand) (humanOutput : Bool) : ∀ output ∈ context.printed command humanOutput,
    context.Passed output := by
  unfold printed
  cases hrun : context.run command humanOutput with
  | error error => exact fun _ h => absurd h List.not_mem_nil
  | ok found =>
    dsimp only
    cases command with
    | symbols query => exact passes_singly (passes_symbols humanOutput query) hrun
    | select arguments => exact passes_singly (passes_selectSymbols humanOutput arguments) hrun
    | definition target => exact passes_singly (passes_definition humanOutput target) hrun
    | refs targets =>
      exact passes_fanOut (fun _ => passes_onTarget fun _ => passes_answerFacts humanOutput _ _ _) hrun
    | implementations targets transitive =>
      exact passes_fanOut (fun _ => passes_onTarget fun _ => passes_bind fun _ _ => passes_answerFacts humanOutput _ _ _) hrun
    | callers targets =>
      exact passes_fanOut (fun _ => passes_onTarget fun _ => passes_answerFacts humanOutput _ _ _) hrun
    | typeAt location => exact passes_singly (passes_typeAt humanOutput location) hrun

/-- What a command prints is of inputs, and of owners that are no dependencies, as they were indexed. -/
def PrintsVerified (context : WorkspaceContext) (command : SemanticCommand) (humanOutput : Bool) : Prop :=
  ∀ output ∈ context.printed command humanOutput, ∀ payload, output.facts = some payload →
    configurationProblem context.sha256 context.configuration context.files context.store = none ∧
      OwnersUnchanged context.sha256 context.files context.store (ownerIds payload) ∧
        OwnersText context.files context.store (ownerIds payload)

/-- The workspace with one source file, as it was indexed. -/
def indexedMainContext : WorkspaceContext :=
  ⟨hexDigest, Char.isAlphanum, ArtifactLayout.wireReader, fun _ => none, freshOnlyConfiguration, mainFiles, indexedMain⟩

end WorkspaceContext

/-! ## The two outputs -/

/-- The output for people fails where the JSON fails, and where a location or a text cannot be printed. -/
def AgreesWith {α : Type} (same : α → α → Prop) (json human : Except CommandFailure α) : Prop :=
  (∃ source, human = .error (.printing source)) ∨
    match json, human with
    | .ok found, .ok other => same found other
    | .error error, .error other => error = other
    | _, _ => False

/-- The facts are the same, and one is `ok` if the other is. -/
def SameFacts (reply other : Reply) : Prop := reply.1.facts = other.1.facts ∧ (reply.2 = .ok ↔ other.2 = .ok)

def SameReply (reply other : Reply) : Prop := reply.1.facts = other.1.facts ∧ reply.2 = other.2

def SameOutputs (found other : List Output × QueryStatus) : Prop :=
  found.1.map Output.facts = other.1.map Output.facts ∧ found.2 = other.2

section
variable {α β : Type} {same : α → α → Prop} {json human : Except CommandFailure α}

theorem agreesWith_error (error : CommandFailure) : AgreesWith same (.error error) (.error error) := .inr rfl

theorem agreesWith_ok {found other : α} (h : same found other) : AgreesWith same (.ok found) (.ok other) := .inr h

/-- Both outputs go on from what was found for both. -/
theorem agreesWith_bind (found : Except CommandFailure β) {next other : β → Except CommandFailure α}
    (h : ∀ b, found = .ok b → AgreesWith same (next b) (other b)) : AgreesWith same (found >>= next) (found >>= other) := by
  cases found with
  | error error => exact agreesWith_error error
  | ok b => exact h b rfl

/-- One prints lines. -/
theorem agreesWith_lines {found : α} {lines : Except ReferenceError β} {next : β → α} (h : ∀ b, same found (next b)) :
    AgreesWith same (.ok found) (lines.mapError .printing >>= fun b => .ok (next b)) := by
  cases lines with
  | error source => exact .inl ⟨source, rfl⟩
  | ok b => exact agreesWith_ok (h b)

end

namespace WorkspaceContext
variable {context : WorkspaceContext}

theorem sameFacts_rfl (reply : Reply) : SameFacts reply reply := ⟨rfl, Iff.rfl⟩

theorem agrees_onTarget {value : String} {json human : SymbolId → Except CommandFailure Reply}
    (h : ∀ symbol, AgreesWith SameFacts (json symbol) (human symbol)) :
    AgreesWith SameFacts (context.onTarget value json) (context.onTarget value human) := by
  refine agreesWith_bind _ fun resolution _ => ?_
  cases resolution with
  | symbol symbol =>
    dsimp only
    split
    · exact agreesWith_ok (sameFacts_rfl _)
    · exact h symbol
  | noResult => exact agreesWith_ok (sameFacts_rfl _)
  | stale => exact agreesWith_ok (sameFacts_rfl _)
  | ambiguous candidates => exact agreesWith_ok (sameFacts_rfl _)

theorem printQueryResponse_ok (payload : QueryPayload) :
    context.printQueryResponse ⟨.ok, some payload, []⟩ =
      match context.problem payload with
      | some problem => context.withheld problem
      | none => (.response ⟨.ok, some payload, []⟩, .ok) := by
  unfold printQueryResponse gated problem
  dsimp only
  cases freshnessProblem context.sha256 context.configuration context.files context.store payload <;> rfl

theorem agrees_answerFacts (payload : QueryPayload) (nothing : String) (lines : Except ReferenceError (List String)) :
    AgreesWith SameFacts (context.answerFacts false payload nothing (lines.mapError .printing))
      (context.answerFacts true payload nothing (lines.mapError .printing)) := by
  have hhuman : context.answerFacts true payload nothing (lines.mapError .printing) =
      match context.problem payload with
      | some problem => .ok (context.withheld problem)
      | none =>
        if payload.isEmpty then .ok (.message nothing, .noResult)
        else lines.mapError .printing >>= fun lines => .ok (.short payload lines, .ok) := rfl
  have hjson : context.answerFacts false payload nothing (lines.mapError .printing) =
      .ok (context.printQueryResponse (queryResult payload)) := rfl
  rw [hhuman, hjson, queryResult]
  by_cases hempty : payload.isEmpty = true
  · rw [if_pos hempty]
    cases context.problem payload with
    | some problem => exact agreesWith_ok ⟨rfl, iff_of_false (fun h => by cases h) fun h => by cases h⟩
    | none =>
      dsimp only
      rw [if_pos hempty]
      exact agreesWith_ok ⟨rfl, Iff.rfl⟩
  · rw [if_neg hempty, printQueryResponse_ok]
    cases context.problem payload with
    | some problem => exact agreesWith_ok (sameFacts_rfl _)
    | none =>
      dsimp only
      rw [if_neg hempty]
      exact agreesWith_lines fun _ => ⟨rfl, Iff.rfl⟩

theorem agrees_definition (value : String) : AgreesWith SameReply (context.definition false value) (context.definition true value) := by
  refine agreesWith_bind _ fun resolution _ => ?_
  have hfacts : ∀ payload, (gated context.sha256 context.configuration context.files context.store
      (context.definitionAnswer resolution)).result = some payload → ∃ symbol, payload = .definition symbol := by
    intro payload hpayload
    have hanswer := gated_result hpayload
    unfold definitionAnswer at hanswer
    cases resolution with
    | symbol id =>
      dsimp only at hanswer
      split at hanswer
      · exact ⟨_, (Option.some.inj hanswer).symm⟩
      · cases hanswer
    | noResult => cases hanswer
    | stale => cases hanswer
    | ambiguous candidates => cases hanswer
  rw [if_neg (by decide), if_pos rfl]
  unfold printQueryResponse
  dsimp only
  generalize gated context.sha256 context.configuration context.files context.store (context.definitionAnswer resolution) = answer at *
  obtain ⟨status, result, problems⟩ := answer
  cases result with
  | none => exact agreesWith_ok ⟨rfl, rfl⟩
  | some payload =>
    obtain ⟨symbol, rfl⟩ := hfacts payload rfl
    exact agreesWith_lines fun _ => ⟨rfl, rfl⟩

theorem agrees_typeAt (value : String) :
    AgreesWith SameReply (context.typeAtPosition false value) (context.typeAtPosition true value) := by
  refine agreesWith_bind _ fun location _ => ?_
  cases readToString context.files location.path with
  | none => exact agreesWith_error _
  | some sourceText =>
    refine agreesWith_bind _ fun answer hanswer => ?_
    obtain ⟨found, -, htypes, rfl⟩ := typeAt_gated (mapError_eq_ok_iff.1 hanswer)
    have hfacts := fun payload hpayload => htypes payload (@gated_result context.sha256 context.configuration context.files context.store
      found payload hpayload)
    rw [if_neg (by decide), if_pos rfl]
    generalize gated context.sha256 context.configuration context.files context.store found = answer at *
    obtain ⟨status, result, problems⟩ := answer
    cases result with
    | none => exact agreesWith_ok ⟨rfl, rfl⟩
    | some payload =>
      obtain ⟨occurrence, ty, rfl⟩ := hfacts payload rfl
      exact agreesWith_ok ⟨rfl, rfl⟩

theorem agrees_symbols (query : String) : AgreesWith SameReply (context.symbols false query) (context.symbols true query) := by
  refine agreesWith_bind _ fun symbols _ => ?_
  dsimp only
  split
  · exact agreesWith_ok ⟨rfl, rfl⟩
  · split
    · exact agreesWith_ok ⟨rfl, rfl⟩
    · exact agreesWith_lines fun _ => ⟨rfl, rfl⟩

theorem agrees_selectSymbols (arguments : SelectArguments) :
    AgreesWith SameReply (context.selectSymbols false arguments) (context.selectSymbols true arguments) := by
  refine agreesWith_bind _ fun applied _ => agreesWith_bind _ fun result _ => ?_
  split
  · exact agreesWith_ok ⟨rfl, rfl⟩
  · exact agreesWith_lines fun _ => ⟨rfl, rfl⟩

theorem agrees_singly {json human : Except CommandFailure Reply} (h : AgreesWith SameReply json human) :
    AgreesWith SameOutputs (singly json) (singly human) := by
  obtain ⟨source, rfl⟩ | h := h
  · exact .inl ⟨source, rfl⟩
  · cases json with
    | error error =>
      cases human with
      | error other => exact .inr h
      | ok other => exact absurd h id
    | ok found =>
      cases human with
      | error other => exact absurd h id
      | ok other => exact .inr ⟨congrArg (fun facts => [facts]) h.1, h.2⟩

/-- The replies to targets in both outputs. -/
theorem agrees_mapM {targets : List String} {json human : String → Except CommandFailure Reply}
    (h : ∀ target, AgreesWith SameFacts (json target) (human target)) :
    AgreesWith (List.Forall₂ SameFacts) (targets.mapM json) (targets.mapM human) := by
  induction targets with
  | nil => exact agreesWith_ok .nil
  | cons target targets ih =>
    rw [List.mapM_cons, List.mapM_cons]
    obtain ⟨source, hsource⟩ | hfirst := h target
    · exact .inl ⟨source, by rw [hsource]; rfl⟩
    cases hjson : json target with
    | error error =>
      cases hhuman : human target with
      | error other =>
        rw [hjson, hhuman] at hfirst
        exact .inr hfirst
      | ok other =>
        rw [hjson, hhuman] at hfirst
        exact absurd hfirst id
    | ok found =>
      cases hhuman : human target with
      | error other =>
        rw [hjson, hhuman] at hfirst
        exact absurd hfirst id
      | ok other =>
        rw [hjson, hhuman] at hfirst
        rw [ok_bind, ok_bind]
        obtain ⟨source, hsource⟩ | hrest := ih
        · exact .inl ⟨source, by rw [hsource]; rfl⟩
        cases hjsons : targets.mapM json with
        | error error =>
          cases hhumans : targets.mapM human with
          | error other =>
            rw [hjsons, hhumans] at hrest
            exact .inr hrest
          | ok others =>
            rw [hjsons, hhumans] at hrest
            exact absurd hrest id
        | ok founds =>
          cases hhumans : targets.mapM human with
          | error other =>
            rw [hjsons, hhumans] at hrest
            exact absurd hrest id
          | ok others =>
            rw [hjsons, hhumans] at hrest
            exact agreesWith_ok (.cons hfirst hrest)

theorem any_ok_of_sameFacts {replies others : List Reply} (h : List.Forall₂ SameFacts replies others) :
    replies.any (·.2 = .ok) = others.any (·.2 = .ok) := by
  induction h with
  | nil => rfl
  | cons hfirst hrest ih =>
    rw [List.any_cons, List.any_cons, ih]
    congr 1
    exact decide_eq_decide.2 hfirst.2

theorem agrees_fanOut (targets : List String) {json human : String → Except CommandFailure Reply}
    (h : ∀ target, AgreesWith SameFacts (json target) (human target)) :
    AgreesWith SameOutputs (fanOut targets json) (fanOut targets human) := by
  unfold fanOut
  dsimp only
  obtain ⟨source, hsource⟩ | hreplies := agrees_mapM h
  · exact .inl ⟨source, by rw [hsource]; rfl⟩
  cases hjson : ((targets.insertionSort (· ≤ ·)).destutter (· ≠ ·)).mapM json with
  | error error =>
    cases hhuman : ((targets.insertionSort (· ≤ ·)).destutter (· ≠ ·)).mapM human with
    | error other =>
      rw [hjson, hhuman] at hreplies
      exact .inr hreplies
    | ok others =>
      rw [hjson, hhuman] at hreplies
      exact absurd hreplies id
  | ok replies =>
    cases hhuman : ((targets.insertionSort (· ≤ ·)).destutter (· ≠ ·)).mapM human with
    | error other =>
      rw [hjson, hhuman] at hreplies
      exact absurd hreplies id
    | ok others =>
      rw [hjson, hhuman] at hreplies
      have hfacts : (replies.map Prod.fst).map Output.facts = (others.map Prod.fst).map Output.facts := by
        rw [List.map_map, List.map_map]
        rw [← List.forall₂_eq_eq_eq, List.forall₂_map_left_iff, List.forall₂_map_right_iff]
        exact hreplies.imp fun _ _ hsame => hsame.1
      exact agreesWith_ok ⟨hfacts, congrArg (fun found => if found = true then QueryStatus.ok else .noResult)
        (any_ok_of_sameFacts hreplies)⟩

/-- **One command, two outputs.** They fail on the same targets with the same error, or end in one status with the same facts;
for people a command fails also where a line cannot be printed. -/
theorem human_output_agrees (context : WorkspaceContext) (command : SemanticCommand) :
    AgreesWith SameOutputs (context.run command false) (context.run command true) := by
  cases command with
  | symbols query => exact agrees_singly (agrees_symbols query)
  | select arguments => exact agrees_singly (agrees_selectSymbols arguments)
  | definition target => exact agrees_singly (agrees_definition target)
  | refs targets => exact agrees_fanOut targets fun _ => agrees_onTarget fun _ => agrees_answerFacts _ _ _
  | implementations targets transitive =>
    exact agrees_fanOut targets fun _ => agrees_onTarget fun _ => agreesWith_bind _ fun _ _ => agrees_answerFacts _ _ _
  | callers targets => exact agrees_fanOut targets fun _ => agrees_onTarget fun _ => agrees_answerFacts _ _ _
  | typeAt location => exact agrees_singly (agrees_typeAt location)

end WorkspaceContext

/-! ## Printed places -/

/-- `format!("{path}:{line}:{column}")` -/
def placeText (path : WorkspacePath) (place : Nat × Nat) : String := path.asStr ++ ":" ++ toString place.1 ++ ":" ++ toString place.2

/-- A printed place is taken for a location, at the offset that it was printed for. -/
def LeadsTo (printed : String) (path : WorkspacePath) (text : String) (offset : Nat) : Prop :=
  isSymbolId printed = false ∧
    ∃ location, parseLocation printed = .ok location ∧ location.path = path ∧ byteOffset text location.position = .ok offset

/-- There is a path, which does not begin as a symbol id does, and a cut with a line and a column that can be written. -/
def Addressable (path : WorkspacePath) (text : String) (offset : Nat) : Prop :=
  path.asStr ≠ "" ∧ isSymbolId (path.asStr ++ ":") = false ∧
    ∃ before after, text.toList = before ++ after ∧ byteLength before = offset ∧ FitsPosition before ∧ ¬ AtOpenEnd before after

theorem beforeLast_append {front after : List Char} (h : ':' ∉ after) : beforeLast (front ++ ':' :: after) = some front := by
  have hmem : ':' ∈ front ++ ':' :: after := List.mem_append_right _ List.mem_cons_self
  have hskip : (after.reverse ++ (':' :: front.reverse)).dropWhile (· ≠ ':') = ':' :: front.reverse := by
    have hafter : ∀ c ∈ after.reverse, decide (c ≠ ':') = true := by
      rintro c hc
      refine decide_eq_true ?_
      rintro rfl
      exact h (List.mem_reverse.1 hc)
    rw [List.dropWhile_append_of_pos hafter, List.dropWhile_cons_of_neg (by decide)]
  rw [beforeLast, if_pos hmem, List.reverse_append, List.reverse_cons, List.append_assoc, List.singleton_append, hskip,
    List.tail_cons, List.reverse_reverse]

/-- Two fields without colons behind a path. -/
theorem parseLocation_fields {front : String} {line column : List Char} (hline : ':' ∉ line) (hcolumn : ':' ∉ column) :
    parseLocation (String.ofList (front.toList ++ ':' :: (line ++ ':' :: column))) =
      (parseCoordinate column >>= fun column => parseCoordinate line >>= fun line =>
        if front = "" then .error (.bail LOCATION_FORM) else .ok ⟨⟨front⟩, ⟨line, column⟩⟩) := by
  have hsplit : front.toList ++ ':' :: (line ++ ':' :: column) = (front.toList ++ ':' :: line) ++ ':' :: column := by simp
  unfold parseLocation
  rw [String.toList_ofList, hsplit, afterLast_append_sep hcolumn, beforeLast_append hcolumn]
  dsimp only
  rw [afterLast_append_sep hline, beforeLast_append hline]
  by_cases hfront : front = ""
  · subst hfront
    rfl
  · have hne : front.toList ≠ [] := fun hnil => hfront (String.toList_eq_nil_iff.1 hnil)
    rw [Option.filter_some, if_pos (decide_eq_true hne)]
    simp only [String.ofList_toList, if_neg hfront]

theorem parseCoordinate_toDigits (n : Nat) :
    parseCoordinate (Nat.toDigits 10 n) = if n < 2 ^ 32 then .ok (UInt32.ofNat n) else .error .notANumber := by
  have hparse : ProjectQuery.parseU32 (Nat.toDigits 10 n) = if n < 2 ^ 32 then some n else none := by
    rw [ProjectQuery.parseU32, ProjectQuery.dropPrefix?_toDigits (by decide), Option.getD_none, ProjectQuery.parseDigits_toDigits,
      Option.filter_some]
    simp only [decide_eq_true_eq]
  rw [parseCoordinate, hparse]
  by_cases h : n < 2 ^ 32
  · rw [if_pos h, if_pos h]
  · rw [if_neg h, if_neg h]

theorem placeText_eq (path : WorkspacePath) (place : Nat × Nat) :
    placeText path place =
      String.ofList (path.asStr.toList ++ ':' :: (Nat.toDigits 10 place.1 ++ ':' :: Nat.toDigits 10 place.2)) := by
  refine String.toList_injective ?_
  simp [placeText, Nat.toString_eq_repr, Nat.toList_repr]

theorem colon_notMem_toDigits (n : Nat) : ':' ∉ Nat.toDigits 10 n := by
  intro hmem
  have hdigit := Nat.isDigit_of_mem_toDigits (by decide) (by decide) hmem
  exact absurd hdigit (by decide)

/-- A printed place is read back where its numbers fit. -/
theorem parseLocation_placeText_iff {path : WorkspacePath} {place : Nat × Nat} {location : Location} :
    parseLocation (placeText path place) = .ok location ↔ path.asStr ≠ "" ∧ place.1 < 2 ^ 32 ∧ place.2 < 2 ^ 32 ∧
      location = ⟨path, ⟨UInt32.ofNat place.1, UInt32.ofNat place.2⟩⟩ := by
  rw [placeText_eq, parseLocation_fields (colon_notMem_toDigits _) (colon_notMem_toDigits _), parseCoordinate_toDigits,
    parseCoordinate_toDigits]
  by_cases hcolumn : place.2 < 2 ^ 32
  · by_cases hline : place.1 < 2 ^ 32
    · rw [if_pos hcolumn, if_pos hline, ok_bind, ok_bind]
      by_cases hpath : path.asStr = ""
      · rw [if_pos hpath]
        exact iff_of_false (fun h => by cases h) fun h => h.1 hpath
      · rw [if_neg hpath, Except.ok.injEq]
        exact ⟨fun h => ⟨hpath, hline, hcolumn, h.symm⟩, fun h => h.2.2.2.symm⟩
    · rw [if_pos hcolumn, if_neg hline]
      exact iff_of_false (fun h => by cases h) fun h => hline h.2.1
  · rw [if_neg hcolumn]
    exact iff_of_false (fun h => by cases h) fun h => hcolumn h.2.2.1

def noDigitBehindColon : List Char → Bool
  | [] => true
  | c :: rest => (c != ':' || rest.head?.all fun d => !d.isDigit) && noDigitBehindColon rest

theorem noDigitBehindColon_append {front after : List Char} (h : noDigitBehindColon (front ++ ':' :: after) = true) :
    ∀ d ∈ after.head?, d.isDigit = false := by
  induction front with
  | nil =>
    intro d hd
    rw [List.nil_append, noDigitBehindColon, Bool.and_eq_true, bne_self_eq_false, Bool.false_or, Option.all_eq_true] at h
    exact Bool.not_eq_eq_eq_not.mp (h.1 d hd)
  | cons c front ih =>
    rw [List.cons_append, noDigitBehindColon, Bool.and_eq_true] at h
    exact ih h.2

/-- Behind a colon of a symbol id's beginning stands no digit. -/
theorem symbolId_start_digits : ∀ start ∈ ["jvm:sha256:".toList, "kotlin:".toList, "java:".toList],
    noDigitBehindColon start = true := by
  rintro start hstart
  obtain rfl | rfl | rfl := by simpa only [List.mem_cons, List.not_mem_nil, or_false] using hstart
  · rfl
  · rfl
  · rfl

/-- So a printed place begins as a symbol id does only if its path and the colon behind it do. -/
theorem isSymbolId_placeText (path : WorkspacePath) (place : Nat × Nat) :
    isSymbolId (placeText path place) = isSymbolId (path.asStr ++ ":") := by
  have hpath : (path.asStr ++ ":").toList = path.asStr.toList ++ [':'] := by simp
  unfold isSymbolId
  rw [placeText_eq, String.toList_ofList, hpath]
  have hstart : ∀ start ∈ ["jvm:sha256:".toList, "kotlin:".toList, "java:".toList],
      (start <+: path.asStr.toList ++ ':' :: (Nat.toDigits 10 place.1 ++ ':' :: Nat.toDigits 10 place.2) ↔
        start <+: path.asStr.toList ++ [':']) := by
    intro start hstart
    have hcolon : path.asStr.toList ++ [':'] <+:
        path.asStr.toList ++ ':' :: (Nat.toDigits 10 place.1 ++ ':' :: Nat.toDigits 10 place.2) :=
      ⟨Nat.toDigits 10 place.1 ++ ':' :: Nat.toDigits 10 place.2, by simp⟩
    refine ⟨fun hprefix => ?_, fun hprefix => hprefix.trans hcolon⟩
    obtain hshort | ⟨after, hlong⟩ := List.prefix_or_prefix_of_prefix hprefix hcolon
    · exact hshort
    obtain ⟨rest, hrest⟩ := hprefix
    have hstart' : start = path.asStr.toList ++ ':' :: after := by rw [← hlong, List.append_assoc, List.singleton_append]
    have hdigits := noDigitBehindColon_append (hstart' ▸ symbolId_start_digits start hstart)
    cases after with
    | nil => exact ⟨[], by rw [← hlong]; simp⟩
    | cons d after =>
      rw [← hlong, List.append_assoc, List.append_assoc, List.append_cancel_left_eq, List.singleton_append, List.cons.injEq,
        List.cons_append] at hrest
      cases hfirst : Nat.toDigits 10 place.1 with
      | nil => exact absurd hfirst (ProjectQuery.toDigits_ne_nil _)
      | cons c digits =>
        rw [hfirst, List.cons_append, List.cons.injEq] at hrest
        have hmem : d ∈ Nat.toDigits 10 place.1 := by
          rw [hfirst, hrest.2.1]
          exact List.mem_cons_self
        exact absurd (Nat.isDigit_of_mem_toDigits (by decide) (by decide) hmem) (Bool.eq_false_iff.1 (hdigits d rfl))
  refine Bool.eq_iff_iff.2 ?_
  rw [List.any_eq_true, List.any_eq_true]
  refine exists_congr fun start => and_congr_right fun hmem => ?_
  rw [List.isPrefixOf_iff_prefix, List.isPrefixOf_iff_prefix]
  exact hstart start.toList (List.mem_map_of_mem hmem)

/-- What is printed for an offset of a text that is read leads to the offset exactly if the offset is addressable. -/
theorem leadsTo_iff {store : IndexStore} {reads : WorkspacePath → Option String} {unit : SourceUnit} {id : SourceUnitId}
    (hunit : store.sourceUnit id = some unit) {text : String} (hread : reads unit.path = some text) (offset : Nat) :
    ∃ printed, shortSourceLocation store reads id offset = .ok printed ∧
      (LeadsTo printed unit.path text offset ↔ Addressable unit.path text offset) := by
  have hplace : (byteToLocationSliced text.toList offset).mapError ReferenceError.panicked = .ok (byteToLocation text offset) := by
    rw [byteToLocationSliced_eq]
    rfl
  unfold shortSourceLocation
  rw [hunit]
  dsimp only
  rw [hread]
  dsimp only
  rw [hplace, ok_bind]
  unfold byteToLocation
  cases hcut : splitAtByte text.toList offset with
  | none =>
    refine ⟨_, rfl, iff_of_false ?_ ?_⟩
    · rintro ⟨-, location, hlocation, -⟩
      have hfields : unit.path.asStr ++ ":byte:" ++ toString offset =
          String.ofList (unit.path.asStr.toList ++ ':' :: ("byte".toList ++ ':' :: Nat.toDigits 10 offset)) := by
        refine String.toList_injective ?_
        simp [Nat.toString_eq_repr, Nat.toList_repr]
      rw [hfields, parseLocation_fields (by decide) (colon_notMem_toDigits _)] at hlocation
      obtain ⟨column, -, hrest⟩ := bind_eq_ok_iff.1 hlocation
      obtain ⟨line, hline, -⟩ := bind_eq_ok_iff.1 hrest
      have hbyte : parseCoordinate "byte".toList = .error .notANumber := rfl
      rw [hbyte] at hline
      cases hline
    · rintro ⟨-, -, before, after, hsplit, hoffset, -⟩
      rw [splitAtByte_eq_some_iff.2 ⟨hsplit, hoffset⟩] at hcut
      cases hcut
  | some cut =>
    obtain ⟨before, after⟩ := cut
    obtain ⟨hsplit, hoffset⟩ := splitAtByte_eq_some_iff.1 hcut
    refine ⟨placeText unit.path (before.count '\n' + 1, (afterLast '\n' before).length + 1), rfl, ?_⟩
    unfold LeadsTo Addressable
    rw [isSymbolId_placeText]
    simp only [parseLocation_placeText_iff]
    constructor
    · rintro ⟨hid, location, ⟨hpath, hline, hcolumn, rfl⟩, -, hfound⟩
      obtain ⟨before', after', hsplit', -, -, hoffset', hopen⟩ := byteOffset_eq_ok_iff.1 hfound
      obtain ⟨rfl, rfl⟩ := append_inj_of_byteLength (hsplit'.symm.trans hsplit) (hoffset'.trans hoffset.symm)
      exact ⟨hpath, hid, _, _, hsplit', hoffset', ⟨hline, hcolumn⟩, hopen⟩
    · rintro ⟨hpath, hid, before', after', hsplit', hoffset', ⟨hline, hcolumn⟩, hopen⟩
      obtain ⟨rfl, rfl⟩ := append_inj_of_byteLength (hsplit'.symm.trans hsplit) (hoffset'.trans hoffset.symm)
      refine ⟨hid, _, ⟨hpath, hline, hcolumn, rfl⟩, rfl, byteOffset_eq_ok_iff.2 ⟨_, _, hsplit', ?_, ?_, hoffset', hopen⟩⟩
      · exact (UInt32.toNat_ofNat_of_lt' hline).symm
      · exact (UInt32.toNat_ofNat_of_lt' hcolumn).symm

/-- The symbol is what a target stands for, or one of what it stands for. -/
def TargetResolution.Includes (symbol : SymbolId) : TargetResolution → Prop
  | .symbol id => id = symbol
  | .ambiguous candidates => symbol ∈ candidates
  | .noResult => False
  | .stale => False

theorem LocationResolution.Decides.includes {resolution : LocationResolution} {targets : SymbolId → Prop}
    (h : resolution.Decides targets) {symbol : SymbolId} (hsymbol : targets symbol) : resolution.target.Includes symbol := by
  cases resolution with
  | symbol id => exact ((h symbol).1 hsymbol).symm
  | noResult => exact h.elim
  | ambiguous candidates => exact (h.1 symbol).1 hsymbol

section
variable {store : IndexStore} {live : List FileAnalysisSnapshot} {snapshot : FileAnalysisSnapshot}

theorem Holds.sourceUnit_eq (h : Holds store live) (hs : snapshot ∈ live) :
    store.sourceUnit snapshot.id = some snapshot.sourceUnit := by
  have hrow : snapshot.snapshotRow ∈ store.sourceSnapshots := by
    rw [h.sourceSnapshots]
    exact List.mem_map_of_mem hs
  obtain ⟨row, hfound⟩ : ∃ row, store.sourceSnapshots.find? (·.sourceUnitId = snapshot.id) = some row :=
    Option.isSome_iff_exists.1 (List.find?_isSome.2 ⟨_, hrow, decide_eq_true rfl⟩)
  have hmem := List.mem_of_find?_eq_some hfound
  have hid := List.find?_some hfound
  rw [h.sourceSnapshots] at hmem
  obtain ⟨other, hother, rfl⟩ := List.mem_map.1 hmem
  obtain rfl := List.inj_on_of_nodup_map h.ids_nodup hother hs (of_decide_eq_true hid)
  rw [IndexStore.sourceUnit, hfound]
  rfl

/-- **What is printed for a reference is a target.** Given back to a command while the file is as it was indexed, the line and
the column printed for a reference stand for what it refers to, at every addressable place. -/
theorem printed_reference_leads_back {context : WorkspaceContext} (h : Holds context.store live) (hs : snapshot ∈ live)
    (hpath : ∀ other ∈ live, other.sourceUnit.path = snapshot.sourceUnit.path → other = snapshot) {text : String}
    (hread : readToString context.files snapshot.sourceUnit.path = some text)
    (hcurrent : context.checkSource snapshot.sourceUnit.path text = .ok true) {reference : SourceOccurrence}
    (hreference : reference ∈ snapshot.occurrences) (hrange : reference.range.bytes.start < reference.range.bytes.stop)
    (hfits : reference.range.bytes.start < OFFSET_LIMIT) {symbol : SymbolId} (hsymbol : reference.target = some symbol) :
    ∃ printed, shortSourceLocation context.store (readToString context.files) snapshot.id reference.range.bytes.start = .ok printed ∧
      (LeadsTo printed snapshot.sourceUnit.path text reference.range.bytes.start ↔
        Addressable snapshot.sourceUnit.path text reference.range.bytes.start) ∧
      (Addressable snapshot.sourceUnit.path text reference.range.bytes.start →
        ∃ resolution, context.resolveTarget printed = .ok resolution ∧ resolution.Includes symbol) := by
  obtain ⟨printed, hprinted, hleads⟩ := leadsTo_iff (h.sourceUnit_eq hs) hread reference.range.bytes.start
  refine ⟨printed, hprinted, hleads, fun haddressable => ?_⟩
  obtain ⟨hid, location, hlocation, hsource, hoffset⟩ := hleads.2 haddressable
  obtain ⟨resolution, hresolution, hdecides, -⟩ := h.resolveLocation_ok hs hpath hsource hoffset hfits
  have hdesignated : Designated snapshot.occurrences reference.range.bytes.start symbol :=
    ⟨reference, hreference, ⟨Nat.le_refl _, hrange⟩, hsymbol⟩
  refine ⟨resolution.target, ?_, (hdecides ⟨symbol, hdesignated⟩).includes hdesignated⟩
  unfold WorkspaceContext.resolveTarget
  rw [if_neg (Bool.eq_false_iff.1 hid), hlocation]
  dsimp only
  rw [hsource, hread]
  dsimp only
  rw [hcurrent, ok_bind, if_pos rfl, hresolution]
  rfl

theorem readToString_of_text {files : WorkspaceFiles} {path : WorkspacePath} {text : String}
    (h : files.read path = some text.toByteArray.data.toList) : readToString files path = some text := by
  have hbytes : text.toByteArray.data.toList.toByteArray = text.toByteArray := ByteArray.ext (by simp)
  rw [readToString, h, Option.bind_some, hbytes]
  exact dif_pos text.isValidUTF8

/-- The file of the generic type, indexed with this text. -/
def genericUseContext (text : String) : WorkspaceContext :=
  ⟨fun _ => "a", Char.isAlphanum, ArtifactLayout.wireReader, fun _ => none, freshOnlyConfiguration,
    ⟨fun _ => some text.toByteArray.data.toList, [], fun _ => true, fun _ => [], []⟩, holding genericUse⟩

theorem generic_argument_leads_back :
    ∃ printed, shortSourceLocation (holding genericUse) (readToString (genericUseContext "List<Widget>").files) genericUse.id 5 =
        .ok printed ∧
      (LeadsTo printed usesSource.path "List<Widget>" 5 ↔ Addressable usesSource.path "List<Widget>" 5) ∧
      (Addressable usesSource.path "List<Widget>" 5 →
        ∃ resolution, (genericUseContext "List<Widget>").resolveTarget printed = .ok resolution ∧ resolution.Includes ⟨"Widget"⟩) :=
  have hread : readToString (genericUseContext "List<Widget>").files usesSource.path = some "List<Widget>" := readToString_of_text rfl
  have hcurrent : (genericUseContext "List<Widget>").checkSource usesSource.path "List<Widget>" = .ok true := by rfl
  @printed_reference_leads_back [genericUse] genericUse (genericUseContext "List<Widget>") genericUse_holds (List.mem_singleton.2 rfl)
    (fun _ hother _ => List.mem_singleton.1 hother) _ hread hcurrent (typeUse 5 11 "Widget") (by decide) (by decide) (by decide) _ rfl

end

end Kide
