import TokenLint.Json
import TokenLint.Report.Pretty
import TokenLint.Table

/-!
# The static analysis log

A report in the Static Analysis Results Interchange Format 2.1.0: one run with the tool, a
table of the rules that found something, and the results in order.
-/

namespace TokenLint.Report

/-- About the run. -/
structure SarifMeta where
  toolName : Text := []
  toolVersion : Text := []
  arguments : List Text := []
  deriving DecidableEq, Inhabited

/-- A row of the rule table. -/
structure SarifRule where
  id : Text
  description : Text
  deriving DecidableEq, Inhabited

/-- A result. -/
structure SarifResult where
  ruleId : Text
  level : Text
  message : Text
  uri : Text
  /-- Where in the file; nothing if the line is not known. -/
  region : Option LineColumn
  deriving DecidableEq, Inhabited

/-- The descriptions of the rules of diagnostics; the last one of a rule counts. -/
def descriptions (ds : List Diagnostic) : List (Text × Text) :=
  ds.foldl (fun rules d => Table.assign rules d.qualifiedCode (Code.title d.code)) []

/-- The rule table of diagnostics, in the byte order of the identifiers. -/
def sarifRules (ds : List Diagnostic) : List SarifRule :=
  let rules := descriptions ds
  ((rules.map (·.1)).mergeSort Text.le).map fun id => ⟨id, (rules.lookup id).getD []⟩

/-- The result for a diagnostic. -/
def sarifResult (fs : Option FileSet) (d : Diagnostic) : SarifResult :=
  let lc := lineColumn fs d.primary
  { ruleId := d.qualifiedCode, level := d.severity.level, message := d.message
    uri := filePath fs d.primary.file .relative
    region := if 0 < lc.line then some lc else none }

/-- A text in an object of its own. -/
def messageJson (t : Text) : Json := .object [("text", .string t)]

/-- A row of the rule table. -/
def SarifRule.json (r : SarifRule) : Json :=
  .object [("id", .string r.id), ("shortDescription", messageJson r.description)]

/-- A region; an unknown column is left out. -/
def regionJson (lc : LineColumn) : Json :=
  Json.ofMembers
    [Json.member "startLine" (Json.ofNat lc.line.toNat),
     Json.memberIf (lc.column ≠ 0) "startColumn" (Json.ofNat lc.column.toNat)]

/-- A result. -/
def SarifResult.json (r : SarifResult) : Json :=
  let physical := Json.ofMembers
    [Json.member "artifactLocation" (.object [("uri", .string r.uri)]),
     r.region.map fun lc => ("region", regionJson lc)]
  .object
    [("ruleId", .string r.ruleId), ("level", .string r.level), ("message", messageJson r.message),
     ("locations", .array [.object [("physicalLocation", physical)]])]

/-- The tool with its rule table; an empty table is left out. -/
def sarifDriver (about : SarifMeta) (rules : List SarifRule) : Json :=
  Json.ofMembers
    [Json.member "name" (.string about.toolName),
     Json.memberIf (about.toolVersion ≠ []) "version" (.string about.toolVersion),
     Json.memberIf (!rules.isEmpty) "rules" (.array (rules.map SarifRule.json))]

/-- The run. -/
def sarifRun (about : SarifMeta) (fs : Option FileSet) (ds : List Diagnostic) : Json :=
  let invocation := Json.object
    [("arguments", Json.ofTexts about.arguments), ("executionSuccessful", .bool true)]
  Json.ofMembers
    [Json.member "tool" (.object [("driver", sarifDriver about (sarifRules ds))]),
     Json.memberIf (!about.arguments.isEmpty) "invocations" (.array [invocation]),
     Json.member "results" (.array (ds.map fun d => (sarifResult fs d).json))]

/-- The whole log. -/
def sarif (about : SarifMeta) (fs : Option FileSet) (ds : List Diagnostic) : Json :=
  .object
    [("$schema", .string "https://json.schemastore.org/sarif-2.1.0.json"),
     ("version", .string "2.1.0"), ("runs", .array [sarifRun about fs ds])]

end TokenLint.Report
