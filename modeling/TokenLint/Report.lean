import TokenLint.Report.JsonReport
import TokenLint.Report.Sarif
import TokenLint.Report.Short

/-!
# Reports

Writing diagnostics in one of the formats. A report is the list of the pieces in which it
is written; JSON is written in one piece.
-/

namespace TokenLint.Report

/-- The options of a report, for all formats. -/
structure Options where
  pretty : PrettyOptions := {}
  json : JsonOptions := {}
  sarif : SarifMeta := {}
  deriving DecidableEq, Inhabited

/-- A report on a list in which some places may be empty. -/
def write (format : Format) (o : Options) (fs : Option FileSet) (items : List (Option Diagnostic)) :
    List Text :=
  let ds := items.filterMap id
  match format with
  | .pretty => Report.pretty o.pretty fs ds
  | .json => [Json.document Json.plain (jsonReport o.json fs items)]
  | .sarif => [Json.document Json.plain (Report.sarif o.sarif fs ds)]
  | .short =>
    match short fs o.pretty.notes ds with
    | [] => []
    | t => [t ++ [10]]

/-- Is it an error when the output refuses a piece? The pretty report is written as far as the
output takes it, and nobody is told. -/
def failsWithOutput (format : Format) : Bool := format ≠ .pretty

end TokenLint.Report
