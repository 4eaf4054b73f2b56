import TokenLint.Diagnostic.Bag
import TokenLint.Report.Preview
import TokenLint.Report.Style
import TokenLint.Report.Summary

/-!
# The pretty report

For people: one line per diagnostic, and on request notes, fixes with previews, and totals.
A report is the list of pieces in which it is written.
-/

namespace TokenLint.Report

/-- What a pretty report shows. -/
structure PrettyOptions where
  colour : Bool := false
  paths : PathStyle := .auto
  notes : Bool := false
  fixes : Bool := false
  preview : Bool := false
  summary : Bool := false
  /-- Show codes with their rules. -/
  qualified : Bool := false
  deriving DecidableEq, Inhabited

/-- Does a fix come first? Preferred ones do, then safer ones, then by title. -/
def fixBefore (a b : Fix) : Bool :=
  if a.plan.preferred ≠ b.plan.preferred then a.plan.preferred
  else if a.plan.applicability ≠ b.plan.applicability then
    a.plan.applicability.rank < b.plan.applicability.rank
  else a.plan.title < b.plan.title

/-- The fixes in the order in which they are shown. -/
def sortedFixes (fs : List Fix) : List Fix := fs.mergeSort fun a b => !fixBefore b a

/-- A severity in its colour. -/
def paintSeverity (colour : Bool) (s : Severity) : Text :=
  let c : Colour :=
    if s = .error then .boldRed else if s = .warning then .boldYellow else .cyan
  c.paint colour s.label

/-- The lines of a preview. -/
def previewPieces (o : PrettyOptions) (p : Preview) : List Text :=
  [Text.ofString "    preview:\n"]
    ++ p.before.map (fun l => "      " ++ Colour.red.paint o.colour ("- " ++ l) ++ "\n")
    ++ p.after.map (fun l => "      " ++ Colour.green.paint o.colour ("+ " ++ l) ++ "\n")

/-- The lines for an edit. -/
def editPieces (o : PrettyOptions) (fs : Option FileSet) (e : TokenEdit) : List Text :=
  ["    " ++ location fs e.pos o.paths ++ ": apply=" ++ Text.quoted e.newText]
    ++ (if e.oldText = [] then [] else [" expect=" ++ Text.quoted e.oldText])
    ++ [Text.ofString "\n"]
    ++ (if o.preview then ((preview? fs e).map (previewPieces o)).getD [] else [])

/-- The lines for a fix, which has a number. -/
def fixPieces (o : PrettyOptions) (fs : Option FileSet) (f : Fix × Nat) : List Text :=
  let number := "  fix #" ++ Text.ofNat (f.2 + 1) ++ ": "
  match f.1.resolve fs with
  | .error e => [number ++ f.1.plan.title ++ " (unavailable: " ++ e.message ++ ")\n"]
  | .ok p =>
    [number ++ p.title ++ " [" ++ p.applicability.label ++ "]"]
      ++ (if p.id = [] then [] else [" id=" ++ p.id])
      ++ [Text.ofString "\n"]
      ++ p.edits.flatMap (editPieces o fs)

/-- The lines for a note. -/
def notePiece (o : PrettyOptions) (fs : Option FileSet) (n : Note) : Text :=
  "  note: " ++ location fs n.pos o.paths ++ ": " ++ n.message ++ "\n"

/-- The lines for a diagnostic. -/
def diagnosticPieces (o : PrettyOptions) (fs : Option FileSet) (d : Diagnostic) : List Text :=
  let code := if o.qualified then d.qualifiedCode else Code.shown d.code
  [Colour.bold.paint o.colour (location fs d.primary o.paths) ++ ": "
      ++ paintSeverity o.colour d.severity ++ " " ++ Colour.magenta.paint o.colour code ++ ": "
      ++ d.message]
    ++ (if d.fixable then [Colour.faint.paint o.colour " [fixable]"] else [])
    ++ [Text.ofString "\n"]
    ++ (if o.notes then d.notes.map (notePiece o fs) else [])
    ++ (if o.fixes then (sortedFixes d.fixes).zipIdx.flatMap (fixPieces o fs) else [])

/-- A pretty report. -/
def pretty (o : PrettyOptions) (fs : Option FileSet) (ds : List Diagnostic) : List Text :=
  ds.flatMap (diagnosticPieces o fs)
    ++ (if o.summary then [(summarize ds).line ++ "\n"] else [])

/-- A pretty report on a bag, which also says how many diagnostics did not fit. -/
def prettyBag (o : PrettyOptions) (fs : Option FileSet) (b : Bag) : List Text :=
  pretty o fs b.items.toList
    ++ (if o.summary && 0 < b.dropped then
          [Text.ofNat b.dropped ++ " more diagnostics dropped ("
            ++ Code.title Code.tooManyDiagnostics ++ ")\n"]
        else [])

end TokenLint.Report
