import TokenLint.Json
import TokenLint.Report.Pretty

/-!
# The JSON report

For programs: the diagnostics with everything that is known about them, their number, and
totals. The list may be cut; the totals are those of all diagnostics.
-/

namespace TokenLint.Report

/-- What a JSON report shows. -/
structure JsonOptions where
  paths : PathStyle := .auto
  /-- How many diagnostics at most; all if not positive. -/
  max : Int := 0
  notes : Bool := false
  fixes : Bool := false
  previews : Bool := false
  deriving DecidableEq, Inhabited

/-- A place. Unknown lines and columns are left out. -/
def locationJson (o : JsonOptions) (fs : Option FileSet) (pos : Pos) : Json :=
  let lc := lineColumn fs pos
  Json.ofMembers
    [Json.member "file" (.string (filePath fs pos.file o.paths)),
     Json.member "token" (Json.ofNat pos.token.toNat),
     Json.memberIf (lc.line ≠ 0) "line" (Json.ofNat lc.line.toNat),
     Json.memberIf (lc.column ≠ 0) "column" (Json.ofNat lc.column.toNat)]

/-- An edit. -/
def editJson (o : JsonOptions) (fs : Option FileSet) (e : TokenEdit) : Json :=
  let preview := if o.previews then preview? fs e else none
  let before := (preview.map (·.before)).getD []
  let after := (preview.map (·.after)).getD []
  Json.ofMembers
    [Json.member "location" (locationJson o fs e.pos),
     Json.member "new_text" (.string e.newText),
     Json.memberIf (e.oldText ≠ []) "old_text" (.string e.oldText),
     Json.memberIf (!before.isEmpty) "before_lines" (Json.ofTexts before),
     Json.memberIf (!after.isEmpty) "after_lines" (Json.ofTexts after)]

/-- A fix, or why it cannot be built. -/
def fixJson (o : JsonOptions) (fs : Option FileSet) (f : Fix) : Json :=
  match f.resolve fs with
  | .error e =>
    Json.ofMembers
      [Json.member "title" (.string f.plan.title),
       Json.member "kind" (.string f.plan.kind.label),
       Json.member "applicability" (.string f.plan.applicability.label),
       Json.member "build_error" (.string e.message)]
  | .ok p =>
    Json.ofMembers
      [Json.memberIf (p.id ≠ []) "id" (.string p.id),
       Json.member "title" (.string p.title),
       Json.member "kind" (.string p.kind.label),
       Json.member "applicability" (.string p.applicability.label),
       Json.memberIf p.preferred "is_preferred" (.bool true),
       Json.memberIf (!p.edits.isEmpty) "edits" (.array (p.edits.map (editJson o fs)))]

/-- A note. -/
def noteJson (o : JsonOptions) (fs : Option FileSet) (n : Note) : Json :=
  Json.ofMembers
    [Json.member "message" (.string n.message), Json.member "location" (locationJson o fs n.pos)]

/-- A diagnostic. -/
def diagnosticJson (o : JsonOptions) (fs : Option FileSet) (d : Diagnostic) : Json :=
  Json.ofMembers
    [Json.member "severity" (.string d.severity.label),
     Json.member "code" (.string (Code.shown d.code)),
     Json.memberIf (d.rule ≠ []) "source" (.string d.qualifiedCode),
     Json.member "message" (.string d.message),
     Json.memberIf (!d.data.isEmpty) "data" (Json.ofTexts d.data),
     Json.member "fixable" (.bool d.fixable),
     Json.member "location" (locationJson o fs d.primary),
     Json.memberIf (o.notes && !d.notes.isEmpty) "notes" (.array (d.notes.map (noteJson o fs))),
     Json.memberIf (o.fixes && d.fixable) "fixes"
       (.array ((sortedFixes d.fixes).map (fixJson o fs)))]

/-- Totals. -/
def Summary.json (s : Summary) : Json :=
  .object
    [("errors", Json.ofNat s.errors), ("warnings", Json.ofNat s.warnings),
     ("infos", Json.ofNat s.infos), ("fixable", Json.ofNat s.fixable)]

/-- The places that are shown. -/
def shownItems {α : Type} (max : Int) (items : List α) : List α :=
  if 0 < max then items.take max.toNat else items

/-- The report on a list in which some places may be empty. -/
def jsonReport (o : JsonOptions) (fs : Option FileSet) (items : List (Option Diagnostic)) : Json :=
  let shown := (shownItems o.max items).filterMap id
  .object
    [("diagnostics", .array (shown.map (diagnosticJson o fs))),
     ("count", Json.ofNat shown.length),
     ("summary", (summarize (items.filterMap id)).json)]

end TokenLint.Report
