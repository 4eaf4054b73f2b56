import TokenLint.Diagnostic.Fix
import TokenLint.Diagnostic.Severity

/-!
# Diagnostics

A diagnostic is one finding of a rule at a token, possibly with notes elsewhere and fixes
that remove it.
-/

namespace TokenLint

/-- A remark at a token. -/
structure Note where
  pos : Pos := {}
  message : Text := []
  deriving DecidableEq, Inhabited

/-- A finding. -/
structure Diagnostic where
  severity : Severity := .info
  code : Code := []
  /-- The rule that found it. -/
  rule : Text := []
  message : Text := []
  primary : Pos := {}
  /-- What the message is about. -/
  data : List Text := []
  notes : List Note := []
  fixes : List Fix := []
  deriving Inhabited

namespace Diagnostic

/-- Is a fix offered? -/
def fixable (d : Diagnostic) : Bool := !d.fixes.isEmpty

/-- The code with its rule. -/
def qualifiedCode (d : Diagnostic) : Text := Code.qualified d.code d.rule

/-- With more data. -/
def withData (d : Diagnostic) (data : List Text) : Diagnostic := { d with data := d.data ++ data }

/-- With one more note. -/
def withNote (d : Diagnostic) (pos : Pos) (message : Text) : Diagnostic :=
  { d with notes := d.notes ++ [⟨pos, message⟩] }

/-- With one more fix. -/
def withFix (d : Diagnostic) (f : Fix) : Diagnostic := { d with fixes := d.fixes ++ [f] }

/-- The order of diagnostics: by file, then token, then falling severity, then code. -/
def before (a b : Diagnostic) : Bool :=
  if a.primary.file ≠ b.primary.file then a.primary.file < b.primary.file
  else if a.primary.token ≠ b.primary.token then a.primary.token < b.primary.token
  else if a.severity ≠ b.severity then b.severity.rank < a.severity.rank
  else a.code < b.code

/-- Sorted; diagnostics that the order does not tell apart keep their places. -/
def sort (ds : List Diagnostic) : List Diagnostic := ds.mergeSort fun a b => !before b a

/-- What makes two diagnostics the same to a reader. -/
structure Key where
  code : Code
  rule : Text
  severity : Severity
  pos : Pos
  message : Text
  deriving DecidableEq, Inhabited

/-- The key of a diagnostic. -/
def key (d : Diagnostic) : Key := ⟨d.code, d.rule, d.severity, d.primary, d.message⟩

end Diagnostic

end TokenLint
