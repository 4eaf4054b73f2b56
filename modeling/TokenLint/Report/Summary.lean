import TokenLint.Diagnostic.Basic

/-!
# Counting diagnostics

The totals shown at the end of a report, and the policy by which warnings are left out or
taken as errors.
-/

namespace TokenLint.Report

/-- Totals by severity; whatever is neither error nor warning counts as information. -/
structure Summary where
  errors : Nat := 0
  warnings : Nat := 0
  infos : Nat := 0
  fixable : Nat := 0
  deriving DecidableEq, Inhabited

/-- Counts one more diagnostic. -/
def Summary.count (s : Summary) (d : Diagnostic) : Summary :=
  let s := if d.fixable then { s with fixable := s.fixable + 1 } else s
  if d.severity = .error then { s with errors := s.errors + 1 }
  else if d.severity = .warning then { s with warnings := s.warnings + 1 }
  else { s with infos := s.infos + 1 }

/-- The totals of diagnostics. -/
def summarize (ds : List Diagnostic) : Summary := ds.foldl Summary.count {}

/-- A number of things. -/
def plural (n : Nat) (word : Text) : Text :=
  if n = 1 then "1 " ++ word else Text.ofNat n ++ " " ++ word ++ "s"

/-- The totals in words. -/
def Summary.line (s : Summary) : Text :=
  if s.errors = 0 && s.warnings = 0 && s.infos = 0 then "no problems found"
  else
    plural s.errors "error" ++ ", " ++ plural s.warnings "warning" ++ " ("
      ++ Text.ofNat s.fixable ++ " fixable)"

/-- What is done about warnings. -/
structure WarningPolicy where
  /-- Leave them out. -/
  ignore : Bool := false
  /-- Take them as errors. -/
  asErrors : Bool := false
  deriving DecidableEq, Inhabited

/-- A diagnostic under a policy. -/
def WarningPolicy.apply? (p : WarningPolicy) (d : Diagnostic) : Option Diagnostic :=
  if d.severity ≠ .warning then some d
  else if p.ignore then none
  else if p.asErrors then some { d with severity := .error }
  else some d

/-- The diagnostics under a policy. -/
def WarningPolicy.apply (p : WarningPolicy) (ds : List Diagnostic) : List Diagnostic :=
  ds.filterMap p.apply?

end TokenLint.Report
