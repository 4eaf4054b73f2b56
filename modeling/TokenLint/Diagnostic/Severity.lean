import TokenLint.Text

/-!
# Severities and codes

How serious a finding is, and what it is called. Severities are numbers so that they can be
compared; numbers beyond the three known ones are possible and have no name.
-/

namespace TokenLint

/-- How serious a finding is. -/
structure Severity where
  rank : UInt8 := 0
  deriving DecidableEq, Inhabited

namespace Severity

/-- For information only. -/
def info : Severity := ⟨0⟩

/-- A warning. -/
def warning : Severity := ⟨1⟩

/-- An error. -/
def error : Severity := ⟨2⟩

/-- The name of a severity. -/
def label (s : Severity) : Text :=
  if s = info then "INFO"
  else if s = warning then "WARNING"
  else if s = error then "ERROR"
  else "UNKNOWN"

/-- The name of a severity in a static analysis log. -/
def level (s : Severity) : Text :=
  if s = error then "error" else if s = warning then "warning" else "note"

/-- The name of a severity in the short report. -/
def word (s : Severity) : Text :=
  if s = error then "error" else if s = warning then "warning" else "info"

end Severity

/-- What kind of finding a diagnostic is; empty when unknown. -/
abbrev Code := Text

namespace Code

/-- A method that may be deprecated. -/
def mightBeDeprecatedMethod : Code := Text.ofString "mightBeDeprecatedMethod"

/-- A class name of the past. -/
def legacyClassname : Code := Text.ofString "legacyClassname"

/-- A rule that crashed. -/
def sniffPanic : Code := Text.ofString "internal.sniffPanic"

/-- More diagnostics than a bag holds. -/
def tooManyDiagnostics : Code := Text.ofString "internal.tooManyDiagnostics"

/-- The code as it is shown. -/
def shown (c : Code) : Text := if c = [] then Text.ofString "unknown" else c

/-- A description of the known codes; other codes describe themselves. -/
def title (c : Code) : Text :=
  if c = [] then Text.ofString "Unknown problem"
  else if c = mightBeDeprecatedMethod then Text.ofString "ObjectManager::create is deprecated"
  else if c = legacyClassname then Text.ofString "Legacy class name"
  else if c = sniffPanic then Text.ofString "Sniff failed while processing a token"
  else if c = tooManyDiagnostics then Text.ofString "Diagnostic limit reached"
  else c

/-- The code with the rule it comes from. -/
def qualified (c : Code) (rule : Text) : Text :=
  if rule = [] then shown c else rule ++ (46 : UInt8) :: shown c

end Code

end TokenLint
