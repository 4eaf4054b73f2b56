import TokenLint.BuildInfo
import TokenLint.Command.Settings
import TokenLint.Report.Summary

/-!
# The check command

Runs the rules over the dumps of a target and reports what they find. The command fails if
a file could not be loaded, or if errors are reported.
-/

namespace TokenLint.Command

/-- The diagnostics that are reported. -/
def reported (policy : Report.WarningPolicy) (results : List (Run.FileResult DumpFileError)) :
    List Diagnostic :=
  policy.apply (Run.diagnostics results)

/-- Does a check of files fail? -/
def checkFails (policy : Report.WarningPolicy) (results : List (Run.FileResult DumpFileError)) :
    Bool :=
  results.any (·.error.isSome) || 0 < (Report.summarize (reported policy results)).errors

/-- The options of the report. -/
def reportOptions (s : Settings) (line : CommandLine) (words : List Text) : Report.Options :=
  let notes := line.isOn "with-notes"
  let fixes := line.isOn "suggest"
  let preview := line.isOn "preview"
  { pretty :=
      { colour := s.colour, paths := s.paths, notes := notes, fixes := fixes, preview := preview
        summary := !s.quiet, qualified := line.isOn "qualified" }
    json := { paths := s.paths, notes := notes, fixes := fixes, previews := preview }
    sarif :=
      { toolName := BuildInfo.programName, toolVersion := BuildInfo.current.trimmed.version
        arguments := words } }

/-- Checks a target with given settings. -/
def checkTarget (s : Settings) (policy : Report.WarningPolicy) (options : Report.Options)
    (target : Text) : Action Unit := do
  let (base, paths) ← targetsOf "check" target
  let outcome ← runRules s base paths
  Action.warn (loadErrors outcome.results)
  let items := (reported policy outcome.results).map some
  Action.print (Report.write s.format options (some outcome.files) items).flatten
  Action.phase "report" s.format.name
  Action.printTimings s.timed
  if checkFails policy outcome.results then throw .problemsFound

/-- Checks a target. -/
def check (host : Host) (line : CommandLine) (words : List Text) (target : Text) : Action Unit := do
  let s ← resolveSettings host line target
  let policy : Report.WarningPolicy := ⟨line.isOn "no-warnings", line.isOn "warnings-as-errors"⟩
  if policy.ignore && policy.asErrors then
    Action.fail "--no-warnings and --warnings-as-errors are mutually exclusive"
  checkTarget s policy (reportOptions s line words) target

end TokenLint.Command
