import TokenLint.Command.Console
import TokenLint.Command.Switch
import TokenLint.Config
import TokenLint.Report
import TokenLint.Rule.ObjectManager
import TokenLint.Run.Tracing

/-!
# Settings of a run

The settings file of a project and the options of the command line, of which the latter
win.
-/

namespace TokenLint.Command

/-- What a run needs to know. -/
structure Settings where
  classes : ClassMap := {}
  format : Report.Format := .pretty
  paths : PathStyle := .auto
  maxDiagnostics : Int := 0
  jobs : Int := 0
  colour : Bool := false
  quiet : Bool := false
  /-- Are phases timed? -/
  timed : Bool := false
  deriving DecidableEq, Inhabited

/-- The rules of a run. -/
def Settings.rules (s : Settings) : Registry :=
  .ofList [some (ObjectManager.rule { replacement? := some s.classes.replacement? })]

/-- A settings file with the options that were given in place of its values. -/
def overridden (config : Config) (line : CommandLine) : Config :=
  { config with
    maxDiagnostics := (line.number? "max-diagnostics").getD config.maxDiagnostics
    format := line.text "format" config.format
    paths := line.text "paths" config.paths
    jobs := (line.number? "jobs").getD config.jobs }

/-- Loads the class map of a project, which is a span of its own. -/
def loadClasses (host : Host) (config : Config) : Action ClassMap := do
  let c ← get
  let span := c.session.spans.size
  let r := config.loadClassMap c.disk host.cacheDir
  if config.classMapPath ≠ [] then Action.trace (·.start 0 .command "classmap")
  set { ← get with disk := r.disk }
  Action.warn r.warnings
  match r.result with
  | .error e =>
    Action.trace (·.finish span config.classMapPath)
    Action.fail ("classmap: " ++ e.message)
  | .ok (own, classes) =>
    if config.classMapPath ≠ [] then
      Action.trace fun s =>
        (s.annotate span "classes" (Text.ofNat own.size)).finish span config.classMapPath
    return classes

/-- The settings of a run on a target. -/
def resolveSettings (host : Host) (line : CommandLine) (target : Text) : Action Settings := do
  let loaded := Config.choose (← get).disk (line.text "config" []) target
  let config ← Action.orFail ((loaded.map (overridden · line)).mapError (·.message))
  let format ← Action.present (Report.Format.ofName? config.format)
    (Report.Format.invalid config.format)
  let paths ← Action.present (PathStyle.ofName? config.paths) (PathStyle.invalid config.paths)
  let colour ← Action.orFail (Switch.ofColourValue (line.text "color" "auto"))
  let _ ← Action.orFail (Switch.ofProgressValue (line.text "ui" "auto"))
  let classes ← loadClasses host config
  Action.phase "settings" config.path
  return { classes := classes, format := format, paths := paths
           maxDiagnostics := config.maxDiagnostics, jobs := config.jobs
           colour := colour.isOn host.terminal, quiet := line.isOn "quiet"
           timed := line.isOn "timings" }

/-- Files in words. -/
def fileCount (n : Nat) : Text := Text.ofNat n ++ " file(s)"

/-- Runs the rules over the dumps of a target. -/
def runRules (s : Settings) (base : Text) (paths : List Text) : Action Run.Outcome := do
  let plan := Run.Plan.ofPaths s.rules s.maxDiagnostics s.jobs (← get).disk base paths
  let outcome := Run.processFiles plan
  Action.trace (Run.traceFiles plan outcome 0)
  Action.phase "sniff" (fileCount paths.length)
  return outcome

/-- The lines about files that could not be loaded. -/
def loadErrors (results : List (Run.FileResult DumpFileError)) : Text :=
  results.flatMap fun r => match r.error with
    | some e => "error: " ++ r.path ++ ": " ++ e.message ++ "\n"
    | none => []

/-- The dumps of a target. -/
def targetsOf (name target : Text) : Action (Text × List Text) := do
  Action.orFail (((← get).disk.targets target).mapError fun e => name ++ ": " ++ e.message)

end TokenLint.Command
