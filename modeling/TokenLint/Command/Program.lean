import TokenLint.Command.Check
import TokenLint.Command.Fix
import TokenLint.Command.Show
import TokenLint.Command.Subcommand

/-!
# The program

What the program does with its command line: it finds the subcommand, reads the options, sets
up profiles and tracing, does the work, and cleans up. A complaint goes to the output for
complaints and makes the program fail.
-/

namespace TokenLint.Command

/-- What is left when the program has ended. -/
structure Ended where
  exitCode : Nat := 0
  out : Text := []
  err : Text := []
  disk : Disk := {}
  deriving DecidableEq, Inhabited

/-! ## Profiles

Only the files of profiles are modelled, not what is in them. -/

/-- Creates the file of a profile that is written during the run. -/
def startProfile (path : Text) : Action Unit := do
  if path ≠ [] then
    Action.onDisk (·.store path []) ("failed to start profiling: " ++ ·)

/-- Starts the profiles. -/
def startProfiles (line : CommandLine) : Action Unit := do
  startProfile (line.text "cpu-profile" [])
  startProfile (line.text "runtime-trace" [])

/-- Writes the profile that is written at the end. -/
def stopProfiles (line : CommandLine) : Action Unit := do
  let path := line.text "mem-profile" []
  if path ≠ [] then
    match (← get).disk.store path [] with
    | .ok d => modify fun c => { c with disk := d }
    | .error e => Action.warn ("profile: " ++ e.message ++ "\n")

/-! ## Tracing -/

/-- The tracer that the options ask for; none if nothing is traced. An output without a level
traces phases, a level without an output goes to the output for complaints. -/
def traceConfig (line : CommandLine) : Except Text (Option Trace.Config) :=
  let word := line.text "trace-level" "off"
  let path := line.text "trace" []
  match Trace.Level.ofName? word with
  | none => .error ("invalid trace level: " ++ Trace.Level.invalid word)
  | some level =>
    let level := if level = .off && path ≠ [] then .phase else level
    if level = .off then .ok none
    else
      let word := line.text "trace-mode" "stream"
      match Trace.StorageMode.ofName? word with
      | none => .error ("invalid trace mode: " ++ Trace.StorageMode.invalid word)
      | some mode =>
        .ok (some
          { level := level, mode := mode, path := if path = [] then "-" else path
            ringSize := (line.number? "trace-ring-size").getD Trace.Ring.defaultCapacity })

/-- Starts tracing. The file of a trace that is written during the run is created now. -/
def startTracing (config : Trace.Config) : Action Unit := do
  if config.mode ≠ .ring && config.path ≠ "-" then
    Action.onDisk (·.store config.path [])
      ("failed to create tracer: failed to open trace output: " ++ ·)
  let tracer ← Action.orFail (config.tracer.mapError ("failed to create tracer: " ++ ·))
  modify fun c => { c with session := { tracer := tracer } }

/-- Writes what was traced. A ring of its own is written only now. -/
def stopTracing (config : Trace.Config) : Action Unit := do
  let c ← get
  let text := match c.session.tracer with
    | .single (.ring r) => r.dump .text
    | _ => c.session.written
  if config.path = "-" then Action.warn text
  else
    match c.disk.store config.path text with
    | .ok d => set { c with disk := d }
    | .error e => Action.warn ("trace: dump error: " ++ e.message ++ "\n")

/-! ## Running -/

/-- The work of a subcommand. -/
def work (host : Host) (s : Subcommand) (line : CommandLine) (words : List Text) : Action Unit :=
  let target := line.arguments.headD []
  match s with
  | .check => check host line words target
  | .fix => fix host line target
  | .tokens => showTokens line target
  | .render => renderSource line target
  | .version => showVersion host line
  | .help | .completion => return

/-- The work of a subcommand between setting up and cleaning up. -/
def supervised (host : Host) (s : Subcommand) (line : CommandLine) (words : List Text) :
    Action Unit := do
  startProfiles line
  let attempt (a : Action Unit) : Action (Except Failure Unit) := fun c =>
    let (r, c) := a.run c
    (.ok r, c)
  let result ← attempt do
    match ← Action.orFail (traceConfig line) with
    | none => work host s line words
    | some config =>
      startTracing config
      let r ← attempt (work host s line words)
      stopTracing config
      liftExcept r
  stopProfiles line
  liftExcept result
where
  /-- Fails as something else has. -/
  liftExcept (r : Except Failure Unit) : Action Unit :=
    match r with
    | .ok () => pure ()
    | .error e => throw e

/-- What the program says about itself. -/
def helpText : Text :=
  "Usage: " ++ BuildInfo.programName ++ " [command]\n\nCommands:\n"
    ++ Subcommand.all.flatMap fun s => Text.ofString "  " ++ s.name ++ [Text.newline]

/-- The complaint about a wrong number of arguments. -/
def wrongArity (n : Nat) : Text := "accepts 1 arg(s), received " ++ Text.ofNat n

/-- Everything the program does. -/
def program (host : Host) (words : List Text) : Action Unit := do
  let (s, rest) ← Action.orFail (findSubcommand words)
  let line ← Action.orFail ((CommandLine.read (optionsOf s) rest).mapError (·.message))
  if line.isOn "help" then Action.print helpText
  else match s with
    | none =>
      if line.isOn "version" then
        Action.print (BuildInfo.programName ++ " version " ++ BuildInfo.current.trimmed.version ++ "\n")
      else Action.print helpText
    | some .help | some .completion => Action.print helpText
    | some s =>
      if s.needsTarget && line.arguments.length ≠ 1 then
        Action.fail (wrongArity line.arguments.length)
      else supervised host s line words

/-- Runs the program. -/
def run (host : Host) (words : List Text) : Ended :=
  let (r, c) := (program host words).run { disk := host.disk }
  let ended : Ended := { out := c.out, err := c.err, disk := c.disk }
  match r with
  | .ok () => ended
  | .error .problemsFound => { ended with exitCode := 1 }
  | .error (.complaint t) =>
    { ended with exitCode := 1, err := c.err ++ BuildInfo.programName ++ ": " ++ t ++ "\n" }

end TokenLint.Command
