import TokenLint.Command.Settings
import TokenLint.Fix.Summary

/-!
# The fix command

Runs the rules over the dumps of a target, applies fixes, and writes the changed dumps back.
-/

namespace TokenLint.Command

/-- Which fixes are asked for. Naming one implies the mode that takes one by its name. -/
def fixRequest (line : CommandLine) : Except Text Fixing.Request :=
  let word := line.text "mode" "once"
  let id := line.text "id" []
  match Fixing.Mode.ofName? word with
  | none => .error (Fixing.Mode.unknown word)
  | some mode =>
    if id = [] then
      if mode = .byId then .error "--mode=id requires --id" else .ok { mode := mode }
    else if (line.text? "mode").isSome && mode ≠ .byId then
      .error ("--id cannot be combined with --mode=" ++ word)
    else .ok { mode := .byId, id := id }

/-- Writes the dump of a file that was changed. -/
def writeChange (fs : FileSet) (d : Disk) (change : Fixing.FileChange) :
    Except DumpFileError Disk :=
  match fs.get? change.file with
  | some f =>
    if f.flags.modified && !f.flags.isVirtual then d.writeDump f.path ⟨f.origin, f.tokens⟩ else .ok d
  | none => .ok d

/-- Fixes a target. -/
def fix (host : Host) (line : CommandLine) (target : Text) : Action Unit := do
  let request ← Action.orFail (fixRequest line)
  let dryRun := line.isOn "dry-run"
  let s ← resolveSettings host line target
  let (base, paths) ← targetsOf "fix" target
  let outcome ← runRules s base paths
  Action.warn (loadErrors outcome.results)
  if outcome.results.any (·.error.isSome) then throw .problemsFound
  let span := (← get).session.spans.size
  Action.trace (·.start 0 .command "fix")
  let (fs, done, problem) := Fixing.apply outcome.files (Run.diagnostics outcome.results) request
  Action.phase "fix" (Text.ofNat done.applied.length ++ " applied")
  Action.trace (·.finish span request.id)
  if problem.isNone && !dryRun then
    let written := done.changes.foldlM (writeChange fs) (← get).disk
    Action.phase "write" (fileCount done.changes.length)
    let d ← Action.orFail (written.mapError fun e => "fix: " ++ e.message)
    set { ← get with disk := d }
  let (text, left) := Fixing.summary done problem dryRun
  Action.print text
  Action.printTimings s.timed
  match left with
  | some p => Action.fail p.message
  | none => return

end TokenLint.Command
