import TokenLint.Fix.Apply

/-!
# What the fix command says

The lines printed after fixes were applied, or would have been.
-/

namespace TokenLint.Fixing

/-- The line for an applied fix. -/
def appliedLine (a : Applied) : Text :=
  "  " ++ a.title ++ " [" ++ a.id ++ "] at "
    ++ (if a.path = [] then Text.ofString "(unknown location)" else a.path)
    ++ " (" ++ Text.ofNat a.editCount ++ " edits, " ++ a.applicability.label ++ ")\n"

/-- The line for a changed file. -/
def changeLine (c : FileChange) : Text :=
  "  " ++ c.path ++ " (" ++ Text.ofNat c.editCount ++ " edits)\n"

/-- The line for a skipped fix. -/
def skippedLine (s : Skipped) : Text :=
  let id := if s.id = [] then Text.ofString "(unnamed)" else s.id
  if s.title = [] then "  [" ++ id ++ "]: " ++ s.reason ++ "\n"
  else "  " ++ s.title ++ " [" ++ id ++ "]: " ++ s.reason ++ "\n"

/-- The lines about applied fixes. -/
def appliedLines (dryRun : Bool) (as : List Applied) : Text :=
  if as.isEmpty then []
  else
    (if dryRun then Text.ofString "Would apply " else Text.ofString "Applied ")
      ++ Text.ofNat as.length ++ " fix(es):\n" ++ as.flatMap appliedLine

/-- The lines about changed files. -/
def changeLines (dryRun : Bool) (cs : List FileChange) : Text :=
  if cs.isEmpty then []
  else
    (if dryRun then Text.ofString "Files that would change:\n" else Text.ofString "Updated files:\n")
      ++ cs.flatMap changeLine

/-- The lines about skipped fixes. -/
def skippedLines (ss : List Skipped) : Text :=
  if ss.isEmpty then [] else "Skipped fixes:\n" ++ ss.flatMap skippedLine

/-- Everything that is printed, and the problem that is left. That there was nothing to fix
is printed and is no problem. -/
def summary (o : Outcome) (problem : Option Problem) (dryRun : Bool) : Text × Option Problem :=
  let lines := appliedLines dryRun o.applied ++ changeLines dryRun o.changes ++ skippedLines o.skipped
  match problem with
  | some .noFixes =>
    if o.applied.isEmpty then (lines ++ "No applicable fixes found.\n", none)
    else (lines, problem)
  | _ => (lines, problem)

end TokenLint.Fixing
