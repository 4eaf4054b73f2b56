import TokenLint.Json
import TokenLint.Report.Style
import TokenLint.Text.Blank

/-!
# About the program

What is known about a build of the program, and how the program introduces itself.
-/

namespace TokenLint

/-- What is known about a build; empty where nothing is known. -/
structure BuildInfo where
  version : Text := []
  commit : Text := []
  commitMessage : Text := []
  date : Text := []
  deriving DecidableEq, Inhabited

namespace BuildInfo

/-- The name of the program. -/
def programName : Text := "typo3update"

/-- What the program is about. -/
def tagline : Text := "get() what you used to create()"

/-- This build. -/
def current : BuildInfo := { version := "0.1.0-dev" }

/-- Without white space around; a version without a name is one under development. -/
def trimmed (b : BuildInfo) : BuildInfo :=
  let version := Text.trimBlank b.version
  { version := if version = [] then "dev" else version
    commit := Text.trimBlank b.commit
    commitMessage := Text.trimBlank b.commitMessage
    date := Text.trimBlank b.date }

/-- The patch number and what follows it from the first sign on. -/
def splitPatch (t : Text) : Text × Text :=
  (t.takeWhile fun b => b ≠ 45 && b ≠ 43, t.dropWhile fun b => b ≠ 45 && b ≠ 43)

/-- A version with its three numbers in different colours; other versions stay plain. -/
def paintVersion (version : Text) (colour : Bool) : Text :=
  if !colour then version
  else match Text.splitFirst 46 version with
    | none => version
    | some (major, rest) =>
      match Text.splitFirst 46 rest with
      | none => version
      | some (minor, rest) =>
        let (patch, suffix) := splitPatch rest
        Report.Colour.boldYellow.paint true major ++ "." ++ Report.Colour.boldGreen.paint true minor
          ++ "." ++ Report.Colour.boldBlue.paint true patch ++ suffix

/-- What is shown of a build. -/
structure Shown where
  commit : Bool := false
  commitMessage : Bool := false
  date : Bool := false
  colour : Bool := false
  deriving DecidableEq, Inhabited

/-- What is not known is said to be unknown. -/
def orUnknown (t : Text) : Text := if t = [] then "unknown" else t

/-- A build in words. -/
def words (b : BuildInfo) (s : Shown) : Text :=
  programName ++ " " ++ paintVersion b.version s.colour ++ ": " ++ tagline ++ "\n"
    ++ Text.onlyIf s.commit ("commit:  " ++ orUnknown b.commit ++ "\n")
    ++ Text.onlyIf s.commitMessage ("message: " ++ orUnknown b.commitMessage ++ "\n")
    ++ Text.onlyIf s.date ("built:   " ++ orUnknown b.date ++ "\n")

/-- A build as a JSON document. -/
def document (b : BuildInfo) (s : Shown) : Text :=
  Json.document Json.markup (Json.ofMembers
    [Json.member "tool" (.string programName),
     Json.member "version" (.string b.version),
     Json.member "tagline" (.string tagline),
     Json.memberIf s.commit "git_commit" (.string (orUnknown b.commit)),
     Json.memberIf s.commitMessage "git_message" (.string (orUnknown b.commitMessage)),
     Json.memberIf s.date "build_date" (.string (orUnknown b.date))])

end BuildInfo

end TokenLint
