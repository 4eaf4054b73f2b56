import TokenLint.BuildInfo
import TokenLint.Command.Console
import TokenLint.Command.Switch
import TokenLint.Dump.File
import TokenLint.Report.Tokens

/-!
# Commands that show something

The tokens of a dump, the source text a dump stands for, and what is known about the
program.
-/

namespace TokenLint.Command

/-- Reads the dump of a command. -/
def readTarget (target : Text) : Action Dump := do
  Action.orFail (((← get).disk.readDump target).mapError (·.message))

/-- Lists the tokens of a dump. -/
def showTokens (line : CommandLine) (target : Text) : Action Unit := do
  let dump ← readTarget target
  let format := line.text "format" "pretty"
  if format = "pretty" then Action.print (Report.tokenLines dump.tokens).flatten
  else if format = "json" then
    Action.print (Json.document Json.plain (Report.tokensJson dump.tokens))
  else Action.fail ("unknown format: " ++ format)

/-- Writes the source text of a dump: to the output, to a file, or to the file it came from. -/
def renderSource (line : CommandLine) (target : Text) : Action Unit := do
  let output := line.text "output" []
  let dump ← readTarget target
  let inPlace := line.isOn "in-place"
  if inPlace && output ≠ [] then Action.fail "--in-place and --output are mutually exclusive"
  if inPlace && dump.path = [] then
    Action.fail (target ++ ": dump does not record its source path")
  let path := if inPlace then dump.path else output
  if path = [] || path = "-" then Action.print dump.tokens.source
  else Action.onDisk (·.store path dump.tokens.source) id

/-- Shows what is known about the program. -/
def showVersion (host : Host) (line : CommandLine) : Action Unit := do
  let full := line.isOn "full"
  let colour ← Action.orFail (Switch.ofColourValue (line.text "color" "auto"))
  let shown : BuildInfo.Shown :=
    { commit := full || line.isOn "hash", commitMessage := full || line.isOn "message"
      date := full || line.isOn "date", colour := colour.isOn host.terminal }
  let info := BuildInfo.current.trimmed
  let format := line.text "format" "pretty"
  if Text.lower format = "json" then Action.print (info.document shown)
  else if Text.lower format = "pretty" then Action.print (info.words shown)
  else Action.fail ("unsupported format " ++ Text.quoted format ++ " (must be pretty or json)")

end TokenLint.Command
