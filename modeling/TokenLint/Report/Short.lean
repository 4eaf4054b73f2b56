import TokenLint.Report.Style
import TokenLint.Diagnostic.Basic

/-!
# The short report

One line for every diagnostic, and on request for every note, ordered by path, line, column,
severity, code and message. Lines that differ only in the remark that a fix is offered stay in
the order of the diagnostics. Messages are put on one line.
-/

namespace TokenLint.Report

/-- A line before it is written. -/
structure ShortEntry where
  severity : Text
  code : Text
  path : Text
  line : UInt32
  column : UInt32
  message : Text
  fixable : Bool
  deriving DecidableEq, Inhabited

/-- Line breaks of all kinds become blanks. -/
def flatten : Text → Text
  | 13 :: 10 :: rest => 32 :: flatten rest
  | 13 :: rest => 32 :: flatten rest
  | 10 :: rest => 32 :: flatten rest
  | b :: rest => b :: flatten rest
  | [] => []

/-- A message on one line, without white space at its ends. -/
def oneLine (t : Text) : Text := Text.trimBlank (flatten t)

/-- A path without leading steps into the current directory. -/
def dropDotSlash : Text → Text
  | 46 :: 47 :: rest => dropDotSlash rest
  | t => t

/-- The path of a file in a short report. -/
def shortPath (fs : FileSet) (file : UInt32) : Text :=
  match fs.get? file with
  | none => "?"
  | some f => dropDotSlash (f.formatPath fs.workDir .relative fs.base)

/-- The entry of a place. -/
def shortEntry (fs : FileSet) (severity : Text) (code : Code) (pos : Pos) (message : Text)
    (fixable : Bool) : ShortEntry :=
  let lc := fs.resolve pos
  { severity := severity, code := Code.shown code, path := shortPath fs pos.file
    line := lc.line, column := lc.column, message := oneLine message, fixable := fixable }

/-- The entries of a diagnostic: its own, and on request those of its notes. -/
def shortEntries (fs : FileSet) (notes : Bool) (d : Diagnostic) : List ShortEntry :=
  shortEntry fs d.severity.word d.code d.primary d.message d.fixable
    :: (if notes then
          d.notes.map fun n => shortEntry fs "note" d.code n.pos n.message false
        else [])

/-- The order of entries. -/
def ShortEntry.before (a b : ShortEntry) : Bool :=
  if a.path ≠ b.path then a.path < b.path
  else if a.line ≠ b.line then a.line < b.line
  else if a.column ≠ b.column then a.column < b.column
  else if a.severity ≠ b.severity then a.severity < b.severity
  else if a.code ≠ b.code then a.code < b.code
  else a.message < b.message

/-- An entry as a line. -/
def ShortEntry.render (e : ShortEntry) : Text :=
  e.severity ++ " " ++ e.code ++ " " ++ e.path ++ ":" ++ Text.ofNat e.line.toNat ++ ":"
    ++ Text.ofNat e.column.toNat ++ " " ++ e.message
    ++ (if e.fixable then Text.ofString " [fixable]" else [])

/-- The entries of all diagnostics in order. -/
def shortSorted (fs : FileSet) (notes : Bool) (ds : List Diagnostic) : List ShortEntry :=
  (ds.flatMap (shortEntries fs notes)).mergeSort fun a b => !b.before a

/-- The short report, without a line feed at its end; empty without a file set. -/
def short (fs : Option FileSet) (notes : Bool) (ds : List Diagnostic) : Text :=
  match fs with
  | none => []
  | some fs => Text.join "\n" ((shortSorted fs notes ds).map ShortEntry.render)

end TokenLint.Report
