import TokenLint.Text.Letter
import TokenLint.Text.Quoted

/-!
# Scopes, levels and storage of traces

A scope says how fine an event is; a level admits all scopes up to a ceiling. Scopes, levels
and storage modes are numbers, because a trace may hold numbers that nobody has named.
-/

namespace TokenLint.Trace

/-- How fine an event is; coarser scopes have lower ranks. -/
structure Scope where
  rank : UInt8 := 0
  deriving DecidableEq, Inhabited

namespace Scope

/-- A whole command. -/
def command : Scope := ⟨1⟩

/-- One file. -/
def file : Scope := ⟨2⟩

/-- One rule, or one pass of fixes. -/
def rule : Scope := ⟨3⟩

/-- One token. -/
def token : Scope := ⟨4⟩

/-- The name of a scope. -/
def name (s : Scope) : Text :=
  if s = command then "command" else if s = file then "file" else if s = rule then "sniff"
  else if s = token then "token" else "unknown"

end Scope

/-- How much is traced. -/
structure Level where
  rank : UInt8 := 0
  deriving DecidableEq, Inhabited

namespace Level

/-- Nothing is traced. -/
def off : Level := ⟨0⟩

/-- Nothing is written at once; a ring keeps what a crash report needs. -/
def error : Level := ⟨1⟩

/-- Commands and files. -/
def phase : Level := ⟨2⟩

/-- Also rules and fixes. -/
def detail : Level := ⟨3⟩

/-- Also single tokens. -/
def debug : Level := ⟨4⟩

/-- The names of the levels, by rank. -/
def names : List Text := ["off", "error", "phase", "detail", "debug"]

/-- The name of a level. -/
def name (l : Level) : Text := (names[l.rank.toNat]?).getD "unknown"

/-- The level meant by an option value. -/
def ofName? (t : Text) : Option Level :=
  (names.findIdx? (· = Text.word t)).map fun i => ⟨i.toUInt8⟩

/-- The complaint about an option value that means no level. -/
def invalid (t : Text) : Text :=
  "invalid trace level: " ++ Text.quoted t ++ " (expected: off|error|phase|detail|debug)"

/-- The finest scope a level admits; the scope of rank zero if it admits none. -/
def ceiling (l : Level) : Scope :=
  if l = phase then .file else if l = detail then .rule else if l = debug then .token else {}

/-- Is a scope admitted below a ceiling? -/
def below (ceiling s : Scope) : Bool := s.rank ≠ 0 && s.rank ≤ ceiling.rank

/-- Does a level admit a scope? -/
def admits (l : Level) (s : Scope) : Bool := below l.ceiling s

end Level

/-- Where events go. -/
structure StorageMode where
  rank : UInt8 := 0
  deriving DecidableEq, Inhabited

namespace StorageMode

/-- They are written at once. -/
def stream : StorageMode := ⟨1⟩

/-- They are kept in a ring. -/
def ring : StorageMode := ⟨2⟩

/-- They are written and kept. -/
def both : StorageMode := ⟨3⟩

/-- The name of a mode. -/
def name (m : StorageMode) : Text :=
  if m = stream then "stream" else if m = ring then "ring" else if m = both then "both"
  else "unknown"

/-- The mode meant by an option value. -/
def ofName? (t : Text) : Option StorageMode :=
  [stream, ring, both].find? fun m => m.name = Text.word t

/-- The complaint about an option value that means no mode. -/
def invalid (t : Text) : Text :=
  "invalid storage mode: " ++ Text.quoted t ++ " (expected: stream|ring|both)"

end StorageMode

/-- The written forms of events. -/
inductive Format where
  /-- Chosen by the name of the output. -/
  | auto
  /-- A line for people. -/
  | text
  /-- A JSON object on a line. -/
  | jsonLines
  deriving DecidableEq, Inhabited

namespace Format

/-- The form meant by an option value. -/
def ofName? (t : Text) : Option Format :=
  let w := Text.word t
  if w = [] || w = "auto" then some .auto
  else if w = "text" then some .text
  else if w = "ndjson" || w = "json" || w = "jsonl" then some .jsonLines
  else none

/-- The complaint about an option value that means no form. -/
def invalid (t : Text) : Text :=
  "invalid trace format: " ++ Text.quoted t ++ " (expected: auto|text|ndjson)"

/-- The form for an output. -/
def ofPath (path : Text) : Format :=
  if path.hasSuffix ".ndjson" || path.hasSuffix ".jsonl" then .jsonLines else .text

end Format

end TokenLint.Trace
