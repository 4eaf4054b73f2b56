import TokenLint.Text.Width

/-!
# Showing progress

The state of files that are being worked on, and how a terminal shows it: a title with
counts, a line for every file, and a bar.

While the work goes on, an animation moves the bar towards the share of the work that is done,
where a file that is being worked on counts half. Neither this share nor the frames of the
animation are modelled: a screen that is sent no frames has an empty bar until the end of the
work, and a full one then. Colours are left out as well.
-/

namespace TokenLint

/-- What happens to a file. -/
inductive FileStatus where
  | queued | working | done | error
  deriving DecidableEq, Inhabited

namespace FileStatus

/-- The name of a status. -/
def name : FileStatus → Text
  | .queued => "queued"
  | .working => "working"
  | .done => "done"
  | .error => "error"

/-- The status with a name; what has no known name counts as queued. -/
def ofName (t : Text) : FileStatus :=
  ([.working, .done, .error].find? fun s => s.name = t).getD .queued

/-- Is the work done? -/
def finished (s : FileStatus) : Bool := s = .done || s = .error

end FileStatus

/-- The news about a file. -/
structure ProgressEvent where
  file : Text := []
  status : FileStatus := .queued
  diagnostics : Int := 0
  deriving DecidableEq, Inhabited

namespace Progress

/-- A file on the screen. -/
structure Item where
  path : Text
  status : FileStatus := .queued
  diagnostics : Int := 0
  deriving DecidableEq, Inhabited

/-- The screen. -/
structure Screen where
  title : Text := []
  items : List Item := []
  problems : Int := 0
  width : Int := 80
  barWidth : Int := 76
  /-- The number of the picture of the spinner. -/
  frame : Nat := 0
  done : Bool := false
  deriving DecidableEq, Inhabited

/-- The screen before anything happens. -/
def Screen.ofFiles (title : Text) (files : List Text) : Screen :=
  { title := title, items := files.map fun f => { path := f } }

/-- What the screen reacts to. -/
inductive Input where
  | event (e : ProgressEvent)
  /-- There will be no more events. -/
  | closed
  | resize (width : Int)
  | tick
  /-- Anything else. -/
  | ignored
  deriving DecidableEq, Inhabited

/-- The item after an event. -/
def Item.update (i : Item) (e : ProgressEvent) : Item :=
  { i with
    status := e.status
    diagnostics := if e.status = .done then e.diagnostics else i.diagnostics }

/-- Updates the last item with a path; nothing if there is none. -/
def updateLast (e : ProgressEvent) (items : List Item) : Option (List Item) :=
  (items.reverse.findIdx? (·.path = e.file)).map fun i =>
    items.modify (items.length - 1 - i) (·.update e)

/-- The number of pictures of the spinner. -/
def frames : List Text := ["⣾ ", "⣽ ", "⣻ ", "⢿ ", "⡿ ", "⣟ ", "⣯ ", "⣷ "]

/-- The screen after an input. -/
def Screen.update (s : Screen) : Input → Screen
  | .event e =>
    match updateLast e s.items with
    | none => s
    | some items =>
      { s with
        items := items
        problems := if e.status = .done then s.problems + e.diagnostics else s.problems }
  | .closed => { s with done := true }
  | .resize width => if 0 < width then { s with width := width, barWidth := width - 4 } else s
  | .tick => if s.done then s else { s with frame := (s.frame + 1) % frames.length }
  | .ignored => s

/-- The words for an item. -/
def Item.label (i : Item) : Text :=
  match i.status with
  | .queued => "queued"
  | .working => "sniffing"
  | .error => "error"
  | .done => if 0 < i.diagnostics then "done (" ++ Text.ofInt i.diagnostics ++ ")" else "done"

/-- A path in a number of columns. -/
def shorten (t : Text) (columns : Nat) : Text := Text.truncate t columns "..."

/-- The line for an item. -/
def Item.line (i : Item) (columns : Nat) : Text :=
  let label := i.label
  "  " ++ Text.padLeft 12 (Text.runeCount label) label ++ " " ++ shorten i.path columns ++ "\n"

/-- Four blanks for a tabulator, and a line feed for a carriage return before one. -/
def plainLines : Text → Text
  | 13 :: 10 :: rest => 10 :: plainLines rest
  | 9 :: rest => 32 :: 32 :: 32 :: 32 :: plainLines rest
  | b :: rest => b :: plainLines rest
  | [] => []

/-- A text as a block: its lines are filled up to the same width. -/
def block (t : Text) : Text :=
  let lines := Text.splitOn 10 (plainLines t)
  let widest := (lines.map Text.width).foldl max 0
  Text.join "\n" (lines.map fun l => Text.padRight widest (Text.width l) l)

/-- The bar: all full or all empty. -/
def bar (width : Int) (full : Bool) : Text :=
  let percent : Text := if full then " 100%" else "   0%"
  let cell : Text := if full then "█" else "░"
  (List.replicate (width - 5).toNat cell).flatten ++ percent

/-- The number of items whose work is done. -/
def Screen.finished (s : Screen) : Nat := (s.items.filter (·.status.finished)).length

/-- The title with its counts. -/
def Screen.header (s : Screen) : Text :=
  let counts := s.title ++ " (" ++ Text.ofNat s.finished ++ "/" ++ Text.ofNat s.items.length ++ ")"
    ++ Text.onlyIf (0 < s.problems) (", " ++ Text.ofInt s.problems ++ " problem(s)")
  if s.done then "done: " ++ counts else (frames[s.frame]?).getD [] ++ " " ++ counts

/-- What the terminal shows; nothing without files. -/
def Screen.view (s : Screen) : Text :=
  if s.items.isEmpty then []
  else
    let columns := max 20 (s.width - 16).toNat
    block s.header ++ "\n\n" ++ s.items.flatMap (·.line columns) ++ "\n" ++ bar s.barWidth s.done
      ++ "\n"

end Progress

end TokenLint
