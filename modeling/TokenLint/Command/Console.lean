import TokenLint.Command.Options
import TokenLint.Disk
import TokenLint.Time.Timer
import TokenLint.Trace.Session

/-!
# Commands at work

A command changes a disk, writes to two outputs, is traced, and its phases are timed. It may
fail at any point; what it did before stays done.
-/

namespace TokenLint.Command

/-- Where the program runs. -/
structure Host where
  disk : Disk := {}
  /-- The directory of the program's cache. -/
  cacheDir : Text := []
  /-- Is the output a terminal? -/
  terminal : Bool := false
  deriving DecidableEq, Inhabited

/-- Why a command fails. -/
inductive Failure where
  /-- What was written says it all. -/
  | problemsFound
  | complaint (t : Text)
  deriving DecidableEq, Inhabited

/-- What a command has done so far. -/
structure Console where
  disk : Disk := {}
  out : Text := []
  err : Text := []
  session : Trace.Session := { tracer := .off }
  phases : List Time.Phase := []
  deriving DecidableEq, Inhabited

/-- A piece of a command. -/
abbrev Action := ExceptT Failure (StateM Console)

namespace Action

/-- Writes to the output. -/
def print (t : Text) : Action Unit := modify fun c => { c with out := c.out ++ t }

/-- Writes to the output for complaints. -/
def warn (t : Text) : Action Unit := modify fun c => { c with err := c.err ++ t }

/-- Fails with a complaint. -/
def fail {α : Type} (t : Text) : Action α := throw (.complaint t)

/-- Fails if something else has. -/
def orFail {α : Type} (r : Except Text α) : Action α :=
  match r with
  | .ok v => pure v
  | .error t => fail t

/-- Fails if there is nothing. -/
def present {α : Type} (v : Option α) (complaint : Text) : Action α :=
  match v with
  | some v => pure v
  | none => fail complaint

/-- Changes the disk, or fails with the reason why that is not possible. -/
def onDisk (change : Disk → Except DiskError Disk) (complaint : Text → Text) : Action Unit := do
  match change (← get).disk with
  | .ok d => modify fun c => { c with disk := d }
  | .error e => fail (complaint e.message)

/-- Tells the tracer something. -/
def trace (f : Trace.Session → Trace.Session) : Action Unit :=
  modify fun c => { c with session := f c.session }

/-- Notes that a phase is over. -/
def phase (name note : Text) : Action Unit :=
  modify fun c => { c with phases := c.phases ++ [{ name := name, note := note }] }

/-- Writes how long the phases took, if that was asked for. -/
def printTimings (timed : Bool) : Action Unit := do
  if timed then warn (Time.timings (← get).phases).flatten

end Action

end TokenLint.Command
