import TokenLint.Trace.Span
import TokenLint.Trace.Tracer

/-!
# Tracing sessions

A session is a tracer with a clock and the spans and contexts made so far. Events are stamped in
order: the n-th has sequence number n and comes n milliseconds after the start.
-/

namespace TokenLint.Trace

/-- A tracing session. -/
structure Session extends Spans where
  tracer : Tracer
  /-- The number of events so far. -/
  eventCount : Nat := 0
  /-- All that has been written. -/
  written : Text := []
  deriving DecidableEq, Inhabited

namespace Session

/-- Emits an event as it is. -/
def emit (s : Session) (e : Event) : Session :=
  let (tracer, out) := s.tracer.emit e
  { s with tracer := tracer, written := s.written ++ out }

/-- Emits an event with the stamp of the clock. -/
def stamped (s : Session) (e : Event) : Session :=
  let n := s.eventCount + 1
  { s.emit { e with seq := n.toUInt64, time := (n : Int) * 1000000, elapsed := 0 } with
    eventCount := n }

/-- Emits a point if its scope is wanted. -/
def point (s : Session) (scope : Scope) (name detail : Text) (attributes : List (Text × Text)) :
    Session :=
  if s.tracer.wants scope then
    s.stamped
      { kind := .point, scope := scope, name := name, detail := detail, attributes := attributes }
  else s

/-- Goes over to other spans and emits the event that comes with them. -/
def turn (s : Session) (step : Spans × Option Event) : Session :=
  step.2.toList.foldl stamped { s with toSpans := step.1 }

/-- Begins a span below another one. -/
def begin (s : Session) (traced : Bool) (scope : Scope) (name : Text) (parent : UInt64) :
    Session :=
  s.turn (s.toSpans.begin s.tracer.wants traced scope name parent)

/-- Starts a span in a context. -/
def start (s : Session) (i : Nat) (scope : Scope) (name : Text) : Session :=
  s.turn (s.toSpans.start s.tracer.wants i scope name)

/-- Adds an attribute to the end event of a span that is open. -/
def annotate (s : Session) (i : Nat) (key value : Text) : Session :=
  { s with toSpans := s.toSpans.annotate i key value }

/-- Ends a span that is open. -/
def finish (s : Session) (i : Nat) (detail : Text) : Session :=
  s.turn (s.toSpans.finish i detail)

end Session

end TokenLint.Trace
