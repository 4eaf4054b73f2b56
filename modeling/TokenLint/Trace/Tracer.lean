import TokenLint.Trace.Ring

/-!
# Tracers

A tracer hands events to its sinks: it writes them, keeps them, or drops them.
-/

namespace TokenLint.Trace

/-- Where an event may go. -/
inductive Sink where
  | off
  /-- It is written at once. -/
  | stream (level : Level) (format : Format)
  | ring (r : Ring)
  deriving DecidableEq, Inhabited

namespace Sink

/-- Is an event of a scope wanted? -/
def wants : Sink → Scope → Bool
  | .off, _ => false
  | .stream level _, s => level.admits s
  | .ring r, s => r.wants s

/-- Hands over an event. Also what is written. -/
def emit : Sink → Event → Sink × Text
  | .off, _ => (.off, [])
  | .stream level format, e =>
    (.stream level format,
      if level.admits e.scope || e.kind = .heartbeat then e.encode format else [])
  | .ring r, e => (.ring (r.emit e), [])

/-- The ring of a sink. -/
def ring? : Sink → Option Ring
  | .ring r => some r
  | _ => none

end Sink

/-- One sink or several. -/
inductive Tracer where
  | single (s : Sink)
  | multi (sinks : List Sink)
  deriving DecidableEq, Inhabited

namespace Tracer

/-- Nothing is traced. -/
def off : Tracer := .single .off

/-- The sinks of a tracer. -/
def sinks : Tracer → List Sink
  | .single s => [s]
  | .multi sinks => sinks

/-- Is an event of a scope wanted by any sink? -/
def wants (t : Tracer) (s : Scope) : Bool := t.sinks.any (·.wants s)

/-- Hands an event to all sinks. Also what is written. -/
def emit : Tracer → Event → Tracer × Text
  | .single s, e =>
    let (s, out) := s.emit e
    (.single s, out)
  | .multi sinks, e =>
    let results := sinks.map (·.emit e)
    (.multi (results.map (·.1)), results.flatMap (·.2))

/-- The first ring of a tracer. -/
def ring? (t : Tracer) : Option Ring := t.sinks.findSome? Sink.ring?

/-- Does a heartbeat make sense? -/
def beats (t : Tracer) (interval : Time.Duration) : Bool := 0 < interval.toInt && t.wants .command

end Tracer

/-- What tracer is wanted. -/
structure Config where
  level : Level := .off
  mode : StorageMode := .stream
  format : Format := .auto
  /-- Where the output goes, which may decide the format. -/
  path : Text := []
  ringSize : Int := 0
  deriving DecidableEq, Inhabited

namespace Config

/-- The written form of events. -/
def chosenFormat (c : Config) : Format := if c.format = .auto then .ofPath c.path else c.format

/-- The tracer that is wanted, or the complaint about a mode that there is not. -/
def tracer (c : Config) : Except Text Tracer :=
  let ring : Sink := .ring (.ofCapacity c.ringSize c.level)
  let stream : Sink := .stream c.level c.chosenFormat
  if c.level = .off then .ok .off
  else if c.mode = .ring then .ok (.single ring)
  else if c.mode = .stream then .ok (.single stream)
  else if c.mode = .both then .ok (.multi [stream, ring])
  else .error ("unknown storage mode: " ++ c.mode.name)

end Config

end TokenLint.Trace
