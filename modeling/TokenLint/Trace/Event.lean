import TokenLint.Json
import TokenLint.Time.Duration
import TokenLint.Trace.Level

/-!
# Trace events

An event marks the beginning or the end of a span, or a point in time. Every event is
written as one line.
-/

namespace TokenLint.Trace

/-- What an event marks. -/
structure EventKind where
  rank : UInt8 := 0
  deriving DecidableEq, Inhabited

namespace EventKind

/-- A span begins. -/
def spanBegin : EventKind := ⟨1⟩

/-- A span ends. -/
def spanEnd : EventKind := ⟨2⟩

/-- Something happens. -/
def point : EventKind := ⟨3⟩

/-- Time passes. -/
def heartbeat : EventKind := ⟨4⟩

/-- The name of a kind of events. -/
def name (k : EventKind) : Text :=
  if k = spanBegin then "begin" else if k = spanEnd then "end" else if k = point then "point"
  else if k = heartbeat then "heartbeat" else "unknown"

/-- The sign of a kind of events in front of their names; kinds without a name have none. -/
def sign (k : EventKind) : Text :=
  if k = spanBegin then "→ " else if k = spanEnd then "← " else if k = point then "• "
  else if k = heartbeat then "♡ " else []

end EventKind

/-- Attributes from a list in which keys and values take turns. A key without a value says
nothing. -/
def pairsOf : List Text → List (Text × Text)
  | k :: v :: rest => (k, v) :: pairsOf rest
  | _ => []

/-- A trace event. -/
structure Event where
  /-- In nanoseconds. -/
  time : Int := 0
  seq : UInt64 := 0
  kind : EventKind := {}
  scope : Scope := {}
  span : UInt64 := 0
  parent : UInt64 := 0
  name : Text := []
  detail : Text := []
  attributes : List (Text × Text) := []
  elapsed : Time.Duration := 0
  deriving DecidableEq, Inhabited

namespace Event

/-- The value of the first attribute with a key; empty without one. -/
def valueOf (e : Event) (key : Text) : Text := (e.attributes.lookup key).getD []

/-- The attributes as an object with its keys in byte order; of equal keys the last counts. -/
def attributesJson (e : Event) : Json :=
  let keys := (e.attributes.map (·.1)).eraseDups.mergeSort Text.le
  .object (keys.map fun k => (k, .string ((e.attributes.reverse.lookup k).getD [])))

/-- An event as a JSON value. -/
def json (e : Event) : Json :=
  Json.ofMembers
    [Json.member "time" (.string (Time.stamp e.time)),
     Json.member "seq" (Json.ofNat e.seq.toNat),
     Json.member "kind" (.string e.kind.name),
     Json.member "scope" (.string e.scope.name),
     Json.memberIf (e.span ≠ 0) "span" (Json.ofNat e.span.toNat),
     Json.memberIf (e.parent ≠ 0) "parent" (Json.ofNat e.parent.toNat),
     Json.member "name" (.string e.name),
     Json.memberIf (e.detail ≠ []) "detail" (.string e.detail),
     Json.memberIf (e.elapsed.micros ≠ 0) "elapsed_us" (Json.ofInt e.elapsed.micros),
     Json.memberIf (!e.attributes.isEmpty) "attrs" e.attributesJson]

/-- An event in words. -/
def words (e : Event) : Text :=
  Time.clockMillis e.time ++ " [" ++ e.scope.name ++ "] " ++ Text.onlyIf (e.parent ≠ 0) "  "
    ++ e.kind.sign ++ e.name
    ++ Text.onlyIf (e.detail ≠ []) (" (" ++ e.detail ++ ")")
    ++ Text.onlyIf (e.kind = .spanEnd) (" " ++ e.elapsed.roundMicros.render)
    ++ Text.onlyIf (!e.attributes.isEmpty)
      (" \x7b" ++ Text.join ", " (e.attributes.map fun a => a.1 ++ "=" ++ a.2) ++ "\x7d")

/-- An event as a line. -/
def encode (e : Event) (format : Format) : Text :=
  (if format = .jsonLines then Json.compact Json.markup e.json else e.words) ++ [10]

end Event

end TokenLint.Trace
