import TokenLint.Trace.Event

/-!
# Rings of events

A ring keeps the latest events, up to its capacity. There is a slot for each event that is kept.
The slots are written one after the other, and from the first one on again when there are no more.
-/

namespace TokenLint.Trace

/-- The latest events. -/
structure Ring where
  /-- As many as the capacity. -/
  slots : Array Event
  /-- The finest scope that is kept. -/
  ceiling : Scope
  /-- The slot that is written next. -/
  next : Nat := 0
  /-- Have all slots been written? -/
  wrapped : Bool := false
  deriving DecidableEq, Inhabited

namespace Ring

/-- The capacity of a ring that is not given one. -/
def defaultCapacity : Nat := 4096

/-- An empty ring. Its ceiling is that of the level, but on the level for errors, which
writes nothing at once, the ring keeps commands and files. -/
def ofCapacity (capacity : Int) (level : Level) : Ring :=
  { slots := Array.replicate (if 0 < capacity then capacity.toNat else defaultCapacity) {}
    ceiling := if level = .error then .file else level.ceiling }

/-- Is a scope kept? -/
def wants (r : Ring) (s : Scope) : Bool := Level.below r.ceiling s

/-- Is an event kept? Heartbeats always are. -/
def accepts (r : Ring) (e : Event) : Bool := r.wants e.scope || e.kind = .heartbeat

/-- Keeps an event, in place of the oldest one if the ring is full. -/
def push (r : Ring) (e : Event) : Ring :=
  let r := { r with slots := r.slots.setIfInBounds r.next e, next := r.next + 1 }
  if r.next = r.slots.size then { r with next := 0, wrapped := true } else r

/-- Keeps an event if its scope is wanted. -/
def emit (r : Ring) (e : Event) : Ring := if r.accepts e then r.push e else r

/-- The events of a ring, the oldest first. -/
def snapshot (r : Ring) : List Event :=
  if r.wrapped then r.slots.toList.drop r.next ++ r.slots.toList.take r.next
  else r.slots.toList.take r.next

/-- The written forms of the events of a ring, one after the other. -/
def dump (r : Ring) (format : Format) : Text := r.snapshot.flatMap (·.encode format)

end Ring

end TokenLint.Trace
