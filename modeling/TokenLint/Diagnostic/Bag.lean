import TokenLint.Diagnostic.Basic

/-!
# Bags

A bag collects diagnostics up to a capacity and counts those that did not fit.
-/

namespace TokenLint

/-- Collected diagnostics. -/
structure Bag where
  items : Array Diagnostic := #[]
  capacity : Nat := 65535
  /-- How many did not fit. -/
  dropped : Nat := 0
  deriving Inhabited

namespace Bag

/-- The largest capacity. -/
def largest : Nat := 65535

/-- An empty bag. A capacity that is not positive or too large means the largest. -/
def ofCapacity (max : Int) : Bag :=
  { capacity := if max ≤ 0 || (largest : Int) < max then largest else max.toNat }

/-- The number of diagnostics. -/
def size (b : Bag) : Nat := b.items.size

/-- Has the bag room? -/
def hasRoom (b : Bag) : Bool := b.items.size < b.capacity

/-- Adds a diagnostic, or counts it if there is no room. -/
def add (b : Bag) (d : Diagnostic) : Bag :=
  if b.hasRoom then { b with items := b.items.push d } else { b with dropped := b.dropped + 1 }

/-- Is there an error? -/
def hasErrors (b : Bag) : Bool := b.items.any fun d => Severity.error.rank ≤ d.severity.rank

/-- Is there a warning or an error? -/
def hasWarnings (b : Bag) : Bool := b.items.any fun d => Severity.warning.rank ≤ d.severity.rank

/-- The number of diagnostics of one severity. -/
def count (b : Bag) (s : Severity) : Nat := b.items.countP fun d => d.severity = s

/-- The number of diagnostics with a fix. -/
def fixableCount (b : Bag) : Nat := b.items.countP Diagnostic.fixable

/-- Takes over everything from another bag. The capacity grows if it must. -/
def merge (b other : Bag) : Bag :=
  let total := b.items.size + other.items.size
  { items := b.items ++ other.items
    capacity := if b.capacity < total then min total largest else b.capacity
    dropped := b.dropped + other.dropped }

/-- Keeps what satisfies `p`. -/
def filter (b : Bag) (p : Diagnostic → Bool) : Bag := { b with items := b.items.filter p }

/-- Sorts the diagnostics. -/
def sort (b : Bag) : Bag := { b with items := (Diagnostic.sort b.items.toList).toArray }

/-- The text by which `dedup` recognises a repetition. -/
def mark (d : Diagnostic) : Text := d.qualifiedCode ++ (58 : UInt8) :: d.primary.render

/-- The diagnostics whose mark is neither in `seen` nor that of an earlier one. -/
def firstOfEach (seen : List Text) : List Diagnostic → List Diagnostic
  | [] => []
  | d :: rest =>
    if mark d ∈ seen then firstOfEach seen rest else d :: firstOfEach (mark d :: seen) rest

/-- Keeps the first diagnostic of each mark. -/
def dedup (b : Bag) : Bag := { b with items := (firstOfEach [] b.items.toList).toArray }

end Bag

/-- Where reported diagnostics go. -/
inductive Sink where
  /-- Nowhere. -/
  | discard
  /-- Into a bag. -/
  | bag (b : Bag)
  /-- To another sink, but each key only once. -/
  | unique (seen : List Diagnostic.Key) (next : Sink)
  deriving Inhabited

namespace Sink

/-- The sink after one more report. -/
def report : Sink → Diagnostic → Sink
  | .discard, _ => .discard
  | .bag b, d => .bag (b.add d)
  | .unique seen next, d =>
    if d.key ∈ seen then .unique seen next else .unique (d.key :: seen) (next.report d)

/-- The bag at the end. -/
def bag? : Sink → Option Bag
  | .discard => none
  | .bag b => some b
  | .unique _ next => next.bag?

end Sink

/-- A diagnostic that is being put together and reported once. -/
structure Draft where
  diagnostic : Diagnostic := {}
  reported : Bool := false
  deriving Inhabited

namespace Draft

/-- A change of the diagnostic. -/
def update (d : Draft) (f : Diagnostic → Diagnostic) : Draft := { d with diagnostic := f d.diagnostic }

/-- Reports the diagnostic unless that was done before. -/
def emit (d : Draft) (sink : Sink) : Draft × Sink :=
  if d.reported then (d, sink) else ({ d with reported := true }, sink.report d.diagnostic)

end Draft

end TokenLint
