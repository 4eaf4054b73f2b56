import TokenLint.Trace.Event

/-!
# Spans

A span has a beginning and an end, and encloses what is done in between. Spans and contexts are
referred to by number, in the order in which they were made. A span that nobody wants is inert:
it has number zero and emits nothing.
-/

namespace TokenLint.Trace

/-- A span. -/
structure Span where
  /-- Zero for an inert span. -/
  id : UInt64 := 0
  parent : UInt64 := 0
  scope : Scope := {}
  name : Text := []
  attributes : List (Text × Text) := []
  /-- Has it not been ended? -/
  isOpen : Bool := false
  deriving DecidableEq, Inhabited

namespace Span

/-- The event that marks the beginning of a span. -/
def beginning (sp : Span) : Event :=
  { kind := .spanBegin, scope := sp.scope, span := sp.id, parent := sp.parent, name := sp.name }

/-- The event that marks the end of a span. -/
def ending (sp : Span) (detail : Text) : Event :=
  { kind := .spanEnd, scope := sp.scope, span := sp.id, parent := sp.parent, name := sp.name
    detail := detail, attributes := sp.attributes }

end Span

/-- What a call knows about the tracing around it. -/
structure Context where
  /-- Is there a tracer? -/
  traced : Bool := false
  /-- The nearest enclosing span that is not inert; zero without one. -/
  span : UInt64 := 0
  deriving DecidableEq, Inhabited

/-- The spans and contexts made so far. -/
structure Spans where
  /-- The number of spans so far that were not inert. -/
  spanCount : Nat := 0
  spans : Array Span := #[]
  /-- The first has the tracer, the others have none. -/
  contexts : Array Context := #[⟨true, 0⟩, {}, {}]
  deriving DecidableEq, Inhabited

namespace Spans

/-- The context with a number; one without a tracer if there is none. -/
def context (s : Spans) (i : Nat) : Context := s.contexts.getD i {}

/-- The span with a number; an inert one if there is none. -/
def span (s : Spans) (i : Nat) : Span := s.spans.getD i {}

/-- Begins a span below another one if its scope is wanted, and an inert one otherwise. Also the
event to emit. -/
def begin (wanted : Scope → Bool) (s : Spans) (traced : Bool) (scope : Scope) (name : Text)
    (parent : UInt64) : Spans × Option Event :=
  if traced && wanted scope then
    let sp : Span :=
      { id := (s.spanCount + 1).toUInt64, parent := parent, scope := scope, name := name
        isOpen := true }
    ({ s with spanCount := s.spanCount + 1, spans := s.spans.push sp }, some sp.beginning)
  else ({ s with spans := s.spans.push {} }, none)

/-- Starts a span in a context. It makes a context, in which the span encloses what comes. -/
def start (wanted : Scope → Bool) (s : Spans) (i : Nat) (scope : Scope) (name : Text) :
    Spans × Option Event :=
  let ctx := s.context i
  let (s, event) := s.begin wanted ctx.traced scope name ctx.span
  let id := (s.spans.back?.getD {}).id
  ({ s with contexts := s.contexts.push (if id = 0 then ctx else { ctx with span := id }) }, event)

/-- Adds an attribute to the end event of a span that is open. -/
def annotate (s : Spans) (i : Nat) (key value : Text) : Spans :=
  { s with
    spans := s.spans.modify i fun sp =>
      if sp.isOpen then { sp with attributes := sp.attributes ++ [(key, value)] } else sp }

/-- Ends a span that is open. Also the event to emit. -/
def finish (s : Spans) (i : Nat) (detail : Text) : Spans × Option Event :=
  let sp := s.span i
  if sp.isOpen then
    ({ s with spans := s.spans.modify i fun sp => { sp with isOpen := false } },
      some (sp.ending detail))
  else (s, none)

end Spans

end TokenLint.Trace
