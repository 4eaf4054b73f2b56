import TokenLint.Proofs.Trace.Ring
import TokenLint.Trace.Session

/-!
# Calls on spans

Spans are started in contexts, annotated and ended, in any order and more than once. What becomes of
a span depends only on the calls that concern it: it has the attributes that were added to it since
it was started, and its end event comes with the first call that ends it.

* `span_after`: a span follows the calls on it.
* `emitted?_start`, `emitted?_finish_iff`: which calls emit which events.
* `foldl_call`: a session hands these events to its tracer.
-/

namespace TokenLint.Trace

/-- A call that starts, annotates or ends a span. -/
inductive SpanCall where
  | start (context : Nat) (scope : Scope) (name : Text)
  | annotate (span : Nat) (key value : Text)
  | finish (span : Nat) (detail : Text)
  deriving DecidableEq

namespace SpanCall

/-- Does the call start a span? -/
def starts : SpanCall → Bool
  | .start _ _ _ => true
  | .annotate _ _ _ | .finish _ _ => false

/-- Does the call end the span with a number? -/
def ends (j : Nat) : SpanCall → Bool
  | .finish i _ => i = j
  | .start _ _ _ | .annotate _ _ _ => false

/-- The attribute that the call adds to the span with a number. -/
def attribute? (j : Nat) : SpanCall → Option (Text × Text)
  | .annotate i key value => if i = j then some (key, value) else none
  | .start _ _ _ | .finish _ _ => none

end SpanCall

/-- The span with a number after a call. -/
def Span.heed (j : Nat) (sp : Span) (c : SpanCall) : Span :=
  if c.ends j then { sp with isOpen := false }
  else if sp.isOpen then { sp with attributes := sp.attributes ++ (c.attribute? j).toList }
  else sp

/-- A span at its begin event. -/
def Span.opened (b : Event) : Span :=
  { id := b.span, parent := b.parent, scope := b.scope, name := b.name, isOpen := true }

namespace Span

variable {sp : Span} {j : Nat} {calls : List SpanCall}

theorem heed_of_closed (h : sp.isOpen = false) (c : SpanCall) : sp.heed j c = sp := by
  obtain ⟨_, _, _, _, _, _⟩ := sp
  simp_all [heed]

theorem foldl_heed_of_closed (h : sp.isOpen = false) (calls : List SpanCall) :
    calls.foldl (heed j) sp = sp := by
  induction calls with
  | nil => rfl
  | cons c calls ih => rw [List.foldl_cons, heed_of_closed h, ih]

/-- As long as a span is not ended it collects attributes. -/
theorem foldl_heed_of_open (h : sp.isOpen = true) (hOpen : ∀ c ∈ calls, c.ends j = false) :
    calls.foldl (heed j) sp =
      { sp with attributes := sp.attributes ++ calls.filterMap (SpanCall.attribute? j) } := by
  induction calls generalizing sp with
  | nil => simp
  | cons c calls ih =>
      have hFirst : sp.heed j c =
          { sp with attributes := sp.attributes ++ (c.attribute? j).toList } := by
        simp [heed, hOpen c List.mem_cons_self, h]
      have hRest := @ih { sp with attributes := sp.attributes ++ (c.attribute? j).toList } h
        fun d hd => hOpen d (List.mem_cons_of_mem c hd)
      rw [List.foldl_cons, hFirst, hRest]
      cases hAttribute : c.attribute? j <;> simp [hAttribute]

theorem isOpen_foldl_heed (h : sp.isOpen = true) :
    (calls.foldl (heed j) sp).isOpen = true ↔ ∀ c ∈ calls, c.ends j = false := by
  constructor
  · intro hOpen
    by_contra hEnded
    obtain ⟨c, hc, hEnds⟩ : ∃ c ∈ calls, c.ends j = true := by simpa using hEnded
    obtain ⟨before, after, rfl⟩ := List.append_of_mem hc
    have hClosed : ((before.foldl (heed j) sp).heed j c).isOpen = false := by simp [heed, hEnds]
    rw [List.foldl_append, List.foldl_cons, foldl_heed_of_closed hClosed, hClosed] at hOpen
    cases hOpen
  · intro hOpen
    rw [foldl_heed_of_open h hOpen]
    exact h

end Span

namespace Spans

/-- Makes a call. Also the event to emit. -/
def call (wanted : Scope → Bool) (s : Spans) : SpanCall → Spans × Option Event
  | .start i scope name => s.start wanted i scope name
  | .annotate i key value => (s.annotate i key value, none)
  | .finish i detail => s.finish i detail

/-- The spans after calls. -/
def after (wanted : Scope → Bool) (s : Spans) (calls : List SpanCall) : Spans :=
  calls.foldl (fun s c => (s.call wanted c).1) s

/-- The event that a call emits after others. -/
def emitted? (wanted : Scope → Bool) (s : Spans) (calls : List SpanCall) (c : SpanCall) :
    Option Event :=
  ((s.after wanted calls).call wanted c).2

/-- All events that calls emit. -/
def events (wanted : Scope → Bool) : Spans → List SpanCall → List Event
  | _, [] => []
  | s, c :: rest => (s.call wanted c).2.toList ++ events wanted (s.call wanted c).1 rest

/-- The span that is started in a context. -/
def opening (s : Spans) (i : Nat) (scope : Scope) (name : Text) : Span :=
  { id := (s.spanCount + 1).toUInt64, parent := (s.context i).span, scope := scope, name := name
    isOpen := true }

/-- Before the first call, when a number of spans have been counted elsewhere. -/
def fresh (n : Nat) : Spans := { spanCount := n }

variable {wanted : Scope → Bool} {s : Spans} {n i j : Nat} {scope : Scope} {name detail : Text}
  {calls : List SpanCall} {e : Event}

theorem after_append (wanted : Scope → Bool) (s : Spans) (calls rest : List SpanCall) :
    s.after wanted (calls ++ rest) = (s.after wanted calls).after wanted rest := List.foldl_append

theorem events_append (wanted : Scope → Bool) (s : Spans) (calls rest : List SpanCall) :
    s.events wanted (calls ++ rest) =
      s.events wanted calls ++ (s.after wanted calls).events wanted rest := by
  induction calls generalizing s with
  | nil => rfl
  | cons c calls ih =>
      rw [List.cons_append, events, events, ih, List.append_assoc]
      rfl

/-- Every event comes from a call, and those before it come from the calls before. -/
theorem exists_call_of_events {before after : List Event}
    (h : s.events wanted calls = before ++ e :: after) :
    ∃ earlier c later, calls = earlier ++ c :: later ∧ s.events wanted earlier = before ∧
      s.emitted? wanted earlier c = some e := by
  induction calls generalizing s before with
  | nil => cases before <;> cases h
  | cons c calls ih =>
      rw [events] at h
      cases hFirst : (s.call wanted c).2 with
      | none =>
          rw [hFirst] at h
          obtain ⟨earlier, d, later, rfl, hBefore, hEmits⟩ := ih h
          refine ⟨c :: earlier, d, later, rfl, ?_, hEmits⟩
          rw [events, hFirst, hBefore]
          rfl
      | some x =>
          rw [hFirst] at h
          cases before with
          | nil =>
              obtain ⟨rfl, -⟩ := List.cons.inj h
              exact ⟨[], c, calls, rfl, rfl, hFirst⟩
          | cons y before =>
              obtain ⟨rfl, hRest⟩ := List.cons.inj h
              obtain ⟨earlier, d, later, rfl, hBefore, hEmits⟩ := ih hRest
              refine ⟨c :: earlier, d, later, rfl, ?_, hEmits⟩
              rw [events, hFirst, hBefore]
              rfl

/-! ## One call -/

theorem start_of_wanted (h : ((s.context i).traced && wanted scope) = true) (name : Text) :
    s.start wanted i scope name =
      ({ spanCount := s.spanCount + 1
         spans := s.spans.push (s.opening i scope name)
         contexts := s.contexts.push (if (s.opening i scope name).id = 0 then s.context i
           else { s.context i with span := (s.opening i scope name).id }) },
        some (s.opening i scope name).beginning) := by
  simp only [start, begin, h, if_true, Array.back?_push, Option.getD_some]
  rfl

theorem start_of_unwanted (h : ((s.context i).traced && wanted scope) = false) (name : Text) :
    s.start wanted i scope name =
      ({ s with spans := s.spans.push {}, contexts := s.contexts.push (s.context i) }, none) := by
  simp only [start, begin, h, Bool.false_eq_true, if_false, Array.back?_push, Option.getD_some,
    if_true]

/-- A span that is not open is ended without effect. -/
theorem finish_fst (s : Spans) (i : Nat) (detail : Text) :
    (s.finish i detail).1 =
      { s with spans := s.spans.modify i fun sp => { sp with isOpen := false } } := by
  unfold finish
  dsimp only
  split
  · rfl
  · rename_i hClosed
    have hSame : (s.spans.modify i fun sp => { sp with isOpen := false }) = s.spans := by
      apply Array.ext_getElem?
      intro k
      rw [Array.getElem?_modify]
      split
      · rename_i hk
        subst hk
        cases hSpan : s.spans[i]? with
        | none => rfl
        | some sp =>
            have hStill : sp.isOpen = false := by
              simpa [span, Array.getD_eq_getD_getElem?, hSpan] using hClosed
            rw [Option.map_some, ← hStill]
      · rfl
    rw [hSame]

/-- A call adds a span and a context if it starts a span, and neither otherwise. -/
theorem size_call (wanted : Scope → Bool) (s : Spans) (c : SpanCall) :
    (s.call wanted c).1.spans.size = s.spans.size + [c].countP SpanCall.starts ∧
      (s.call wanted c).1.contexts.size = s.contexts.size + [c].countP SpanCall.starts := by
  cases c with
  | start i scope name =>
      rw [call]
      cases h : (s.context i).traced && wanted scope with
      | true =>
          rw [start_of_wanted h]
          exact ⟨Array.size_push _, Array.size_push _⟩
      | false =>
          rw [start_of_unwanted h]
          exact ⟨Array.size_push _, Array.size_push _⟩
  | annotate i key value => exact ⟨Array.size_modify, rfl⟩
  | finish i detail =>
      rw [call, finish_fst]
      exact ⟨Array.size_modify, rfl⟩

theorem size_after (wanted : Scope → Bool) (s : Spans) (calls : List SpanCall) :
    (s.after wanted calls).spans.size = s.spans.size + calls.countP SpanCall.starts ∧
      (s.after wanted calls).contexts.size = s.contexts.size + calls.countP SpanCall.starts := by
  induction calls generalizing s with
  | nil => exact ⟨rfl, rfl⟩
  | cons c calls ih =>
      have hFirst : (c :: calls).countP SpanCall.starts =
          [c].countP SpanCall.starts + calls.countP SpanCall.starts := by
        rw [← List.countP_append, List.singleton_append]
      have hRest := ih (s.call wanted c).1
      obtain ⟨hSpans, hContexts⟩ := size_call wanted s c
      rw [hSpans, hContexts, Nat.add_assoc, Nat.add_assoc, ← hFirst] at hRest
      exact hRest

/-- A call changes a span only if it concerns this span. -/
theorem span_call (hj : j < s.spans.size) (c : SpanCall) :
    (s.call wanted c).1.span j = (s.span j).heed j c := by
  have hPush : ∀ sp, (s.spans.push sp).getD j {} = s.span j := by
    intro sp
    simp [span, Array.getD_eq_getD_getElem?, Array.getElem?_push, Nat.ne_of_lt hj]
  have hModify : ∀ (i : Nat) (f : Span → Span),
      (s.spans.modify i f).getD j {} = if i = j then f (s.span j) else s.span j := by
    intro i f
    simp only [span, Array.getD_eq_getD_getElem?, Array.getElem?_modify,
      Array.getElem?_eq_getElem hj]
    split <;> rfl
  cases c with
  | start i scope name =>
      have hHeed : (s.span j).heed j (.start i scope name) = s.span j := by
        simp [Span.heed, SpanCall.ends, SpanCall.attribute?]
      rw [hHeed, call]
      cases h : (s.context i).traced && wanted scope with
      | true =>
          rw [start_of_wanted h]
          exact hPush _
      | false =>
          rw [start_of_unwanted h]
          exact hPush _
  | annotate i key value =>
      refine (hModify i _).trans ?_
      by_cases hi : i = j
      · simp [Span.heed, SpanCall.ends, SpanCall.attribute?, hi]
      · simp [Span.heed, SpanCall.ends, SpanCall.attribute?, hi]
  | finish i detail =>
      rw [call, finish_fst]
      refine (hModify i _).trans ?_
      by_cases hi : i = j
      · simp [Span.heed, SpanCall.ends, hi]
      · simp [Span.heed, SpanCall.ends, SpanCall.attribute?, hi]

/-- A span follows the calls on it. -/
theorem span_after (hj : j < s.spans.size) (calls : List SpanCall) :
    (s.after wanted calls).span j = calls.foldl (Span.heed j) (s.span j) := by
  induction calls generalizing s with
  | nil => rfl
  | cons c calls ih =>
      have hLater : j < (s.call wanted c).1.spans.size := by
        rw [(size_call wanted s c).1]
        omega
      rw [List.foldl_cons, ← span_call hj c]
      exact ih hLater

/-- A span that is started is as its begin event says, or inert if there is none. -/
theorem span_call_start (wanted : Scope → Bool) (s : Spans) (i : Nat) (scope : Scope)
    (name : Text) :
    (s.call wanted (.start i scope name)).1.span s.spans.size =
      (((s.call wanted (.start i scope name)).2).map Span.opened).getD {} := by
  rw [call]
  cases h : (s.context i).traced && wanted scope with
  | true =>
      rw [start_of_wanted h]
      simp [span, opening, Span.opened, Span.beginning]
  | false =>
      rw [start_of_unwanted h]
      simp [span]

/-! ## Emitting events -/

theorem emitted?_start :
    s.emitted? wanted calls (.start i scope name) =
      if ((s.after wanted calls).context i).traced && wanted scope then
        some ((s.after wanted calls).opening i scope name).beginning
      else none := by
  rw [emitted?, call]
  cases h : ((s.after wanted calls).context i).traced && wanted scope with
  | true => rw [start_of_wanted h, if_pos rfl]
  | false =>
      rw [start_of_unwanted h]
      rfl

theorem emitted?_finish :
    s.emitted? wanted calls (.finish j detail) = some e ↔
      ((s.after wanted calls).span j).isOpen = true ∧
        e = ((s.after wanted calls).span j).ending detail := by
  unfold emitted? call finish
  dsimp only
  split
  · rename_i hOpen
    simp [hOpen, eq_comm]
  · rename_i hClosed
    simp [hClosed]

theorem exists_start_of_lt (h : j < calls.countP SpanCall.starts) :
    ∃ earlier i scope name since, calls = earlier ++ .start i scope name :: since ∧
      earlier.countP SpanCall.starts = j := by
  induction calls generalizing j with
  | nil => exact absurd h (Nat.not_lt_zero j)
  | cons c calls ih =>
      by_cases hStarts : c.starts = true
      · cases j with
        | zero =>
            cases c with
            | start i scope name => exact ⟨[], i, scope, name, calls, rfl, rfl⟩
            | annotate i key value => cases hStarts
            | finish i detail => cases hStarts
        | succ j =>
            rw [List.countP_cons_of_pos hStarts] at h
            obtain ⟨earlier, i, scope, name, since, rfl, hCount⟩ := ih (Nat.lt_of_succ_lt_succ h)
            refine ⟨c :: earlier, i, scope, name, since, rfl, ?_⟩
            rw [List.countP_cons_of_pos hStarts, hCount]
      · rw [List.countP_cons_of_neg hStarts] at h
        obtain ⟨earlier, i, scope, name, since, rfl, hCount⟩ := ih h
        refine ⟨c :: earlier, i, scope, name, since, rfl, ?_⟩
        rw [List.countP_cons_of_neg hStarts, hCount]

theorem ending_opened {b : Event}
    (h : s.emitted? wanted calls (.start i scope name) = some b) (detail : Text)
    (attributes : List (Text × Text)) :
    { Span.opened b with attributes := attributes }.ending detail =
      { b with kind := .spanEnd, detail := detail, attributes := attributes } := by
  rw [emitted?_start] at h
  split at h
  · obtain rfl := Option.some.inj h
    rfl
  · cases h

/-- What has become of a span since it was started. -/
theorem span_since (wanted : Scope → Bool) (n i : Nat) (scope : Scope) (name : Text)
    (earlier since : List SpanCall) :
    ((fresh n).after wanted (earlier ++ .start i scope name :: since)).span
        (earlier.countP SpanCall.starts) =
      since.foldl (Span.heed (earlier.countP SpanCall.starts))
        ((((fresh n).emitted? wanted earlier (.start i scope name)).map Span.opened).getD {}) := by
  have hSize : ((fresh n).after wanted earlier).spans.size = earlier.countP SpanCall.starts :=
    (size_after wanted (fresh n) earlier).1.trans (Nat.zero_add _)
  have hIn : earlier.countP SpanCall.starts <
      (((fresh n).after wanted earlier).call wanted (.start i scope name)).1.spans.size := by
    rw [(size_call wanted _ _).1, hSize]
    exact Nat.lt_succ_self _
  have hStart := span_call_start wanted ((fresh n).after wanted earlier) i scope name
  rw [hSize] at hStart
  rw [after_append, emitted?, ← hStart]
  exact span_after hIn since

/-- An end event belongs to a span with a begin event that has not been ended since, and carries the
attributes added since. -/
theorem emitted?_finish_iff :
    (fresh n).emitted? wanted calls (.finish j detail) = some e ↔
      ∃ earlier i scope name since b, calls = earlier ++ .start i scope name :: since ∧
        earlier.countP SpanCall.starts = j ∧
        (fresh n).emitted? wanted earlier (.start i scope name) = some b ∧
        (∀ c ∈ since, c.ends j = false) ∧
        e = { b with
          kind := .spanEnd, detail := detail, attributes := since.filterMap (SpanCall.attribute? j) } := by
  constructor
  · intro h
    obtain ⟨hOpen, rfl⟩ := emitted?_finish.mp h
    have hIn : j < calls.countP SpanCall.starts := by
      by_contra hOut
      have hSize : ((fresh n).after wanted calls).spans.size ≤ j := by
        rw [(size_after wanted _ _).1]
        show 0 + _ ≤ j
        omega
      rw [span, Array.getD_eq_getD_getElem?, Array.getElem?_eq_none hSize] at hOpen
      cases hOpen
    obtain ⟨earlier, i, scope, name, since, rfl, rfl⟩ := exists_start_of_lt hIn
    have hSpan := span_since wanted n i scope name earlier since
    cases hBegin : (fresh n).emitted? wanted earlier (.start i scope name) with
    | none =>
        rw [hBegin, Option.map_none, Option.getD_none, Span.foldl_heed_of_closed rfl] at hSpan
        rw [hSpan] at hOpen
        cases hOpen
    | some b =>
        rw [hBegin, Option.map_some, Option.getD_some] at hSpan
        rw [hSpan, Span.isOpen_foldl_heed rfl] at hOpen
        refine ⟨earlier, i, scope, name, since, b, rfl, rfl, hBegin, hOpen, ?_⟩
        rw [hSpan, Span.foldl_heed_of_open rfl hOpen]
        exact ending_opened hBegin _ _
  · rintro ⟨earlier, i, scope, name, since, b, rfl, rfl, hBegin, hOpen, rfl⟩
    have hSpan := span_since wanted n i scope name earlier since
    rw [hBegin, Option.map_some, Option.getD_some] at hSpan
    rw [emitted?_finish, hSpan, Span.isOpen_foldl_heed rfl, Span.foldl_heed_of_open rfl hOpen]
    exact ⟨hOpen, (ending_opened hBegin _ _).symm⟩

end Spans

/-! ## Sessions -/

theorem Sink.wants_emit (s : Sink) (e : Event) : (s.emit e).1.wants = s.wants := by
  cases s with
  | off => rfl
  | stream level format => rfl
  | ring r =>
      funext scope
      exact congrFun (r.wants_emit e) scope

theorem Tracer.wants_emit (t : Tracer) (e : Event) : (t.emit e).1.wants = t.wants := by
  funext scope
  cases t with
  | single s =>
      show [(s.emit e).1].any (·.wants scope) = [s].any (·.wants scope)
      simp [s.wants_emit e]
  | multi sinks =>
      show (((sinks.map (·.emit e)).map (·.1)).any (·.wants scope)) = sinks.any (·.wants scope)
      simp [List.any_map, Function.comp_def, Sink.wants_emit]

namespace Session

/-- Makes a call in a session. -/
def call (s : Session) : SpanCall → Session
  | .start i scope name => s.start i scope name
  | .annotate i key value => s.annotate i key value
  | .finish i detail => s.finish i detail

theorem call_eq_turn (s : Session) (c : SpanCall) :
    s.call c = s.turn (s.toSpans.call s.tracer.wants c) := by
  cases c <;> rfl

/-- Events leave the spans alone, and do not depend on them. -/
theorem foldl_stamped_withSpans (s : Session) (spans : Spans) (es : List Event) :
    es.foldl stamped { s with toSpans := spans } =
      { es.foldl stamped s with toSpans := spans } := by
  induction es generalizing s with
  | nil => rfl
  | cons e es ih => exact ih (s.stamped e)

theorem wants_foldl_stamped (s : Session) (es : List Event) :
    (es.foldl stamped s).tracer.wants = s.tracer.wants := by
  induction es generalizing s with
  | nil => rfl
  | cons e es ih => exact (ih (s.stamped e)).trans (s.tracer.wants_emit _)

/-- Calls in a session hand the events that they emit to the tracer, one after the other. -/
theorem foldl_call (s : Session) (calls : List SpanCall) :
    calls.foldl call s =
      (s.toSpans.events s.tracer.wants calls).foldl stamped
        { s with toSpans := s.toSpans.after s.tracer.wants calls } := by
  induction calls generalizing s with
  | nil => rfl
  | cons c calls ih =>
      have hTurn : s.call c = { (s.toSpans.call s.tracer.wants c).2.toList.foldl stamped s with
          toSpans := (s.toSpans.call s.tracer.wants c).1 } := by
        rw [call_eq_turn, turn, foldl_stamped_withSpans]
      have hWants : (s.call c).tracer.wants = s.tracer.wants := by
        rw [hTurn]
        exact wants_foldl_stamped s _
      rw [List.foldl_cons, ih, hWants, Spans.events, List.foldl_append,
        foldl_stamped_withSpans s, hTurn]
      rfl

end Session

end TokenLint.Trace
