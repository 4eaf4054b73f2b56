import Mathlib.Algebra.Group.Nat.Defs
import Mathlib.Data.List.Induction
import TokenLint.Proofs.Table
import TokenLint.Proofs.Trace.Calls

/-!
# Matching events

Contexts form a tree, and calls come back to them in any order. Spans that are not inert are numbered
one after the other, so a number stands for one begin event. The context of a span knows the number
of the nearest span around it that is not inert, and an end event repeats what the begin event of its
span says.

* `numbers_events`: the numbers of begin events.
* `span_ne_of_ended`: no span is ended twice.
* `nearest_context`: what a context knows.
* `span_events_matched`: all of this for every program of calls.
-/

namespace TokenLint.Trace

namespace Event

/-- Does the event mark the beginning of a span? -/
def begins (e : Event) : Bool := e.kind = .spanBegin

/-- Does the event mark the end of a span? -/
def ends (e : Event) : Bool := e.kind = .spanEnd

/-- Does another event mark the beginning of the same span? -/
def opens (e b : Event) : Bool :=
  b.begins && b.span = e.span && b.parent = e.parent && b.scope = e.scope && b.name = e.name

end Event

namespace Spans

/-- The number of the nearest span that encloses what comes in a context and is not inert: such a
span has a begin event. Zero if there is none. -/
inductive Nearest (wanted : Scope → Bool) (n : Nat) : List SpanCall → Nat → UInt64 → Prop
  | root {calls : List SpanCall} {i : Nat} (h : i < 3) : Nearest wanted n calls i 0
  | begun {earlier since : List SpanCall} {i : Nat} {scope : Scope} {name : Text} {b : Event}
      (h : (fresh n).emitted? wanted earlier (.start i scope name) = some b) :
      Nearest wanted n (earlier ++ .start i scope name :: since)
        (earlier.countP SpanCall.starts + 3) b.span
  | inert {earlier since : List SpanCall} {i : Nat} {scope : Scope} {name : Text} {id : UInt64}
      (h : (fresh n).emitted? wanted earlier (.start i scope name) = none)
      (hOuter : Nearest wanted n earlier i id) :
      Nearest wanted n (earlier ++ .start i scope name :: since)
        (earlier.countP SpanCall.starts + 3) id

variable {wanted : Scope → Bool} {s : Spans} {n i j : Nat} {scope : Scope} {name detail : Text}
  {calls earlier : List SpanCall} {c : SpanCall} {e b : Event}

/-! ## Which calls emit which events -/

theorem finish_of_ends (h : s.emitted? wanted calls c = some e) (hEnds : e.ends = true) :
    ∃ j detail, c = .finish j detail := by
  cases c with
  | start i scope name =>
      rw [emitted?_start] at h
      split at h
      · obtain rfl := Option.some.inj h
        cases hEnds
      · cases h
  | annotate i key value => cases h
  | finish i detail => exact ⟨i, detail, rfl⟩

theorem beginning_of_emitted? (h : s.emitted? wanted calls (.start i scope name) = some b) :
    (((s.after wanted calls).context i).traced && wanted scope) = true ∧
      b = ((s.after wanted calls).opening i scope name).beginning := by
  rw [emitted?_start] at h
  split at h
  · exact ⟨‹_›, (Option.some.inj h).symm⟩
  · cases h

theorem begins_of_emitted? (h : s.emitted? wanted calls (.start i scope name) = some b) :
    b.begins = true := by
  rw [(beginning_of_emitted? h).2]
  rfl

theorem mem_events (rest : List SpanCall) (h : s.emitted? wanted earlier c = some e) :
    e ∈ s.events wanted (earlier ++ c :: rest) := by
  have hFirst : ((s.after wanted earlier).call wanted c).2 = some e := h
  rw [events_append, events, hFirst]
  simp

/-! ## Numbers -/

theorem numbers_call (wanted : Scope → Bool) (s : Spans) (c : SpanCall) :
    ∃ k ≤ [c].countP SpanCall.starts, (s.call wanted c).1.spanCount = s.spanCount + k ∧
      ((s.call wanted c).2.toList.filter Event.begins).map (·.span) =
        (List.range' (s.spanCount + 1) k).map Nat.toUInt64 := by
  cases c with
  | start i scope name =>
      rw [call]
      cases h : (s.context i).traced && wanted scope with
      | true =>
          rw [start_of_wanted h]
          exact ⟨1, Nat.le_refl 1, rfl, rfl⟩
      | false =>
          rw [start_of_unwanted h]
          exact ⟨0, Nat.zero_le 1, rfl, rfl⟩
  | annotate i key value => exact ⟨0, Nat.le_refl 0, rfl, rfl⟩
  | finish i detail =>
      refine ⟨0, Nat.le_refl 0, ?_⟩
      unfold call finish
      dsimp only
      split
      · exact ⟨rfl, rfl⟩
      · exact ⟨rfl, rfl⟩

/-- Begin events are numbered one after the other. -/
theorem numbers_events (wanted : Scope → Bool) (s : Spans) (calls : List SpanCall) :
    ∃ k ≤ calls.countP SpanCall.starts,
      ((s.events wanted calls).filter Event.begins).map (·.span) =
        (List.range' (s.spanCount + 1) k).map Nat.toUInt64 := by
  induction calls generalizing s with
  | nil => exact ⟨0, Nat.le_refl 0, rfl⟩
  | cons c calls ih =>
      obtain ⟨k, hk, hCount, hFirst⟩ := numbers_call wanted s c
      obtain ⟨l, hl, hRest⟩ := ih (s.call wanted c).1
      have hStarts : (c :: calls).countP SpanCall.starts =
          [c].countP SpanCall.starts + calls.countP SpanCall.starts := by
        rw [← List.countP_append, List.singleton_append]
      have hNext : s.spanCount + k + 1 = s.spanCount + 1 + 1 * k := by omega
      refine ⟨k + l, by omega, ?_⟩
      rw [events, List.filter_append, List.map_append, hFirst, hRest, hCount, hNext,
        ← List.map_append, List.range'_append]

theorem toUInt64_lt {a b : Nat} (h : a < b) (hb : b < 2 ^ 64) : a.toUInt64 < b.toUInt64 := by
  rw [UInt64.lt_iff_toNat_lt, UInt64.toNat_ofNat', UInt64.toNat_ofNat']
  omega

theorem few_of_append {rest : List SpanCall}
    (h : n + (calls ++ rest).countP SpanCall.starts < 2 ^ 64) :
    n + calls.countP SpanCall.starts < 2 ^ 64 := by
  rw [List.countP_append] at h
  omega

section Few

variable (hFew : n + calls.countP SpanCall.starts < 2 ^ 64)
include hFew

/-- Of two begin events, the later one has the greater number. -/
theorem pairwise_numbers (wanted : Scope → Bool) :
    ((((fresh n).events wanted calls).filter Event.begins).map (·.span)).Pairwise (· < ·) := by
  obtain ⟨k, hk, hNumbers⟩ := numbers_events wanted (fresh n) calls
  rw [hNumbers]
  refine List.pairwise_map.mpr (List.Pairwise.imp_of_mem ?_ List.pairwise_lt_range')
  intro x y _ hy hxy
  have hBound : y < (fresh n).spanCount + 1 + k := (List.mem_range'_1.mp hy).2
  have hStart : (fresh n).spanCount = n := rfl
  exact toUInt64_lt hxy (by omega)

theorem span_ne_zero (he : e ∈ (fresh n).events wanted calls) (hBegins : e.begins = true) :
    e.span ≠ 0 := by
  obtain ⟨k, hk, hNumbers⟩ := numbers_events wanted (fresh n) calls
  have hMem : e.span ∈ (List.range' ((fresh n).spanCount + 1) k).map Nat.toUInt64 := by
    rw [← hNumbers]
    exact List.mem_map_of_mem (List.mem_filter.mpr ⟨he, hBegins⟩)
  obtain ⟨x, hx, hSpan⟩ := List.mem_map.mp hMem
  have hBound := List.mem_range'_1.mp hx
  have hStart : (fresh n).spanCount = n := rfl
  have hPositive : Nat.toUInt64 0 < x.toUInt64 := toUInt64_lt (by omega) (by omega)
  rw [← hSpan]
  exact (UInt64.ne_of_lt hPositive).symm

theorem span_lt {middle rest : List SpanCall} {c' : SpanCall} {b' : Event}
    (hCalls : calls = earlier ++ c :: (middle ++ c' :: rest))
    (hFirst : (fresh n).emitted? wanted earlier c = some b) (hb : b.begins = true)
    (hSecond : (fresh n).emitted? wanted (earlier ++ c :: middle) c' = some b')
    (hb' : b'.begins = true) : b.span < b'.span := by
  have hNumbers := pairwise_numbers hFew wanted
  rw [List.pairwise_map, List.pairwise_filter] at hNumbers
  have hFirst' : (((fresh n).after wanted earlier).call wanted c).2 = some b := hFirst
  have hMem : b' ∈ (((fresh n).after wanted earlier).call wanted c).1.events wanted
      (middle ++ c' :: rest) := by
    refine mem_events rest ?_
    rw [emitted?, after_append] at hSecond
    exact hSecond
  rw [hCalls, events_append, events, hFirst'] at hNumbers
  exact (List.pairwise_cons.mp (List.pairwise_append.mp hNumbers).2.1).1 b' hMem hb hb'

/-- So the number of a begin event says where it comes from. -/
theorem eq_of_span_eq {earlier' rest rest' : List SpanCall} {c' : SpanCall} {b' : Event}
    (hCalls : calls = earlier ++ c :: rest) (hCalls' : calls = earlier' ++ c' :: rest')
    (hFirst : (fresh n).emitted? wanted earlier c = some b) (hb : b.begins = true)
    (hSecond : (fresh n).emitted? wanted earlier' c' = some b') (hb' : b'.begins = true)
    (hSpan : b.span = b'.span) : earlier = earlier' := by
  have hSplit := hCalls.symm.trans hCalls'
  rcases List.append_eq_append_iff.mp hSplit with ⟨between, rfl, hRest⟩ | ⟨between, rfl, hRest⟩
  · cases between with
    | nil => exact (List.append_nil earlier).symm
    | cons d middle =>
        obtain ⟨rfl, rfl⟩ := List.cons.inj hRest
        have hLess := span_lt hFew hCalls hFirst hb hSecond hb'
        exact absurd hSpan (UInt64.ne_of_lt hLess)
  · cases between with
    | nil => exact List.append_nil earlier'
    | cons d middle =>
        obtain ⟨rfl, rfl⟩ := List.cons.inj hRest
        have hLess := span_lt hFew hCalls' hSecond hb' hFirst hb
        exact absurd hSpan.symm (UInt64.ne_of_lt hLess)

/-! ## End events -/

/-- Where a span is ended, it has not been ended before. -/
theorem span_ne_of_ended (hLast : (fresh n).emitted? wanted calls c = some e)
    (hEnds : e.ends = true) {x : Event} (hx : x ∈ (fresh n).events wanted calls)
    (hBefore : x.ends = true) : x.span ≠ e.span := by
  intro hSpan
  obtain ⟨j, detail, rfl⟩ := finish_of_ends hLast hEnds
  obtain ⟨l₁, l₂, hEvents⟩ := List.append_of_mem hx
  obtain ⟨earlier, d, later, hCalls, -, hFirst⟩ := exists_call_of_events hEvents
  obtain ⟨k, detail', rfl⟩ := finish_of_ends hFirst hBefore
  obtain ⟨start, i, scope, name, since, b, hBegun, hj, hb, hOpen, rfl⟩ :=
    emitted?_finish_iff.mp hLast
  obtain ⟨start', i', scope', name', since', b', rfl, hk, hb', -, rfl⟩ :=
    emitted?_finish_iff.mp hFirst
  have hCalls' : calls = start' ++ .start i' scope' name' :: (since' ++ .finish k detail' :: later) :=
    hCalls.trans (List.append_assoc _ _ _)
  -- equal numbers mean the same call, and then the earlier end lies after it
  obtain rfl : start = start' := eq_of_span_eq hFew hBegun hCalls' hb (begins_of_emitted? hb)
    hb' (begins_of_emitted? hb') hSpan.symm
  obtain ⟨-, rfl⟩ := List.cons.inj (List.append_cancel_left (hBegun.symm.trans hCalls'))
  have hEarly := hOpen (.finish k detail') (List.mem_append_right since' List.mem_cons_self)
  simp [SpanCall.ends, ← hj, ← hk] at hEarly

/-- The begin event of a span that is ended comes before, and is the only one. -/
theorem filter_opens {before after : List Event}
    (hEvents : (fresh n).events wanted calls = before ++ e :: after) (hEnds : e.ends = true) :
    ∃ b, before.filter e.opens = [b] := by
  obtain ⟨earlier, c, later, rfl, rfl, hLast⟩ := exists_call_of_events hEvents
  obtain ⟨j, detail, rfl⟩ := finish_of_ends hLast hEnds
  obtain ⟨start, i, scope, name, since, b, rfl, -, hb, -, rfl⟩ := emitted?_finish_iff.mp hLast
  have hFewEarlier := few_of_append hFew
  have hNodup := (pairwise_numbers hFewEarlier wanted).imp UInt64.ne_of_lt
  have hBegins := begins_of_emitted? hb
  have hOnly := Table.filter_eq_singleton_of_nodup_map hNodup
    (List.mem_filter.mpr ⟨mem_events since hb, hBegins⟩)
  rw [List.filter_filter] at hOnly
  refine ⟨b, ?_⟩
  calc
    _ = (((fresh n).events wanted (start ++ .start i scope name :: since)).filter
          fun a => decide (a.span = b.span) && a.begins).filter
            fun a => a.parent = b.parent && a.scope = b.scope && a.name = b.name := by
      rw [List.filter_filter]
      refine List.filter_congr fun a _ => ?_
      rw [Event.opens]
      ac_rfl
    _ = [b] := by
      rw [hOnly]
      simp

theorem nodup_ended :
    ((((fresh n).events wanted calls).filter Event.ends).map (·.span)).Nodup := by
  induction calls using List.reverseRecOn with
  | nil => exact List.nodup_nil
  | append_singleton calls c ih =>
      have hFewBefore := few_of_append hFew
      have hConcat : (fresh n).events wanted (calls ++ [c]) =
          (fresh n).events wanted calls ++ ((fresh n).emitted? wanted calls c).toList := by
        rw [events_append, events, events, List.append_nil]
        rfl
      rw [hConcat, List.filter_append, List.map_append]
      refine List.nodup_append.mpr ⟨ih hFewBefore, ?_, ?_⟩
      · cases (fresh n).emitted? wanted calls c with
        | none => exact List.nodup_nil
        | some e => cases h : e.ends <;> simp [h]
      · intro a ha b hb
        obtain ⟨x, hx, rfl⟩ := List.mem_map.mp ha
        obtain ⟨e, he, rfl⟩ := List.mem_map.mp hb
        obtain ⟨hx, hBefore⟩ := List.mem_filter.mp hx
        obtain ⟨he, hEnds⟩ := List.mem_filter.mp he
        exact span_ne_of_ended hFewBefore (Option.mem_toList.mp he) hEnds hx hBefore

end Few

/-! ## Contexts -/

theorem size_contexts_after (wanted : Scope → Bool) (n : Nat) (calls : List SpanCall) :
    ((fresh n).after wanted calls).contexts.size = calls.countP SpanCall.starts + 3 :=
  (size_after wanted (fresh n) calls).2.trans (Nat.add_comm _ _)

/-- Contexts do not change. -/
theorem context_call (wanted : Scope → Bool) (c : SpanCall) (hi : i < s.contexts.size) :
    (s.call wanted c).1.context i = s.context i := by
  have hPush : ∀ ctx, (s.contexts.push ctx).getD i {} = s.context i := by
    intro ctx
    simp [context, Array.getD_eq_getD_getElem?, Array.getElem?_push, Nat.ne_of_lt hi]
  cases c with
  | start k scope name =>
      rw [call]
      cases h : (s.context k).traced && wanted scope with
      | true =>
          rw [start_of_wanted h]
          exact hPush _
      | false =>
          rw [start_of_unwanted h]
          exact hPush _
  | annotate k key value => rfl
  | finish k detail =>
      rw [call, finish_fst]
      rfl

/-- The context that a call makes knows the span that is started, unless this span is inert. -/
theorem context_call_start (h : (s.call wanted (.start i scope name)).2 = some b)
    (hb : b.span ≠ 0) :
    (s.call wanted (.start i scope name)).1.context s.contexts.size =
      { s.context i with span := b.span } := by
  rw [call] at h ⊢
  cases hWanted : (s.context i).traced && wanted scope with
  | true =>
      rw [start_of_wanted hWanted] at h ⊢
      obtain rfl := Option.some.inj h
      simp only [context, Array.getD_eq_getD_getElem?, Array.getElem?_push_size,
        Option.getD_some]
      exact if_neg hb
  | false =>
      rw [start_of_unwanted hWanted] at h
      cases h

theorem context_call_inert (h : (s.call wanted (.start i scope name)).2 = none) :
    (s.call wanted (.start i scope name)).1.context s.contexts.size = s.context i := by
  rw [call] at h ⊢
  cases hWanted : (s.context i).traced && wanted scope with
  | true =>
      rw [start_of_wanted hWanted] at h
      cases h
  | false =>
      rw [start_of_unwanted hWanted]
      simp [context, Array.getD_eq_getD_getElem?]

theorem Nearest.append {id : UInt64} (h : Nearest wanted n calls i id) (rest : List SpanCall) :
    Nearest wanted n (calls ++ rest) i id := by
  cases h with
  | root h => exact root h
  | begun h =>
      rw [List.append_assoc]
      exact begun h
  | inert h hOuter =>
      rw [List.append_assoc]
      exact inert h hOuter

theorem Nearest.eq_or_exists {id : UInt64} (h : Nearest wanted n calls i id) :
    (i < 3 ∧ id = 0) ∨
      ∃ earlier k scope name since, calls = earlier ++ .start k scope name :: since ∧
        i = earlier.countP SpanCall.starts + 3 ∧
        ((∃ b, (fresh n).emitted? wanted earlier (.start k scope name) = some b ∧ id = b.span) ∨
          ((fresh n).emitted? wanted earlier (.start k scope name) = none ∧
            Nearest wanted n earlier k id)) := by
  cases h with
  | root h => exact Or.inl ⟨h, rfl⟩
  | begun h => exact Or.inr ⟨_, _, _, _, _, rfl, rfl, Or.inl ⟨_, h, rfl⟩⟩
  | inert h hOuter => exact Or.inr ⟨_, _, _, _, _, rfl, rfl, Or.inr ⟨h, hOuter⟩⟩

/-- A call that starts a span is known by how many such calls come before. -/
theorem eq_of_countP_eq {earlier' rest rest' : List SpanCall} {c' : SpanCall}
    (h : earlier ++ c :: rest = earlier' ++ c' :: rest') (hc : c.starts = true)
    (hc' : c'.starts = true)
    (hCount : earlier.countP SpanCall.starts = earlier'.countP SpanCall.starts) :
    earlier = earlier' := by
  rcases List.append_eq_append_iff.mp h with ⟨between, rfl, hRest⟩ | ⟨between, rfl, hRest⟩
  · cases between with
    | nil => exact (List.append_nil earlier).symm
    | cons d middle =>
        obtain ⟨rfl, -⟩ := List.cons.inj hRest
        rw [List.countP_append, List.countP_cons_of_pos hc] at hCount
        omega
  · cases between with
    | nil => exact List.append_nil earlier'
    | cons d middle =>
        obtain ⟨rfl, -⟩ := List.cons.inj hRest
        rw [List.countP_append, List.countP_cons_of_pos hc'] at hCount
        omega

theorem Nearest.unique {id id' : UInt64} (h : Nearest wanted n calls i id)
    (h' : Nearest wanted n calls i id') : id = id' := by
  induction h generalizing id' with
  | root hi =>
      rcases h'.eq_or_exists with ⟨-, rfl⟩ | ⟨earlier, -, -, -, -, -, hi', -⟩
      · rfl
      · omega
  | begun h =>
      rcases h'.eq_or_exists with ⟨hi', -⟩ | ⟨earlier, k, scope, name, since, hCalls, hi', hId⟩
      · omega
      · obtain rfl := eq_of_countP_eq hCalls rfl rfl (Nat.add_right_cancel hi')
        obtain ⟨hStart, -⟩ := List.cons.inj (List.append_cancel_left hCalls)
        rw [hStart] at h
        rcases hId with ⟨b, hb, rfl⟩ | ⟨hNone, -⟩
        · rw [hb] at h
          rw [Option.some.inj h]
        · rw [hNone] at h
          cases h
  | inert h hOuter ih =>
      rcases h'.eq_or_exists with ⟨hi', -⟩ | ⟨earlier, k, scope, name, since, hCalls, hi', hId⟩
      · omega
      · obtain rfl := eq_of_countP_eq hCalls rfl rfl (Nat.add_right_cancel hi')
        obtain ⟨hStart, -⟩ := List.cons.inj (List.append_cancel_left hCalls)
        obtain ⟨rfl, rfl, rfl⟩ := SpanCall.start.inj hStart
        rcases hId with ⟨b, hb, rfl⟩ | ⟨-, hOuter'⟩
        · rw [hb] at h
          cases h
        · exact ih hOuter'

theorem lt_of_traced (h : (s.context i).traced = true) : i < s.contexts.size := by
  by_contra hOut
  rw [context, Array.getD_eq_getD_getElem?,
    Array.getElem?_eq_none (Nat.le_of_not_lt hOut)] at h
  cases h

/-- A context with the tracer knows the nearest span around it that is not inert. -/
theorem nearest_context (hFew : n + calls.countP SpanCall.starts < 2 ^ 64)
    (hTraced : (((fresh n).after wanted calls).context i).traced = true) :
    Nearest wanted n calls i (((fresh n).after wanted calls).context i).span := by
  induction calls using List.reverseRecOn generalizing i with
  | nil =>
      have hRoot : i < 3 := lt_of_traced hTraced
      obtain rfl | rfl | rfl : i = 0 ∨ i = 1 ∨ i = 2 := by omega
      · exact .root hRoot
      · exact .root hRoot
      · exact .root hRoot
  | append_singleton calls c ih =>
      have hFewBefore := few_of_append hFew
      have hSize := lt_of_traced hTraced
      rw [size_contexts_after, List.countP_append] at hSize
      have hCall : (fresh n).after wanted (calls ++ [c]) =
          (((fresh n).after wanted calls).call wanted c).1 := after_append ..
      rw [hCall] at hTraced ⊢
      by_cases hOld : i < ((fresh n).after wanted calls).contexts.size
      · rw [context_call wanted c hOld] at hTraced ⊢
        exact (ih hFewBefore hTraced).append [c]
      · rw [size_contexts_after] at hOld
        cases c with
        | start k scope name =>
            have hCount : [SpanCall.start k scope name].countP SpanCall.starts = 1 := rfl
            obtain rfl : i = calls.countP SpanCall.starts + 3 := by omega
            rw [← size_contexts_after wanted n calls] at hTraced ⊢
            cases hBegin : (((fresh n).after wanted calls).call wanted (.start k scope name)).2 with
            | some b =>
                have hMem : b ∈ (fresh n).events wanted (calls ++ [.start k scope name]) :=
                  mem_events [] hBegin
                rw [context_call_start hBegin
                  (span_ne_zero hFew hMem (begins_of_emitted? hBegin)), size_contexts_after]
                exact .begun hBegin
            | none =>
                rw [context_call_inert hBegin] at hTraced ⊢
                rw [size_contexts_after]
                exact .inert hBegin (ih hFewBefore hTraced)
        | annotate k key value =>
            have hCount : [SpanCall.annotate k key value].countP SpanCall.starts = 0 := rfl
            omega
        | finish k detail =>
            have hCount : [SpanCall.finish k detail].countP SpanCall.starts = 0 := rfl
            omega

/-- The parent of a span is the nearest span around it that is not inert. -/
theorem nearest_iff_eq_parent {rest : List SpanCall} {id : UInt64}
    (hFew : n + (earlier ++ .start i scope name :: rest).countP SpanCall.starts < 2 ^ 64)
    (hBegin : (fresh n).emitted? wanted earlier (.start i scope name) = some b) :
    Nearest wanted n earlier i id ↔ id = b.parent := by
  have hFewBefore := few_of_append hFew
  obtain ⟨hWanted, rfl⟩ := beginning_of_emitted? hBegin
  have hNearest := nearest_context hFewBefore (Bool.and_eq_true_iff.mp hWanted).1
  constructor
  · intro h
    exact h.unique hNearest
  · rintro rfl
    exact hNearest

/-! ## Programs -/

/-- The events of a program of calls match. -/
structure Matched (wanted : Scope → Bool) (n : Nat) (calls : List SpanCall) : Prop where
  increasing :
    ((((fresh n).events wanted calls).filter Event.begins).map (·.span)).Pairwise (· < ·)
  ne_zero : ∀ e ∈ (fresh n).events wanted calls, e.begins = true → e.span ≠ 0
  begun_once : ∀ before e after, (fresh n).events wanted calls = before ++ e :: after →
    e.ends = true → before.countP e.opens = 1
  ended_once : ((((fresh n).events wanted calls).filter Event.ends).map (·.span)).Nodup
  /-- A span is inert without a tracer, and where its scope is not wanted. -/
  inert_iff : ∀ earlier i scope name later, calls = earlier ++ .start i scope name :: later →
    ((fresh n).emitted? wanted earlier (.start i scope name) = none ↔
      ((((fresh n).after wanted earlier).context i).traced && wanted scope) = false)
  begun : ∀ earlier i scope name later, calls = earlier ++ .start i scope name :: later →
    ∀ b, (fresh n).emitted? wanted earlier (.start i scope name) = some b →
      b.begins = true ∧ b.scope = scope ∧ b.name = name ∧
        ∀ id, Nearest wanted n earlier i id ↔ id = b.parent
  inert : ∀ earlier i scope name since detail later,
    calls = earlier ++ .start i scope name :: since ++
      .finish (earlier.countP SpanCall.starts) detail :: later →
    (fresh n).emitted? wanted earlier (.start i scope name) = none →
      (fresh n).emitted? wanted (earlier ++ .start i scope name :: since)
        (.finish (earlier.countP SpanCall.starts) detail) = none
  /-- The first call that ends a span emits an event, with what was added to the span so far. -/
  ended : ∀ done j detail later, calls = done ++ .finish j detail :: later →
    ∀ e, (fresh n).emitted? wanted done (.finish j detail) = some e ↔
      ∃ earlier i scope name since b, done = earlier ++ .start i scope name :: since ∧
        earlier.countP SpanCall.starts = j ∧
        (fresh n).emitted? wanted earlier (.start i scope name) = some b ∧
        (∀ c ∈ since, c.ends j = false) ∧
        e = { b with
          kind := .spanEnd, detail := detail, attributes := since.filterMap (SpanCall.attribute? j) }

/-- No event comes from a span that is inert. -/
theorem emitted?_finish_of_inert (since : List SpanCall) (detail : Text)
    (h : (fresh n).emitted? wanted earlier (.start i scope name) = none) :
    (fresh n).emitted? wanted (earlier ++ .start i scope name :: since)
      (.finish (earlier.countP SpanCall.starts) detail) = none := by
  rw [Option.eq_none_iff_forall_not_mem]
  intro e he
  have hOpen := (emitted?_finish.mp he).1
  rw [span_since, h, Option.map_none, Option.getD_none, Span.foldl_heed_of_closed rfl] at hOpen
  cases hOpen

/-- The events that a program of calls emits match, whichever scopes are wanted, and a session hands
these events to its tracer. -/
theorem span_events_matched (wanted : Scope → Bool) {n : Nat} {calls : List SpanCall}
    (hFew : n + calls.countP SpanCall.starts < 2 ^ 64) :
    Matched wanted n calls ∧
      ∀ t : Tracer, t.wants = wanted →
        calls.foldl Session.call { toSpans := fresh n, tracer := t } =
          ((fresh n).events wanted calls).foldl Session.stamped
            { toSpans := (fresh n).after wanted calls, tracer := t } := by
  refine ⟨?_, ?_⟩
  · refine
      { increasing := pairwise_numbers hFew wanted
        ne_zero := fun e he hBegins => span_ne_zero hFew he hBegins
        begun_once := ?_
        ended_once := nodup_ended hFew
        inert_iff := ?_
        begun := ?_
        inert := fun _ _ _ _ since detail _ _ h => emitted?_finish_of_inert since detail h
        ended := fun _ _ _ _ _ e => emitted?_finish_iff }
    · intro before e after hEvents hEnds
      obtain ⟨b, hOnly⟩ := filter_opens hFew hEvents hEnds
      rw [List.countP_eq_length_filter, hOnly]
      rfl
    · intro earlier i scope name later _
      rw [emitted?_start]
      split
      · simp [*]
      · simp [*]
    · rintro earlier i scope name later rfl b hBegin
      have hNearest : ∀ id, Nearest wanted n earlier i id ↔ id = b.parent :=
        fun _ => nearest_iff_eq_parent hFew hBegin
      obtain ⟨-, rfl⟩ := beginning_of_emitted? hBegin
      exact ⟨rfl, rfl, rfl, hNearest⟩
  · rintro t rfl
    exact Session.foldl_call _ calls

/-- The span of a rule is inert, between the span of a command and that of a file. The latter is
annotated and ended once more after its end. -/
def inertBetween : List SpanCall :=
  [.start 0 .command "lint", .start 3 .rule "spaces", .start 4 .file "a.go",
    .annotate 2 "size" "3", .finish 0 "early", .finish 1 "", .finish 2 "done",
    .annotate 2 "more" "", .finish 2 "again"]

theorem span_events_matched_inertBetween :
    41 + inertBetween.countP SpanCall.starts < 2 ^ 64 ∧
      (fresh 41).events (Level.admits .phase) inertBetween =
        [{ kind := .spanBegin, scope := .command, span := 42, name := "lint" },
          { kind := .spanBegin, scope := .file, span := 43, parent := 42, name := "a.go" },
          { kind := .spanEnd, scope := .command, span := 42, name := "lint", detail := "early" },
          { kind := .spanEnd, scope := .file, span := 43, parent := 42, name := "a.go"
            detail := "done", attributes := [("size", "3")] }] ∧
      Matched (Level.admits .phase) 41 inertBetween := by
  have hFew : 41 + inertBetween.countP SpanCall.starts < 2 ^ 64 := by decide
  exact ⟨hFew, by decide, (span_events_matched (Level.admits .phase) hFew).1⟩

end Spans

end TokenLint.Trace
