import Mathlib.Data.List.DropRight
import TokenLint.Trace.Ring

/-!
# What a ring keeps

A ring that is not full yet has its events in the slots in front of the next one. A full one begins
at the next slot, and goes on from the first slot after the last. So keeping one more event is adding
it at the end and cutting what is too much from the front, and in the end the ring has the latest of
all events that it has accepted.

* `snapshot_push`: what one more event does to the events of a ring.
* `Holds.run`: the events after a run.
* `snapshot_latest`: the latest events, and how they are written.
-/

namespace TokenLint.Trace.Ring

/-- The last elements of a list and one more have the same last elements as the whole list and one
more. -/
theorem rtake_rtake_concat {α : Type} (xs : List α) (x : α) (n : Nat) :
    (xs.rtake n ++ [x]).rtake n = (xs ++ [x]).rtake n := by
  cases n with
  | zero => rw [List.rtake_zero, List.rtake_zero]
  | succ n =>
      rw [List.rtake_concat_succ, List.rtake_concat_succ]
      have hStart : xs.length - (n + 1) + (xs.length - (xs.length - (n + 1)) - n) =
          xs.length - n := by omega
      simp only [List.rtake, List.drop_drop, List.length_drop, hStart]

variable {r : Ring} {kept : List Event}

/-! ## One more event -/

theorem size_push (r : Ring) (e : Event) : (r.push e).slots.size = r.slots.size := by
  have hSet : (r.slots.setIfInBounds r.next e).size = r.slots.size := Array.size_setIfInBounds
  unfold push
  dsimp only
  split
  · exact hSet
  · exact hSet

theorem wants_push (r : Ring) (e : Event) : (r.push e).wants = r.wants := by
  unfold push
  dsimp only
  split
  · rfl
  · rfl

theorem wants_emit (r : Ring) (e : Event) : (r.emit e).wants = r.wants := by
  unfold emit
  split
  · exact r.wants_push e
  · rfl

theorem next_push_lt (h : r.next < r.slots.size) (e : Event) :
    (r.push e).next < (r.push e).slots.size := by
  rw [size_push]
  unfold push
  dsimp only
  rw [Array.size_setIfInBounds]
  split
  · exact Nat.zero_lt_of_lt h
  · rename_i hMore
    show r.next + 1 < r.slots.size
    omega

/-- The events in front of the next slot are the newer ones. -/
theorem snapshot_of_split {newer older : List Event} (hSlots : r.slots.toList = newer ++ older)
    (hNext : newer.length = r.next) :
    r.snapshot = (if r.wrapped then older else []) ++ newer := by
  rw [snapshot, hSlots, ← hNext, List.drop_left, List.take_left]
  split
  · rfl
  · rfl

theorem exists_oldest (h : r.next < r.slots.size) : ∃ newer oldest older,
    r.slots.toList = newer ++ oldest :: older ∧ newer.length = r.next := by
  have hIn : r.next < r.slots.toList.length := by rwa [Array.length_toList]
  refine ⟨r.slots.toList.take r.next, r.slots.toList[r.next], r.slots.toList.drop (r.next + 1),
    ?_, List.length_take_of_le (Nat.le_of_lt hIn)⟩
  rw [← List.drop_eq_getElem_cons hIn, List.take_append_drop]

/-- One more event comes at the end, and what is too much falls off at the front. -/
theorem snapshot_push (h : r.next < r.slots.size) (e : Event) :
    (r.push e).snapshot = (r.snapshot ++ [e]).rtake r.slots.size := by
  obtain ⟨newer, oldest, older, hSlots, hNewer⟩ := exists_oldest h
  have hSize : newer.length + (older.length + 1) = r.slots.size := by
    have hLength := congrArg List.length hSlots
    rw [Array.length_toList, List.length_append, List.length_cons] at hLength
    exact hLength.symm
  have hLatest : (r.snapshot ++ [e]).rtake r.slots.size =
      (if r.wrapped then older else []) ++ (newer ++ [e]) := by
    rw [snapshot_of_split hSlots hNewer]
    cases r.wrapped with
    | false =>
        have hDrop : (newer ++ [e]).length - r.slots.size = 0 := by
          rw [List.length_append, List.length_singleton]
          omega
        show (newer ++ [e]).drop ((newer ++ [e]).length - r.slots.size) = newer ++ [e]
        rw [hDrop, List.drop_zero]
    | true =>
        have hDrop : (oldest :: older ++ newer ++ [e]).length - r.slots.size = 1 := by
          simp only [List.length_append, List.length_cons, List.length_nil]
          omega
        show (oldest :: older ++ newer ++ [e]).drop
          ((oldest :: older ++ newer ++ [e]).length - r.slots.size) = older ++ (newer ++ [e])
        rw [hDrop, List.append_assoc]
        rfl
  have hSet : (r.slots.setIfInBounds r.next e).toList = newer ++ [e] ++ older := by
    simp [hSlots, ← hNewer]
  rw [hLatest]
  unfold push
  dsimp only
  rw [Array.size_setIfInBounds]
  -- the next slot is behind the new event, or the first one if there is none behind
  by_cases hLast : r.next + 1 = r.slots.size
  · obtain rfl : older = [] := List.eq_nil_of_length_eq_zero (by omega)
    rw [List.append_nil] at hSet
    rw [if_pos hLast, ite_self, List.nil_append, ← List.append_nil (newer ++ [e])]
    exact snapshot_of_split hSet rfl
  · rw [if_neg hLast]
    refine snapshot_of_split hSet ?_
    rw [List.length_append, hNewer]
    rfl

/-! ## All events -/

/-- A ring has gone on from an empty one, and has the latest of the events it was given to keep. -/
structure Holds (empty r : Ring) (kept : List Event) : Prop where
  size_eq : r.slots.size = empty.slots.size
  next_lt : r.next < r.slots.size
  wants : r.wants = empty.wants
  snapshot : r.snapshot = kept.rtake empty.slots.size

namespace Holds

variable {empty : Ring}

theorem emit (h : Holds empty r kept) (e : Event) :
    Holds empty (r.emit e) (kept ++ [e].filter empty.accepts) := by
  have hAccepts : r.accepts e = empty.accepts e := by
    rw [Ring.accepts, Ring.accepts, h.wants]
  unfold Ring.emit
  by_cases hAccepted : empty.accepts e = true
  · rw [hAccepts, if_pos hAccepted, List.filter_cons_of_pos hAccepted]
    refine ⟨(size_push r e).trans h.size_eq, next_push_lt h.next_lt e,
      (wants_push r e).trans h.wants, ?_⟩
    rw [snapshot_push h.next_lt, h.snapshot, h.size_eq]
    exact rtake_rtake_concat kept e empty.slots.size
  · rw [hAccepts, if_neg hAccepted, List.filter_cons_of_neg hAccepted, List.filter_nil,
      List.append_nil]
    exact h

theorem run (h : Holds empty r kept) (es : List Event) :
    Holds empty (es.foldl Ring.emit r) (kept ++ es.filter empty.accepts) := by
  induction es generalizing r kept with
  | nil => simpa using h
  | cons e es ih =>
      have hRest := ih (h.emit e)
      rw [List.append_assoc, ← List.filter_append] at hRest
      exact hRest

end Holds

theorem holds_ofCapacity (capacity : Int) (level : Level) :
    Holds (ofCapacity capacity level) (ofCapacity capacity level) [] := by
  refine ⟨rfl, ?_, rfl, (List.rtake_nil _).symm⟩
  show 0 < (Array.replicate _ _).size
  rw [Array.size_replicate]
  split
  · omega
  · exact Nat.zero_lt_succ 4095

/-- A ring that has been handed events has the latest of those that are heartbeats or have a scope it
wants: all of them, or as many as it has room for. It gives them out the oldest first, and writes
them in that order. What it wants does not change on the way. -/
theorem snapshot_latest (capacity : Int) (level : Level) (es : List Event) :
    let empty := ofCapacity capacity level
    let size := if 0 < capacity then capacity.toNat else 4096
    let accepted := es.filter fun e => empty.wants e.scope || e.kind = .heartbeat
    let latest := accepted.rtake (min accepted.length size)
    let r := es.foldl emit empty
    r.snapshot = latest ∧ (∀ format, r.dump format = (latest.map (·.encode format)).flatten) ∧
      r.wants = empty.wants := by
  intro empty size accepted latest r
  have hEmpty : Holds empty empty [] := holds_ofCapacity capacity level
  have hSize : empty.slots.size = size := Array.size_replicate
  have hHolds : Holds empty r accepted := hEmpty.run es
  have hLatest : r.snapshot = latest := by
    have hLength : accepted.length - size = accepted.length - min accepted.length size := by omega
    rw [hHolds.snapshot, hSize]
    show accepted.drop (accepted.length - size) = accepted.drop _
    rw [hLength]
  refine ⟨hLatest, fun format => ?_, hHolds.wants⟩
  rw [dump, hLatest, List.flatMap_def]

end TokenLint.Trace.Ring
