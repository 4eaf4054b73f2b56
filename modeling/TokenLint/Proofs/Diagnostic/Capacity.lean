import TokenLint.Proofs.Diagnostic.Repetition

/-!
# The capacity of a bag

A bag is made with a capacity from 1 to 65535. Adding stops at the capacity, and filtering, sorting
and removing repetitions leave no more diagnostics than there were. Merging takes over everything
from another bag, and the capacity grows with it, but not beyond the largest one. So a bag holds
more than its capacity exactly if merging has brought together more than 65535 diagnostics.

* `Bounded`: what is true of the capacity of every bag.
* `Reachable.bounded`: no operation breaks it.
* `size_le_capacity_iff`: when a bag keeps to its capacity, and when it does so after merging.
-/

namespace TokenLint.Bag

/-- The bags that can be made. -/
inductive Reachable : Bag → Prop
  | empty (max : Int) : Reachable (ofCapacity max)
  | add {b : Bag} (h : Reachable b) (d : Diagnostic) : Reachable (b.add d)
  | merge {b other : Bag} (h : Reachable b) (hOther : Reachable other) : Reachable (b.merge other)
  | filter {b : Bag} (h : Reachable b) (p : Diagnostic → Bool) : Reachable (b.filter p)
  | sort {b : Bag} (h : Reachable b) : Reachable b.sort
  | dedup {b : Bag} (h : Reachable b) : Reachable b.dedup

theorem Reachable.foldl_add {b : Bag} (h : Reachable b) (ds : List Diagnostic) :
    Reachable (ds.foldl Bag.add b) := by
  induction ds generalizing b with
  | nil => exact h
  | cons d ds ih => exact ih (h.add d)

/-! ## Sizes -/

theorem size_merge (b other : Bag) : (b.merge other).size = b.size + other.size :=
  Array.size_append

theorem size_filter_le (b : Bag) (p : Diagnostic → Bool) : (b.filter p).size ≤ b.size :=
  Array.size_filter_le

theorem size_sort (b : Bag) : b.sort.size = b.size :=
  (Diagnostic.sort_perm b.items.toList).length_eq

theorem size_dedup_le (b : Bag) : b.dedup.size ≤ b.size := by
  have hKept : b.dedup.items.toList.Sublist b.items.toList :=
    dedup_items b ▸ firstBy_sublist [] b.items.toList
  exact hKept.length_le

/-! ## Capacities -/

/-- The capacity is one a bag can be made with, and it is not smaller than the number of diagnostics
unless it is the largest one. -/
structure Bounded (b : Bag) : Prop where
  positive : 1 ≤ b.capacity
  le_largest : b.capacity ≤ largest
  holds : min b.size largest ≤ b.capacity

theorem bounded_ofCapacity (max : Int) : Bounded (ofCapacity max) := by
  have hLargest : largest = 65535 := rfl
  have hCapacity : (ofCapacity max).capacity = Run.limit max := Run.room_eq_limit max
  have hLimit : 1 ≤ Run.limit max ∧ Run.limit max ≤ 65535 := by
    unfold Run.limit
    split <;> omega
  refine ⟨?_, ?_, Nat.zero_le _⟩
  · rw [hCapacity]
    exact hLimit.1
  · rw [hCapacity, hLargest]
    exact hLimit.2

namespace Bounded

variable {b : Bag}

theorem add (h : Bounded b) (d : Diagnostic) : Bounded (b.add d) := by
  unfold Bag.add
  split
  · rename_i hRoom
    refine ⟨h.positive, h.le_largest, ?_⟩
    have hFree : b.items.size < b.capacity := by simpa [hasRoom] using hRoom
    have hSize : (b.items.push d).size = b.items.size + 1 := Array.size_push d
    simp only [size, hSize]
    omega
  · exact ⟨h.positive, h.le_largest, h.holds⟩

theorem merge (h : Bounded b) (other : Bag) : Bounded (b.merge other) := by
  obtain ⟨hPositive, hLargest, hHolds⟩ := h
  have hTotal : (b.merge other).capacity =
      if b.capacity < b.size + other.size then min (b.size + other.size) largest
      else b.capacity := rfl
  refine ⟨?_, ?_, ?_⟩ <;> rw [hTotal]
  · split <;> omega
  · split <;> omega
  · rw [size_merge]
    split <;> omega

theorem of_size_le (h : Bounded b) {b' : Bag} (hCapacity : b'.capacity = b.capacity)
    (hSize : b'.size ≤ b.size) : Bounded b' := by
  obtain ⟨hPositive, hLargest, hHolds⟩ := h
  exact ⟨by omega, by omega, by omega⟩

/-- A bag keeps to its capacity up to the largest one. -/
theorem size_le_iff (h : Bounded b) : b.size ≤ b.capacity ↔ b.size ≤ largest := by
  obtain ⟨-, hLargest, hHolds⟩ := h
  omega

end Bounded

theorem Reachable.bounded {b : Bag} (h : Reachable b) : Bounded b := by
  induction h with
  | empty max => exact bounded_ofCapacity max
  | add _ d ih => exact ih.add d
  | merge _ _ ih _ => exact ih.merge _
  | filter _ p ih => exact ih.of_size_le rfl (size_filter_le _ p)
  | sort _ ih => exact ih.of_size_le rfl (Nat.le_of_eq (size_sort _))
  | dedup _ ih => exact ih.of_size_le rfl (size_dedup_le _)

/-- The capacity of a bag is from 1 to 65535, and the bag keeps to it if and only if it has no more
than 65535 diagnostics. Merging loses nothing, neither a diagnostic nor one that was counted, and so
the bag keeps to its capacity afterwards if and only if there are no more than 65535 in both. -/
theorem size_le_capacity_iff {b : Bag} (h : Reachable b) :
    1 ≤ b.capacity ∧ b.capacity ≤ 65535 ∧ (b.size ≤ b.capacity ↔ b.size ≤ 65535) ∧
      ∀ other : Bag, Reachable other →
        (b.merge other).items = b.items ++ other.items ∧
          (b.merge other).dropped = b.dropped + other.dropped ∧
          ((b.merge other).size ≤ (b.merge other).capacity ↔ b.size + other.size ≤ 65535) := by
  have hBounded := h.bounded
  refine ⟨hBounded.positive, hBounded.le_largest, hBounded.size_le_iff, fun other hOther => ?_⟩
  have hMerged := (h.merge hOther).bounded.size_le_iff
  rw [size_merge] at hMerged ⊢
  exact ⟨rfl, rfl, hMerged⟩

/-- A bag of the largest capacity after adding some diagnostics. -/
def filled (n : Nat) : Bag := (List.replicate n {}).foldl add (ofCapacity 0)

theorem reachable_filled (n : Nat) : Reachable (filled n) := (Reachable.empty 0).foldl_add _

theorem size_filled {n : Nat} (h : n ≤ largest) : (filled n).size = n := by
  have hItems := (foldl_add (ofCapacity 0) (List.replicate n {}) (Nat.zero_le _)).1
  have hCapacity : (ofCapacity 0).capacity - (ofCapacity 0).items.size = largest := rfl
  have hNone : (ofCapacity 0).items.toList = [] := rfl
  rw [hCapacity, hNone, List.nil_append, List.take_of_length_le (by simpa using h)] at hItems
  have hLength := congrArg List.length hItems
  rwa [List.length_replicate] at hLength

/-- A full bag takes over one more diagnostic, and none is dropped. -/
theorem size_le_capacity_iff_overfull :
    Reachable (filled 65535) ∧ Reachable (filled 1) ∧
      ((filled 65535).merge (filled 1)).size = 65536 ∧
      ¬ ((filled 65535).merge (filled 1)).size ≤ ((filled 65535).merge (filled 1)).capacity := by
  have hFull : (filled 65535).size = 65535 := size_filled (Nat.le_refl _)
  have hOne : (filled 1).size = 1 := size_filled (by decide)
  refine ⟨reachable_filled _, reachable_filled _, ?_, fun hWithin => ?_⟩
  · rw [size_merge, hFull, hOne]
  · have hTotal := ((size_le_capacity_iff (reachable_filled 65535)).2.2.2 _
      (reachable_filled 1)).2.2.mp hWithin
    rw [hFull, hOne] at hTotal
    exact absurd hTotal (by decide)

end TokenLint.Bag
