import Mathlib.Data.List.Nodup
import Mathlib.Data.List.Perm.Basic
import TokenLint.Table

/-!
# Tables of values

What is found in a table after values were set, and what the order of its entries says.

* `lookup_assign`, `keys_assign`: what is found after a value was set, and under which keys.
* `lookup_eq_some_iff`: where no key stands twice, looking up is being an entry.
* `lookup_perm`: so the order of entries does not matter.
* `filter_eq_singleton_of_nodup_map`: and there is one element for each key.
-/

namespace TokenLint.Table

variable {κ α : Type}

/-! ## Keys that stand once -/

/-- Where no key stands twice, the elements with the key of an element are this one. -/
theorem filter_eq_singleton_of_nodup_map [DecidableEq κ] {key : α → κ} {xs : List α} {x : α}
    (hNodup : (xs.map key).Nodup) (hx : x ∈ xs) : xs.filter (fun y => key y = key x) = [x] := by
  induction xs with
  | nil => exact absurd hx List.not_mem_nil
  | cons a xs ih =>
      rw [List.map_cons, List.nodup_cons] at hNodup
      rcases List.mem_cons.mp hx with rfl | hx
      · have hNone : xs.filter (fun y => key y = key x) = [] := by
          refine List.filter_eq_nil_iff.mpr fun y hy hKey => hNodup.1 ?_
          exact of_decide_eq_true hKey ▸ List.mem_map_of_mem hy
        rw [List.filter_cons_of_pos (by simp), hNone]
      · have hOther : key a ≠ key x := fun h => hNodup.1 (h ▸ List.mem_map_of_mem hx)
        rw [List.filter_cons_of_neg (by simpa using hOther), ih hNodup.2 hx]

/-! ## Setting values -/

section

variable [DecidableEq κ]

theorem any_key_iff {xs : List (κ × α)} {key : κ} :
    xs.any (·.1 = key) = true ↔ key ∈ xs.map Prod.fst := by
  simp

theorem assign_of_mem {xs : List (κ × α)} {key : κ} (h : key ∈ xs.map Prod.fst) (v : α) :
    assign xs key v = xs.map fun x => if x.1 = key then (key, v) else x :=
  if_pos (any_key_iff.mpr h)

theorem assign_of_not_mem {xs : List (κ × α)} {key : κ} (h : key ∉ xs.map Prod.fst) (v : α) :
    assign xs key v = xs ++ [(key, v)] :=
  if_neg (mt any_key_iff.mp h)

theorem keys_assign (xs : List (κ × α)) (key : κ) (v : α) :
    (assign xs key v).map Prod.fst =
      if key ∈ xs.map Prod.fst then xs.map Prod.fst else xs.map Prod.fst ++ [key] := by
  by_cases h : key ∈ xs.map Prod.fst
  · rw [assign_of_mem h, if_pos h, List.map_map]
    apply List.map_congr_left
    intro x _
    by_cases hx : x.1 = key <;> simp [hx]
  · rw [assign_of_not_mem h, if_neg h, List.map_append]
    rfl

theorem nodup_keys_assign {xs : List (κ × α)} (h : (xs.map Prod.fst).Nodup) (key : κ) (v : α) :
    ((assign xs key v).map Prod.fst).Nodup := by
  rw [keys_assign]
  split
  · exact h
  · rename_i hNew
    exact List.nodup_append.mpr ⟨h, List.nodup_singleton key,
      fun a ha b hb hEq => hNew (by rw [← List.mem_singleton.mp hb, ← hEq]; exact ha)⟩

theorem nodup_keys_foldl_assign (f : κ → List (κ × α) → α) (keys : List κ) {xs : List (κ × α)}
    (h : (xs.map Prod.fst).Nodup) :
    ((keys.foldl (fun ys key => assign ys key (f key ys)) xs).map Prod.fst).Nodup := by
  induction keys generalizing xs with
  | nil => exact h
  | cons key keys ih => exact ih (nodup_keys_assign h key _)

theorem mem_assign {xs : List (κ × α)} {key : κ} {v : α} {x : κ × α} (h : x ∈ assign xs key v) :
    x = (key, v) ∨ x ∈ xs := by
  by_cases hKey : key ∈ xs.map Prod.fst
  · rw [assign_of_mem hKey] at h
    obtain ⟨y, hy, rfl⟩ := List.mem_map.mp h
    split
    · exact Or.inl rfl
    · exact Or.inr hy
  · rw [assign_of_not_mem hKey] at h
    rcases List.mem_append.mp h with hOld | hNew
    · exact Or.inr hOld
    · exact Or.inl (List.mem_singleton.mp hNew)

theorem foldl_assign_of_nodup (ys xs : List (κ × α)) (hNodup : ((xs ++ ys).map Prod.fst).Nodup) :
    ys.foldl (fun table y => assign table y.1 y.2) xs = xs ++ ys := by
  induction ys generalizing xs with
  | nil => simp
  | cons y ys ih =>
      have hNew : y.1 ∉ xs.map Prod.fst := by
        rw [List.map_append, List.map_cons] at hNodup
        intro hMem
        exact (List.nodup_append.mp hNodup).2.2 _ hMem _ List.mem_cons_self rfl
      rw [List.foldl_cons, assign_of_not_mem hNew, ih, List.append_assoc]
      · rfl
      · rw [List.append_assoc]
        exact hNodup

end

/-! ## Looking values up -/

variable [BEq κ] [LawfulBEq κ]

theorem lookup_isSome_iff {xs : List (κ × α)} {k : κ} :
    (xs.lookup k).isSome = true ↔ k ∈ xs.map Prod.fst := by
  simp only [List.lookup_isSome_iff, List.mem_map, beq_iff_eq]
  exact ⟨fun ⟨p, hp, hk⟩ => ⟨p, hp, hk.symm⟩, fun ⟨p, hp, hk⟩ => ⟨p, hp, hk.symm⟩⟩

theorem lookup_eq_none_iff {xs : List (κ × α)} {k : κ} :
    xs.lookup k = none ↔ k ∉ xs.map Prod.fst := by
  rw [← lookup_isSome_iff, Option.not_isSome_iff_eq_none]

theorem lookup_eq_some_iff {xs : List (κ × α)} (hNodup : (xs.map Prod.fst).Nodup) {k : κ} {v : α} :
    xs.lookup k = some v ↔ (k, v) ∈ xs := by
  induction xs with
  | nil => simp
  | cons x xs ih =>
      obtain ⟨a, w⟩ := x
      obtain ⟨hNew, hRest⟩ := List.nodup_cons.mp hNodup
      rw [List.lookup_cons, List.mem_cons]
      by_cases hk : k = a
      · subst hk
        have hNone : (k, v) ∉ xs := fun hMem => hNew (List.mem_map.mpr ⟨(k, v), hMem, rfl⟩)
        simp [hNone, eq_comm]
      · have hk' : (k == a) = false := beq_eq_false_iff_ne.mpr hk
        rw [hk', ih hRest]
        simp [hk]

theorem lookup_perm {xs ys : List (κ × α)} (hNodup : (xs.map Prod.fst).Nodup) (h : xs.Perm ys)
    (k : κ) : xs.lookup k = ys.lookup k := by
  have hNodup' : (ys.map Prod.fst).Nodup := (h.map Prod.fst).nodup_iff.mp hNodup
  apply Option.ext
  intro v
  rw [lookup_eq_some_iff hNodup, lookup_eq_some_iff hNodup', h.mem_iff]

variable [DecidableEq κ]

theorem lookup_overwrite (xs : List (κ × α)) (key k : κ) (v : α) :
    (xs.map fun x => if x.1 = key then (key, v) else x).lookup k =
      (xs.lookup k).map fun old => if k = key then v else old := by
  induction xs with
  | nil => rfl
  | cons x xs ih =>
      obtain ⟨a, old⟩ := x
      rw [List.map_cons, List.lookup_cons]
      by_cases hk : k = a
      · subst hk
        by_cases ha : k = key <;> simp [ha]
      · have hk' : (k == a) = false := beq_eq_false_iff_ne.mpr hk
        by_cases ha : a = key
        · subst ha
          simp only [if_true, List.lookup_cons, hk', ih]
        · simp only [ha, if_false, List.lookup_cons, hk', ih]

theorem lookup_assign (xs : List (κ × α)) (key k : κ) (v : α) :
    (assign xs key v).lookup k = if k = key then some v else xs.lookup k := by
  by_cases hKey : key ∈ xs.map Prod.fst
  · rw [assign_of_mem hKey, lookup_overwrite]
    by_cases hk : k = key
    · obtain ⟨old, hOld⟩ := Option.isSome_iff_exists.mp (lookup_isSome_iff.mpr hKey)
      subst hk
      simp [hOld]
    · simp [hk]
  · rw [assign_of_not_mem hKey, List.lookup_append]
    by_cases hk : k = key
    · subst hk
      simp [lookup_eq_none_iff.mpr hKey]
    · have hk' : (k == key) = false := beq_eq_false_iff_ne.mpr hk
      simp [List.lookup_cons, hk, hk']

/-- Values set for one key after the other, each computed from what the table holds before. -/
theorem lookup_foldl_assign (f : κ → List (κ × α) → α) {keys : List κ} (hNodup : keys.Nodup)
    (xs : List (κ × α)) (k : κ)
    (hf : ∀ key ∈ keys, ∀ ys zs : List (κ × α), ys.lookup key = zs.lookup key →
      f key ys = f key zs) :
    (keys.foldl (fun ys key => assign ys key (f key ys)) xs).lookup k =
      if k ∈ keys then some (f k xs) else xs.lookup k := by
  induction keys generalizing xs with
  | nil => simp
  | cons key keys ih =>
      obtain ⟨hNew, hRest⟩ := List.nodup_cons.mp hNodup
      rw [List.foldl_cons, ih hRest _ fun j hj => hf j (List.mem_cons_of_mem _ hj)]
      by_cases hk : k = key
      · subst hk
        simp [hNew, lookup_assign]
      · by_cases hMem : k ∈ keys
        · have hSame := hf k (List.mem_cons_of_mem _ hMem) (assign xs key (f key xs)) xs
            (by simp [lookup_assign, hk])
          simp [hMem, hSame]
        · simp [hk, hMem, lookup_assign]

end TokenLint.Table
