import Mathlib.Data.List.Basic
import Mathlib.Data.List.Induction
import TokenLint.Run.Registry

/-!
# What a registry answers

A registry is filled rule by rule, and its table is what answers. The rules it gives for a kind are
those that name the kind, in the order of the list the registry was made of, however often they
name it: `forKind_ofList`.
-/

namespace TokenLint.Registry

/-- Entering a number adds it for each kind that is named and not seen yet, once. -/
theorem filterMap_enter {α : Type} (f : Nat → Option α) (k : Kind) (number : Nat)
    (table : List (Kind × Nat)) (seen kinds : List Kind) :
    (enter number table seen kinds).filterMap (fun e => if e.1 = k then f e.2 else none) =
      table.filterMap (fun e => if e.1 = k then f e.2 else none) ++
        if k ∈ kinds ∧ k ∉ seen then (f number).toList else [] := by
  induction kinds generalizing table seen with
  | nil => simp [enter]
  | cons a rest ih =>
      rw [enter]
      by_cases hSeen : a ∈ seen
      · rw [if_pos hSeen, ih]
        congr 1
        by_cases hk : k = a
        · subst hk
          simp [hSeen]
        · simp [hk]
      · rw [if_neg hSeen, ih, List.filterMap_append, List.append_assoc]
        congr 1
        by_cases hk : k = a
        · subst hk
          have hNew : [(k, number)].filterMap (fun e => if e.1 = k then f e.2 else none) =
              (f number).toList := by
            cases hf : f number <;> simp [hf]
          simp [hNew, hSeen]
        · have hk' : ¬ a = k := fun h => hk h.symm
          simp [hk, hk']

theorem mem_enter {number : Nat} {table : List (Kind × Nat)} {seen kinds : List Kind}
    {e : Kind × Nat} (h : e ∈ enter number table seen kinds) : e ∈ table ∨ e.2 = number := by
  induction kinds generalizing table seen with
  | nil => exact Or.inl h
  | cons a rest ih =>
      rw [enter] at h
      split at h
      · exact ih h
      · rcases ih h with hTable | hNumber
        · rcases List.mem_append.mp hTable with hOld | hNew
          · exact Or.inl hOld
          · exact Or.inr (by rw [List.mem_singleton.mp hNew])
        · exact Or.inr hNumber

/-- All numbers in the table are numbers of rules, and the table gives the rules that name a kind. -/
structure Sound (r : Registry) : Prop where
  numbers : ∀ e ∈ r.table, e.2 < r.size
  forKind_eq : ∀ k, r.forKind k = r.rules.filter fun rule => k ∈ rule.kinds

theorem sound_empty : Sound {} := ⟨by simp, by simp [forKind]⟩

theorem Sound.register {r : Registry} (h : Sound r) (rule : Rule) : Sound (r.register rule) := by
  have hSize : (r.register rule).size = r.size + 1 := by simp [Registry.register, size]
  refine ⟨fun e he => ?_, fun k => ?_⟩
  · rw [hSize]
    rcases mem_enter he with hTable | hNumber
    · exact Nat.lt_succ_of_lt (h.numbers e hTable)
    · omega
  · -- the numbers entered before mean what they meant
    have hOld : r.table.filterMap (fun e => if e.1 = k then (r.rules ++ [rule])[e.2]? else none) =
        r.forKind k := by
      refine List.filterMap_congr fun e he => ?_
      rw [List.getElem?_append_left (h.numbers e he)]
    have hNew : (r.rules ++ [rule])[r.size]? = some rule := by simp [size]
    rw [forKind, Registry.register, filterMap_enter (fun i => (r.rules ++ [rule])[i]?), hOld,
      h.forKind_eq, hNew, List.filter_append]
    congr 1
    by_cases hk : k ∈ rule.kinds <;> simp [hk]

/-- A registry made of a list knows the rules of the list. -/
theorem ofList_concat (rules : List (Option Rule)) (place : Option Rule) :
    ofList (rules ++ [place]) = match place with
      | none => ofList rules
      | some rule => (ofList rules).register rule := by
  rw [ofList, List.foldl_append]
  cases place <;> rfl

theorem rules_ofList (rules : List (Option Rule)) : (ofList rules).rules = rules.filterMap id := by
  induction rules using List.reverseRecOn with
  | nil => rfl
  | append_singleton rules place ih =>
      rw [ofList_concat, List.filterMap_append]
      cases place with
      | none => simpa using ih
      | some rule => simp [register, ih]

theorem sound_ofList (rules : List (Option Rule)) : Sound (ofList rules) := by
  induction rules using List.reverseRecOn with
  | nil => exact sound_empty
  | append_singleton rules place ih =>
      rw [ofList_concat]
      cases place with
      | none => exact ih
      | some rule => exact ih.register rule

/-- The rules for a kind are those that name it, in the order of the list. -/
theorem forKind_ofList (rules : List (Option Rule)) (k : Kind) :
    (ofList rules).forKind k = (rules.filterMap id).filter fun rule => k ∈ rule.kinds := by
  rw [(sound_ofList rules).forKind_eq, rules_ofList]

end TokenLint.Registry
