import Mathlib.Data.List.Perm.Subperm
import TokenLint.Proofs.Fix.Selection

/-!
# Fixes that require all others

A fix can say that it makes sense only together with all others. The modes that apply one fix obey:
they never take such a fix. Mode `all` does not look at it. It takes the fix like any other one that
is safe, and does not come back to it when another fix turns out not to be safe or is rejected.

* `choice_appliedOf`: what mode `all` applies, whatever the fixes require.
* `all_applied_iff`: when mode `all` applies every candidate.
* `together_iff`: when a fix that requires all others is applied together with them.
-/

namespace TokenLint.Fixing

section All

variable {fs : FileSet} {ds : List Diagnostic} {r : Request} (hMode : r.mode = .all)
include hMode

/-- Mode `all` tries the safe candidates in order. What they require plays no part. -/
theorem choice_appliedOf :
    ∃ marks, Choice fs [] ((order (gather fs ds).candidates.toList).filter isSafe) marks ∧
      appliedOf fs ds r =
        marked ((order (gather fs ds).candidates.toList).filter isSafe) marks := by
  obtain ⟨marks, hChoice, hApplied, -⟩ := (holds_empty fs).exists_choice
    ((order (gather fs ds).candidates.toList).filter isSafe)
  exact ⟨marks, hChoice, (appliedOf_all hMode).trans hApplied⟩

/-- Mode `all` applies all candidates if they are safe and none of them stands in the way of another
one. -/
theorem all_applied_iff :
    (∀ c ∈ order (gather fs ds).candidates.toList, c ∈ appliedOf fs ds r) ↔
      (∀ c ∈ order (gather fs ds).candidates.toList, isSafe c = true) ∧
        Compatible fs [] (order (gather fs ds).candidates.toList) := by
  rw [appliedOf_all hMode]
  constructor
  · intro hAll
    have hSub := appliedFrom_sublist fs {} ((order (gather fs ds).candidates.toList).filter isSafe)
    have hLength := ((nodup_order fs ds).subperm hAll).length_le
    have hSame := (hSub.trans List.filter_sublist).eq_of_length_le hLength
    refine ⟨fun c hc => (List.mem_filter.mp (hSub.mem (hAll c hc))).2, ?_⟩
    rw [← hSame]
    exact compatible_appliedFrom (holds_empty fs) _
  · rintro ⟨hSafe, hCompatible⟩ c hc
    rw [List.filter_eq_self.mpr hSafe, (hCompatible.applied_eq (holds_empty fs)).1]
    exact hc

end All

/-- No mode but `all` applies a fix that requires all others. Mode `all` applies the safe candidates
one after the other, as far as their edits suit the files and stay away from those applied before,
and does not ask what they require. So a fix that requires all others is applied together with them
in two cases only: if no such fix is applied, or if all candidates are safe and none of them stands
in the way of another one. -/
theorem together_iff (fs : FileSet) (ds : List Diagnostic) (r : Request) :
    let cs := order (gather fs ds).candidates.toList
    let applied := appliedOf fs ds r
    (apply fs ds r).2.1.applied = applied.map (recordOf fs) ∧
      (r.mode ≠ .all → ∀ c ∈ applied, c.plan.requiresAll = false) ∧
      (r.mode = .all → ∃ marks, Choice fs [] (cs.filter isSafe) marks ∧
        applied = marked (cs.filter isSafe) marks) ∧
      ((∀ c ∈ applied, c.plan.requiresAll = true →
          ∀ d ∈ (gather fs ds).candidates, d ∈ applied) ↔
        (∀ c ∈ applied, c.plan.requiresAll = false) ∨
          r.mode = .all ∧ (∀ c ∈ cs, isSafe c = true) ∧ Compatible fs [] cs) := by
  intro cs applied
  have hAlone : r.mode ≠ .all → ∀ c ∈ applied, c.plan.requiresAll = false :=
    fun hMode _ hc => requiresAll_of_mode_ne_all hMode hc
  have hGathered : ∀ c, c ∈ cs ↔ c ∈ (gather fs ds).candidates := fun c =>
    (List.mergeSort_perm _ _).mem_iff.trans Array.mem_toList_iff
  refine ⟨(apply_eq fs ds r).2.1, hAlone, choice_appliedOf, ?_⟩
  simp only [← hGathered]
  constructor
  · intro hTogether
    by_cases hNone : ∀ c ∈ applied, c.plan.requiresAll = false
    · exact Or.inl hNone
    · -- the fix that requires all others shows that the mode is `all`
      have hMode : r.mode = .all := not_not.mp (mt hAlone hNone)
      simp only [not_forall, Bool.not_eq_false] at hNone
      obtain ⟨c, hc, hRequires⟩ := hNone
      exact Or.inr ⟨hMode, (all_applied_iff hMode).mp (hTogether c hc hRequires)⟩
  · rintro (hNone | ⟨hMode, hAll⟩) c hc hRequires
    · rw [hNone c hc] at hRequires
      cases hRequires
    · exact (all_applied_iff hMode).mpr hAll

/-- The first fix requires all others, the second one is not safe: mode `all` applies the first one
alone. -/
theorem together_iff_unsafeOther :
    let ds : List Diagnostic := [
      { primary := ⟨0, 0⟩,
        fixes := [{ plan := { id := "first", requiresAll := true,
                              edits := [⟨⟨0, 0⟩, "one", "x"⟩] } }] },
      { primary := ⟨0, 1⟩,
        fixes := [{ plan := { id := "second", applicability := ⟨2⟩,
                              edits := [⟨⟨0, 1⟩, "two", "y"⟩] } }] }]
    let applied := appliedOf twoFiles ds { mode := .all }
    applied.map (fun c => (c.plan.id, c.plan.requiresAll)) = [(Text.ofString "first", true)] ∧
      ¬ ∀ c ∈ applied, c.plan.requiresAll = true →
        ∀ d ∈ (gather twoFiles ds).candidates, d ∈ applied := by
  intro ds applied
  have hApplied : (appliedOf twoFiles ds { mode := .all }).map
      (fun c => (c.plan.id, c.plan.requiresAll)) = [(Text.ofString "first", true)] := by
    rw [appliedOf_of_pairwise (by decide +kernel)]
    decide +kernel
  have hSafe : (order (gather twoFiles ds).candidates.toList).map isSafe = [true, false] := by
    rw [order_of_pairwise (by decide +kernel)]
    decide +kernel
  refine ⟨hApplied, fun hTogether => ?_⟩
  rcases (together_iff twoFiles ds { mode := .all }).2.2.2.mp hTogether with hNone | ⟨-, hAll, -⟩
  · have hMem : (Text.ofString "first", true) ∈
        applied.map fun c => (c.plan.id, c.plan.requiresAll) := hApplied ▸ List.mem_cons_self
    obtain ⟨c, hc, hPair⟩ := List.mem_map.mp hMem
    have hRequires := congrArg Prod.snd hPair
    rw [hNone c hc] at hRequires
    cases hRequires
  · have hMem : false ∈ (order (gather twoFiles ds).candidates.toList).map isSafe := by
      rw [hSafe]
      decide
    obtain ⟨c, hc, hUnsafe⟩ := List.mem_map.mp hMem
    rw [hAll c hc] at hUnsafe
    cases hUnsafe

end TokenLint.Fixing
