import TokenLint.Proofs.Fix.Greedy
import TokenLint.Proofs.Fix.Names

/-!
# Taking one fix

The modes `once` and `byId` look for one candidate in the list that is ordered by place and then as
gathered. Neither takes a candidate that is to be applied together with all others. Mode `once`
stops at the first of the others that is safe; only if there is none, it comes back to the first one
that is not. What is selected is applied if its edits suit the files.

* `order_precedes`: the order of candidates is strict.
* `selectOnce_eq`, `select_byId`: the candidate that is taken, and what is ruled out on the way.
* `one_candidate_taken`: what the two modes apply and skip.
-/

namespace TokenLint.Fixing

/-! ## Candidates in order -/

/-- At an earlier place, or at the same place and gathered earlier. -/
def Candidate.Precedes (a b : Candidate) : Prop :=
  a.diagnostic.primary.less b.diagnostic.primary = true ∨ a.SamePlace b ∧ a.order < b.order

theorem order_precedes {cs : List Candidate} (h : (cs.map (·.order)).Nodup) :
    (order cs).Pairwise Candidate.Precedes := by
  have hNumbers : (order cs).Pairwise fun a b => a.order ≠ b.order :=
    List.pairwise_map.mp (((List.mergeSort_perm cs _).map _).nodup_iff.mpr h)
  refine ((order_sorted cs).and hNumbers).imp fun ⟨hOrder, hNumber⟩ => ?_
  rw [Candidate.not_before_iff] at hOrder
  exact hOrder.imp_right fun ⟨hPlace, hLe⟩ => ⟨hPlace, Nat.lt_of_le_of_ne hLe hNumber⟩

theorem nodup_names_order (fs : FileSet) (ds : List Diagnostic) :
    ((order (gather fs ds).candidates.toList).map (·.plan.id)).Nodup :=
  ((List.mergeSort_perm _ _).map _).nodup_iff.mpr (sifts_gather fs ds).nodup_names

theorem nodup_order (fs : FileSet) (ds : List Diagnostic) :
    (order (gather fs ds).candidates.toList).Nodup :=
  List.Nodup.of_map _ (nodup_names_order fs ds)

/-! ## Selecting -/

/-- May the candidate be applied without the others? -/
def Candidate.alone (c : Candidate) : Bool := !c.plan.requiresAll

/-- Is the candidate safe, and may it be applied without the others? -/
def Candidate.safeAlone (c : Candidate) : Bool := isSafe c && c.alone

/-- The candidate that mode `once` takes. -/
def onceChoice (cs : List Candidate) : Option Candidate :=
  (cs.find? Candidate.safeAlone).or (cs.find? Candidate.alone)

/-- The candidate that mode `byId` takes. -/
def idChoice (cs : List Candidate) (id : Text) : Option Candidate :=
  (cs.find? fun c => c.plan.id = id).filter Candidate.alone

/-- The remark that a candidate is to be applied together with all others. -/
def needsAllRemark (c : Candidate) : Skipped :=
  ⟨c.plan.id, c.plan.title, Reason.needsAll.message⟩

theorem selectOnce_eq (fallback : Option Candidate) (skipped : List Skipped)
    (cs : List Candidate) :
    selectOnce fallback skipped cs =
      (((cs.find? Candidate.safeAlone).or (fallback.or (cs.find? Candidate.alone))).toList,
        skipped ++ ((cs.takeWhile fun c => !c.safeAlone).filter
          (·.plan.requiresAll)).map needsAllRemark) := by
  induction cs generalizing fallback skipped with
  | nil => simp [selectOnce]
  | cons c cs ih =>
      rw [selectOnce]
      by_cases hAll : c.plan.requiresAll = true
      · have hAlone : c.alone = false := by simp [Candidate.alone, hAll]
        have hSafeAlone : c.safeAlone = false := by simp [Candidate.safeAlone, hAlone]
        rw [if_pos hAll, ih]
        simp [hAlone, hSafeAlone, hAll, needsAllRemark]
      · have hAlone : c.alone = true := by simp [Candidate.alone, hAll]
        rw [if_neg hAll]
        by_cases hSafe : c.plan.applicability = .alwaysSafe
        · have hSafeAlone : c.safeAlone = true := by
            simp [Candidate.safeAlone, hAlone, isSafe, hSafe]
          simp [hSafe, hSafeAlone]
        · have hSafeAlone : c.safeAlone = false := by simp [Candidate.safeAlone, isSafe, hSafe]
          rw [if_neg hSafe, ih]
          -- a candidate that is not safe is remembered if it is the first of its sort
          cases fallback <;> simp [hAlone, hSafeAlone, hAll]

theorem select_once (cs : List Candidate) (id : Text) :
    select cs { mode := .once, id := id } = ((onceChoice cs).toList,
      ((cs.takeWhile fun c => !c.safeAlone).filter (·.plan.requiresAll)).map needsAllRemark) := by
  show selectOnce none [] cs = _
  rw [selectOnce_eq, List.nil_append, Option.none_or]
  rfl

theorem select_byId (cs : List Candidate) (id : Text) :
    (select cs { mode := .byId, id := id }).1 = (idChoice cs id).toList := by
  unfold select idChoice
  cases hFind : cs.find? fun c => c.plan.id = id with
  | none => rfl
  | some c =>
      by_cases hAll : c.plan.requiresAll = true <;>
        simp [hAll, Candidate.alone, Option.filter_some]

theorem mem_of_onceChoice {cs : List Candidate} {c : Candidate} (h : onceChoice cs = some c) :
    c ∈ cs ∧ c.plan.requiresAll = false := by
  rcases Option.or_eq_some_iff.mp h with hFind | ⟨-, hFind⟩
  all_goals
    have hTest := List.find?_some hFind
    refine ⟨List.mem_of_find?_eq_some hFind, ?_⟩
    simp_all [Candidate.safeAlone, Candidate.alone]

/-- No two candidates have the same name, so the first one of a name is the only one. -/
theorem idChoice_eq_some_iff {cs : List Candidate} (h : (cs.map (·.plan.id)).Nodup) {id : Text}
    {c : Candidate} :
    idChoice cs id = some c ↔ c ∈ cs ∧ c.plan.id = id ∧ c.plan.requiresAll = false := by
  rw [idChoice, Option.filter_eq_some_iff]
  constructor
  · rintro ⟨hFind, hAlone⟩
    have hName := List.find?_some hFind
    exact ⟨List.mem_of_find?_eq_some hFind, by simpa using hName,
      by simpa [Candidate.alone] using hAlone⟩
  · rintro ⟨hMem, rfl, hAll⟩
    refine ⟨?_, by simp [Candidate.alone, hAll]⟩
    rw [← List.head?_filter, Table.filter_eq_singleton_of_nodup_map h hMem]
    rfl

theorem mem_of_mem_select {cs : List Candidate} {r : Request} {c : Candidate}
    (h : c ∈ (select cs r).1) : c ∈ cs := by
  obtain ⟨mode, id⟩ := r
  cases mode with
  | once =>
      rw [select_once, Option.mem_toList] at h
      exact (mem_of_onceChoice h).1
  | all => exact List.mem_of_mem_filter h
  | byId =>
      rw [select_byId, Option.mem_toList] at h
      obtain ⟨hFind, -⟩ := Option.filter_eq_some_iff.mp h
      exact List.mem_of_find?_eq_some hFind
  | nothing => cases h

/-! ## Applying -/

section Applying

variable {fs : FileSet} {ds : List Diagnostic} {r : Request} {c : Candidate}

theorem fits_of_mem_appliedOf (hc : c ∈ appliedOf fs ds r) : Fits fs c.plan.edits :=
  ((compatible_appliedFrom (holds_empty fs) _).accepts c hc).1

theorem accepts_nil_iff : Accepts fs [] c ↔ Fits fs c.plan.edits :=
  and_iff_left fun _ hm => absurd hm List.not_mem_nil

/-- A single candidate is applied if its edits suit the files. -/
theorem mem_appliedFrom_toList_iff {chosen : Option Candidate} :
    c ∈ appliedFrom fs {} chosen.toList ↔ chosen = some c ∧ Fits fs c.plan.edits := by
  cases chosen with
  | none => simp [appliedFrom]
  | some a =>
      rw [Option.toList_some, Option.some_inj]
      by_cases hFits : Fits fs a.plan.edits
      · rw [(holds_empty fs).appliedFrom_cons_of_accepts (accepts_nil_iff.mpr hFits), appliedFrom,
          List.mem_singleton]
        exact ⟨fun h => ⟨h.symm, h ▸ hFits⟩, fun h => h.1.symm⟩
      · rw [(holds_empty fs).appliedFrom_cons_of_not_accepts (mt accepts_nil_iff.mp hFits),
          appliedFrom]
        simp only [List.not_mem_nil, false_iff, not_and]
        rintro rfl
        exact hFits

theorem appliedOf_all (hMode : r.mode = .all) :
    appliedOf fs ds r =
      appliedFrom fs {} ((order (gather fs ds).candidates.toList).filter isSafe) := by
  obtain ⟨mode, id⟩ := r
  cases hMode
  rfl

theorem safe_of_mode_all (hMode : r.mode = .all) (hc : c ∈ appliedOf fs ds r) :
    c.plan.applicability = .alwaysSafe := by
  rw [appliedOf_all hMode] at hc
  exact of_decide_eq_true (List.mem_filter.mp ((appliedFrom_sublist fs {} _).mem hc)).2

theorem mem_appliedOf_once_iff (hMode : r.mode = .once) :
    c ∈ appliedOf fs ds r ↔
      onceChoice (order (gather fs ds).candidates.toList) = some c ∧ Fits fs c.plan.edits := by
  obtain ⟨mode, id⟩ := r
  cases hMode
  rw [appliedOf, select_once]
  exact mem_appliedFrom_toList_iff

theorem mem_appliedOf_byId_iff (hMode : r.mode = .byId) :
    c ∈ appliedOf fs ds r ↔ c ∈ order (gather fs ds).candidates.toList ∧ c.plan.id = r.id ∧
      c.plan.requiresAll = false ∧ Fits fs c.plan.edits := by
  obtain ⟨mode, id⟩ := r
  cases hMode
  rw [appliedOf, select_byId, mem_appliedFrom_toList_iff,
    idChoice_eq_some_iff (nodup_names_order fs ds), and_assoc, and_assoc]

/-- Where mode `all` is not asked for, what is applied can stand alone. -/
theorem requiresAll_of_mode_ne_all (hMode : r.mode ≠ .all) (hc : c ∈ appliedOf fs ds r) :
    c.plan.requiresAll = false := by
  cases hKind : r.mode with
  | once => exact (mem_of_onceChoice ((mem_appliedOf_once_iff hKind).mp hc).1).2
  | all => exact absurd hKind hMode
  | byId => exact ((mem_appliedOf_byId_iff hKind).mp hc).2.2.1
  | nothing =>
      obtain ⟨mode, id⟩ := r
      cases hKind
      cases hc

theorem length_appliedFrom_toList_le (fs : FileSet) (chosen : Option Candidate) :
    (appliedFrom fs {} chosen.toList).length ≤ 1 :=
  Nat.le_trans (appliedFrom_sublist fs {} chosen.toList).length_le (by cases chosen <;> simp)

/-- A single candidate that does not suit the files is skipped. -/
theorem skipped_applySelected_toList (fs : FileSet) (chosen : Option Candidate) :
    (applySelected fs chosen.toList).2.2.1 = [] ∨
      ∃ c s, chosen = some c ∧ ¬ Fits fs c.plan.edits ∧ SaysSkipped c s ∧
        (applySelected fs chosen.toList).2.2.1 = [s] := by
  cases chosen with
  | none => exact Or.inl rfl
  | some c =>
      by_cases hFits : Fits fs c.plan.edits
      · exact Or.inl ((holds_empty fs).applyOne_of_accepts (accepts_nil_iff.mpr hFits)).2.2
      · obtain ⟨r, hr⟩ := (holds_empty fs).applyOne_of_not_accepts (mt accepts_nil_iff.mp hFits)
        refine Or.inr ⟨c, _, rfl, hFits, ⟨r, rfl⟩, ?_⟩
        exact congrArg Workspace.skipped hr

end Applying

/-- The candidates come in the order of places, and at one place as they were gathered; no two have
the same name. Mode `once` applies no candidate but the first one that is safe and may be applied
alone or, without such a one, the first that may be applied alone; the selection skips those before
the first safe one that are to be applied with all others. Mode `byId` applies no candidate but the
one of the name, and only if it may be applied alone. In both modes the candidate is applied if its
edits suit the files. -/
theorem one_candidate_taken (fs : FileSet) (ds : List Diagnostic) (id : Text) :
    let gathered := (gather fs ds).candidates.toList
    let cs := order gathered
    let once := appliedOf fs ds { mode := .once, id := id }
    let byId := appliedOf fs ds { mode := .byId, id := id }
    (gathered.map (·.order) = List.range gathered.length ∧ cs.Perm gathered ∧
      cs.Pairwise Candidate.Precedes ∧ (cs.map (·.plan.id)).Nodup) ∧
    ((apply fs ds { mode := .once, id := id }).2.1.applied = once.map (recordOf fs) ∧
      once.length ≤ 1 ∧ (∀ c, c ∈ once ↔ onceChoice cs = some c ∧ Fits fs c.plan.edits) ∧
      ∃ rejected, (apply fs ds { mode := .once, id := id }).2.1.skipped =
          (gather fs ds).skipped ++ ((cs.takeWhile fun c => !c.safeAlone).filter
            (·.plan.requiresAll)).map needsAllRemark ++ rejected ∧
        (rejected = [] ∨ ∃ c s, onceChoice cs = some c ∧ ¬ Fits fs c.plan.edits ∧
          SaysSkipped c s ∧ rejected = [s])) ∧
    ((apply fs ds { mode := .byId, id := id }).2.1.applied = byId.map (recordOf fs) ∧
      byId.length ≤ 1 ∧ ∀ c, c ∈ byId ↔
        c ∈ cs ∧ c.plan.id = id ∧ c.plan.requiresAll = false ∧ Fits fs c.plan.edits) := by
  intro gathered cs once byId
  have hNumbers := (books_gather fs ds).numbers
  have hStrict : (gathered.map (·.order)).Nodup := by
    rw [hNumbers]
    exact List.nodup_range
  have hOnce : once.length ≤ 1 := by
    show (appliedFrom fs {} (select cs _).1).length ≤ 1
    rw [select_once]
    exact length_appliedFrom_toList_le fs _
  have hById : byId.length ≤ 1 := by
    show (appliedFrom fs {} (select cs _).1).length ≤ 1
    rw [select_byId]
    exact length_appliedFrom_toList_le fs _
  have hSkipped : (apply fs ds { mode := .once, id := id }).2.1.skipped =
      (gather fs ds).skipped ++ ((cs.takeWhile fun c => !c.safeAlone).filter
        (·.plan.requiresAll)).map needsAllRemark ++
          (applySelected fs (onceChoice cs).toList).2.2.1 := by
    rw [skipped_apply rfl, select_once, List.append_assoc]
  exact ⟨⟨hNumbers, List.mergeSort_perm _ _, order_precedes hStrict, nodup_names_order fs ds⟩,
    ⟨(apply_eq fs ds _).2.1, hOnce, fun _ => mem_appliedOf_once_iff rfl,
      _, hSkipped, skipped_applySelected_toList fs _⟩,
    (apply_eq fs ds _).2.1, hById, fun _ => mem_appliedOf_byId_iff rfl⟩

end TokenLint.Fixing
