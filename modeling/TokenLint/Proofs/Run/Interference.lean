import TokenLint.Proofs.Run.Reference
import TokenLint.Proofs.Table

/-!
# Rules do not interfere

The rules that look at a file share a filter for repetitions, a bag, and the sorting of the bag.
Still, a rule reports what it would report alone, whatever the others say and whether or not they
crash. Reports are told apart by the name of their rule, so picking those of one name goes before
all that is shared:

* `filter_firstBy`: repetitions of a report come from the same rule.
* `sort_filter`: sorting is stable, so what is picked before it could be picked after it.
* `filter_findingsFrom`: the reports under the name of a rule are those the rule makes alone.
* `filter_bag_processFile`: the part of a bag under the name of a rule is the bag of the rule alone.
-/

namespace TokenLint

/-- Striking out repetitions does not disturb a choice that depends on the keys only. -/
theorem filter_firstBy {α β : Type} [DecidableEq β] {key : α → β} {p : α → Bool}
    (hKey : ∀ x y, key x = key y → p x = p y) (xs : List α) {seen seen' : List β}
    (hSeen : ∀ x, p x = true → (key x ∈ seen ↔ key x ∈ seen')) :
    (firstBy key seen xs).filter p = firstBy key seen' (xs.filter p) := by
  induction xs generalizing seen seen' with
  | nil => rfl
  | cons x xs ih =>
      by_cases hx : p x = true
      · rw [List.filter_cons_of_pos hx, firstBy, firstBy]
        by_cases hOld : key x ∈ seen
        · rw [if_pos hOld, if_pos ((hSeen x hx).mp hOld)]
          exact ih hSeen
        · rw [if_neg hOld, if_neg (fun h => hOld ((hSeen x hx).mpr h)), List.filter_cons_of_pos hx]
          refine congrArg (x :: ·) (ih fun y hy => ?_)
          rw [List.mem_cons, List.mem_cons, hSeen y hy]
      · rw [List.filter_cons_of_neg hx, firstBy]
        split
        · exact ih hSeen
        · -- the key that is remembered belongs to no element that is chosen
          rw [List.filter_cons_of_neg hx]
          refine ih fun y hy => ?_
          have hOther : key y ≠ key x := fun h => hx (hKey y x h ▸ hy)
          rw [List.mem_cons, or_iff_right hOther, hSeen y hy]

namespace Diagnostic

/-! ## Sorting and choosing -/

theorem NotAfter.antisymm {a b : Diagnostic} (hab : NotAfter a b) (hba : NotAfter b a) :
    SameRank a b :=
  ranks_before.tied_of (before_eq_false_iff.mpr hab) (before_eq_false_iff.mpr hba)

theorem notAfter_refl (d : Diagnostic) : NotAfter d d :=
  Or.inr ⟨rfl, Or.inr ⟨rfl, Or.inr ⟨rfl, List.le_refl _⟩⟩⟩

/-- Sorting is stable, so what is chosen may be chosen before or after. -/
theorem sort_filter (p : Diagnostic → Bool) (ds : List Diagnostic) :
    (sort ds).filter p = sort (ds.filter p) := by
  have hAll := stablySorted_sort ds
  have hPart := stablySorted_sort (ds.filter p)
  refine Sorting.eq_of_ties notAfter_refl (fun _ => ⟨rfl, rfl, rfl⟩)
    (fun _ _ => NotAfter.antisymm) (hAll.ordered.filter p) hPart.ordered fun d => ?_
  rw [List.filter_comm, hAll.ties, hPart.ties, List.filter_comm]

end Diagnostic

/-! ## Choosing the reports of a rule -/

/-- A rule makes its reports through the view it is given: they bear the name in the view. -/
def Rule.ReportsThroughView (r : Rule) : Prop :=
  ∀ (v : RuleView) (i : Nat), ∀ d ∈ (r.process v i).diagnostics, d.rule = v.rule

theorem Rule.rule_of_mem_findings {r : Rule} (h : r.ReportsThroughView) {base : RuleView} {i : Nat}
    {d : Diagnostic} (hd : d ∈ r.findings (Run.viewFor base r) i) : d.rule = r.code := by
  rcases Rule.mem_findings_iff.mp hd with hReport | ⟨words, -, rfl⟩
  · exact h _ _ d hReport
  · rfl

namespace Run

/-- Is a report made under a name? -/
def isBy (name : Text) (d : Diagnostic) : Bool := d.rule = name

theorem filter_findings {r : Rule} (h : r.ReportsThroughView) (name : Text) (base : RuleView)
    (i : Nat) :
    (r.findings (viewFor base r) i).filter (isBy name) =
      if r.code = name then r.findings (viewFor base r) i else [] := by
  split
  case isTrue hName =>
    refine List.filter_eq_self.mpr fun d hd => ?_
    exact decide_eq_true ((Rule.rule_of_mem_findings h hd).trans hName)
  case isFalse hName =>
    refine List.filter_eq_nil_iff.mpr fun d hd hBy => hName ?_
    exact (Rule.rule_of_mem_findings h hd).symm.trans (of_decide_eq_true hBy)

section Alone

variable {rules : List (Option Rule)}
  (hDistinct : ((rules.filterMap id).map (·.code)).Nodup)
  (hThrough : ∀ r ∈ rules.filterMap id, r.ReportsThroughView)
  {r : Rule} (hRule : some r ∈ rules)
include hDistinct hThrough hRule

/-- The reports under the name of a rule are those it makes alone. -/
theorem filter_findingsFrom (base : RuleView) (s : Stream) (i : Nat) :
    (findingsFrom (.ofList rules) base (fun _ => false) i s).filter (isBy r.code) =
      findingsFrom (.ofList [some r]) base (fun _ => false) i s := by
  rw [findingsFrom_eq_flatMap, findingsFrom_eq_flatMap, List.filter_flatMap]
  refine List.flatMap_congr fun p _ => ?_
  have hMem : r ∈ rules.filterMap id := List.mem_filterMap.mpr ⟨some r, hRule, rfl⟩
  have hOne : [some r].filterMap id = [r] := rfl
  -- of the rules for a kind, those of the name are asked, and that is the one rule
  calc (findingsAt (.ofList rules) base p.1 p.2).filter (isBy r.code)
      = ((rules.filterMap id).filter fun r' => p.1.kind ∈ r'.kinds).flatMap fun r' =>
          if r'.code = r.code then r'.findings (viewFor base r') p.2 else [] := by
        rw [findingsAt, Registry.forKind_ofList, List.filter_flatMap]
        exact List.flatMap_congr fun r' hr' =>
          filter_findings (hThrough r' (List.mem_filter.mp hr').1) r.code base p.2
    _ = (((rules.filterMap id).filter fun r' => r'.code = r.code).filter fun r' =>
          p.1.kind ∈ r'.kinds).flatMap fun r' => r'.findings (viewFor base r') p.2 := by
        rw [List.filter_comm, flatMap_filter (fun r' : Rule => r'.code = r.code)]
        simp only [decide_eq_true_eq]
    _ = findingsAt (.ofList [some r]) base p.1 p.2 := by
        rw [Table.filter_eq_singleton_of_nodup_map hDistinct hMem, findingsAt,
          Registry.forKind_ofList, hOne]

end Alone

theorem isBy_eq_of_key_eq (name : Text) (d d' : Diagnostic) (h : d.key = d'.key) :
    isBy name d = isBy name d' := by
  have hRule : d.rule = d'.rule := congrArg Diagnostic.Key.rule h
  rw [isBy, isBy, hRule]

theorem filter_distinct (name : Text) (reports : List Diagnostic) :
    (distinct reports).filter (isBy name) = distinct (reports.filter (isBy name)) :=
  filter_firstBy (isBy_eq_of_key_eq name) reports fun _ _ => Iff.rfl

/-- Where nothing is dropped, choosing the reports under a name goes before collecting. -/
theorem filter_collect {max : Int} {reports : List Diagnostic} (name : Text)
    (hKept : (collect max reports).dropped = 0) :
    (collect max reports).filter (isBy name) = collect max (reports.filter (isBy name)) := by
  rw [collect_dropped] at hKept
  have hAll : (distinct reports).length ≤ room max := by omega
  have hPart : (distinct (reports.filter (isBy name))).length ≤ room max := by
    rw [← filter_distinct]
    exact Nat.le_trans (List.length_filter_le _ _) hAll
  rw [collect_eq, collect_eq, List.take_of_length_le hAll, List.take_of_length_le hPart,
    ← filter_distinct, ← Diagnostic.sort_filter, filter_distinct]
  simp only [Bag.filter, Bag.mk.injEq, true_and]
  refine ⟨by simp, by omega⟩

/-- Rules do not interfere. The rules of a list have different names, and each reports through the
view it is given; it may crash. If nothing is dropped, the part of the bag of a file that is under
the name of one of them is the bag that it has when it is asked alone. -/
theorem filter_bag_processFile (rules : List (Option Rule)) (max : Int) (fs : FileSet)
    (file : UInt32) (hDistinct : ((rules.filterMap id).map (·.code)).Nodup)
    (hThrough : ∀ r ∈ rules.filterMap id, r.ReportsThroughView)
    (hKept : (processFile (.ofList rules) max fs file fun _ => false).bag.dropped = 0)
    (r : Rule) (hRule : some r ∈ rules) :
    (processFile (.ofList rules) max fs file fun _ => false).bag.filter (isBy r.code) =
      (processFile (.ofList [some r]) max fs file fun _ => false).bag := by
  unfold processFile at hKept ⊢
  cases hFile : fs.get? file with
  | none => simp [Bag.filter, Bag.ofCapacity]
  | some f =>
      simp only [hFile] at hKept ⊢
      rw [filter_collect r.code hKept, filter_findingsFrom hDistinct hThrough hRule]

theorem crashingRules_reportThroughView :
    ∀ r ∈ crashingRules.filterMap id, r.ReportsThroughView := by
  intro r hr v i d hd
  simp only [crashingRules, List.filterMap_cons, id_eq, List.filterMap_nil, List.mem_cons,
    List.not_mem_nil, or_false] at hr
  rcases hr with rfl | rfl
  · simp only [List.mem_cons, List.not_mem_nil, or_false, or_self] at hd
    rw [hd]
    rfl
  · rw [List.mem_singleton.mp hd]
    rfl

/-- The rule that crashes does not keep the other one from its report, nor the other way round. -/
theorem filter_bag_processFile_crashingRules :
    let bag := (processFile (.ofList crashingRules) 9 twoNames 0 fun _ => false).bag
    let alone := fun r : Rule => (processFile (.ofList [some r]) 9 twoNames 0 fun _ => false).bag
    bag.items.size = 4 ∧ ∃ a b, crashingRules = [some a, none, some b] ∧
      bag.filter (isBy a.code) = alone a ∧ bag.filter (isBy b.code) = alone b := by
  intro bag alone
  have hAlone := filter_bag_processFile crashingRules 9 twoNames 0 (by decide)
    crashingRules_reportThroughView (by decide +kernel)
  refine ⟨size_bag_crashingRules, _, _, rfl, ?_, ?_⟩
  · exact hAlone _ List.mem_cons_self
  · exact hAlone _ (List.mem_cons_of_mem _ (List.mem_cons_of_mem _ List.mem_cons_self))

end Run

end TokenLint
