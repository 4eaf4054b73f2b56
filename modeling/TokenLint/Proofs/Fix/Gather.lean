import Mathlib.Data.List.Induction
import TokenLint.Proofs.Fix.Transactions

/-!
# Diagnostics with one fix each

Gathering, ordering and selecting may lose fixes in many ways: a fix cannot be built, has no
edits, has the name of another one, or is not safe. If each diagnostic that offers a fix offers
a single safe one under a name of its own, and the diagnostics stand in the order of their
places, none of this happens.

* `gather_eq_planned`: every such fix becomes a candidate, in order.
* `order_planned`: the candidates are in order already.
* `apply_all_eq`: all of them are applied if they are compatible.
* `apply_of_not_fixable`: without fixes nothing is done, whatever is asked for.
-/

namespace TokenLint

theorem Pos.less_iff {p q : Pos} :
    p.less q = true ↔ p.file.toNat < q.file.toNat ∨
      p.file = q.file ∧ p.token.toNat < q.token.toNat := by
  unfold Pos.less
  by_cases h : p.file = q.file <;> simp [h, UInt32.lt_iff_toNat_lt]

theorem Pos.ne_of_less {p q : Pos} (h : p.less q = true) : p ≠ q := by
  rintro rfl
  simp [Pos.less] at h

theorem Pos.less_asymm {p q : Pos} (h : p.less q = true) : q.less p = false := by
  rw [← Bool.not_eq_true, Pos.less_iff]
  rw [Pos.less_iff] at h
  rintro (hFile | ⟨hFile, hToken⟩)
  · rcases h with h | ⟨h, -⟩
    · omega
    · rw [h] at hFile
      omega
  · rw [hFile] at h
    omega

namespace Fixing

/-- The candidates for diagnostics of which each offers one plan. -/
def planned (plan : Diagnostic → FixPlan) (ds : List Diagnostic) : List Candidate :=
  ds.zipIdx.map fun p => ⟨p.1, plan p.1, p.2⟩

section Planned

variable {plan : Diagnostic → FixPlan}

theorem planned_concat (ds : List Diagnostic) (d : Diagnostic) :
    planned plan (ds ++ [d]) = planned plan ds ++ [⟨d, plan d, ds.length⟩] := by
  simp [planned, List.zipIdx_append]

/-- A candidate knows its diagnostic and its plan; all else is its number. -/
theorem map_planned {α : Type} (f : Candidate → α) (g : Diagnostic → α)
    (h : ∀ d i, f ⟨d, plan d, i⟩ = g d) (ds : List Diagnostic) :
    (planned plan ds).map f = ds.map g := by
  rw [planned, List.map_map]
  have hFst : (f ∘ fun p : Diagnostic × Nat => ⟨p.1, plan p.1, p.2⟩) = g ∘ Prod.fst := by
    funext p
    exact h p.1 p.2
  rw [hFst, ← List.map_map, List.zipIdx_map_fst]

theorem mem_planned {ds : List Diagnostic} {c : Candidate} (h : c ∈ planned plan ds) :
    c.diagnostic ∈ ds ∧ c.plan = plan c.diagnostic := by
  obtain ⟨p, hp, rfl⟩ := List.mem_map.mp h
  exact ⟨List.fst_mem_of_mem_zipIdx hp, rfl⟩

theorem pairwise_planned {r : Candidate → Candidate → Prop} {r' : Diagnostic → Diagnostic → Prop}
    {ds : List Diagnostic} (hds : ds.Pairwise r')
    (h : ∀ d ∈ ds, ∀ d' ∈ ds, r' d d' → ∀ i i', r ⟨d, plan d, i⟩ ⟨d', plan d', i'⟩) :
    (planned plan ds).Pairwise r := by
  rw [planned, List.pairwise_map]
  have hFst : (ds.zipIdx.map Prod.fst).Pairwise r' := by rwa [List.zipIdx_map_fst]
  refine (List.pairwise_map.mp hFst).imp_of_mem fun {p q} hp hq hpq => ?_
  exact h p.1 (List.fst_mem_of_mem_zipIdx hp) q.1 (List.fst_mem_of_mem_zipIdx hq) hpq p.2 q.2

theorem editsOf_planned (ds : List Diagnostic) :
    editsOf (planned plan ds) = ds.flatMap fun d => (plan d).edits := by
  rw [editsOf, List.flatMap_def, map_planned _ (fun d => (plan d).edits) fun _ _ => rfl,
    List.flatMap_def]

end Planned

/-! ## Gathering -/

theorem gather_concat (fs : FileSet) (ds : List Diagnostic) (d : Diagnostic) :
    gather fs (ds ++ [d]) = gatherDiagnostic fs (gather fs ds) d := by
  simp [gather]

/-- Diagnostics of which each fixable one offers one plan, under a name of its own. -/
structure OffersOne (fs : FileSet) (plan : Diagnostic → FixPlan) (ds : List Diagnostic) :
    Prop where
  resolves : ∀ d ∈ ds, d.fixable = true → Fix.resolveAll (some fs) d.fixes = .ok [plan d]
  edits : ∀ d ∈ ds, d.fixable = true → (plan d).edits ≠ []
  named : ∀ d ∈ ds, d.fixable = true → (plan d).id ≠ []
  distinct : ((ds.filter (·.fixable)).map fun d => (plan d).id).Nodup

theorem OffersOne.of_append {fs : FileSet} {plan : Diagnostic → FixPlan} {ds ds' : List Diagnostic}
    (h : OffersOne fs plan (ds ++ ds')) : OffersOne fs plan ds where
  resolves d hd := h.resolves d (List.mem_append_left _ hd)
  edits d hd := h.edits d (List.mem_append_left _ hd)
  named d hd := h.named d (List.mem_append_left _ hd)
  distinct := by
    have hAll := h.distinct
    rw [List.filter_append, List.map_append] at hAll
    exact hAll.of_append_left

/-- A diagnostic with one plan under a new name adds a candidate. -/
theorem gatherDiagnostic_eq_push {fs : FileSet} {g : Gathered} {d : Diagnostic} {p : FixPlan}
    (hFixable : d.fixable = true) (hResolve : Fix.resolveAll (some fs) d.fixes = .ok [p])
    (hEdits : p.edits ≠ []) (hNamed : p.id ≠ [])
    (hNew : ∀ c ∈ g.candidates, c.plan.id ≠ p.id) :
    gatherDiagnostic fs g d =
      { g with candidates := g.candidates.push ⟨d, p, g.candidates.size⟩ } := by
  have hEmpty : p.edits.isEmpty = false := by simpa using hEdits
  have hAny : g.candidates.any (fun c => c.plan.id = p.id) = false := by
    rw [← Array.any_toList, List.any_eq_false]
    simpa using hNew
  simp only [gatherDiagnostic, hFixable, hResolve, Bool.not_true, Bool.false_eq_true, if_false,
    List.zipIdx_singleton, List.foldl_cons, List.foldl_nil, gatherPlan, hEmpty, hNamed, hAny]

theorem gather_eq_planned {fs : FileSet} {plan : Diagnostic → FixPlan} {ds : List Diagnostic}
    (h : OffersOne fs plan ds) :
    gather fs ds = { candidates := (planned plan (ds.filter (·.fixable))).toArray } := by
  induction ds using List.reverseRecOn with
  | nil => rfl
  | append_singleton ds d ih =>
      rw [gather_concat, ih h.of_append, List.filter_append]
      have hd : d ∈ ds ++ [d] := List.mem_append_right _ List.mem_cons_self
      by_cases hFixable : d.fixable = true
      · have hDistinct := h.distinct
        rw [List.filter_append, List.map_append, List.nodup_append] at hDistinct
        rw [List.filter_cons_of_pos hFixable, List.filter_nil] at hDistinct ⊢
        rw [gatherDiagnostic_eq_push hFixable (h.resolves d hd hFixable) (h.edits d hd hFixable)
          (h.named d hd hFixable), planned_concat]
        · simp [planned]
        · intro c hc
          obtain ⟨hMem, hPlan⟩ := mem_planned (by simpa using hc)
          rw [hPlan]
          refine hDistinct.2.2 _ (List.mem_map.mpr ⟨c.diagnostic, hMem, rfl⟩) _ ?_
          simp
      · rw [List.filter_cons_of_neg hFixable, List.filter_nil, List.append_nil]
        simp [gatherDiagnostic, hFixable]

/-! ## Ordering and applying -/

theorem order_of_pairwise {cs : List Candidate} (h : cs.Pairwise fun a b => b.before a = false) :
    order cs = cs :=
  Sorting.mergeSort_eq_self h

/-- Diagnostics in the order of their places have candidates in order. -/
theorem order_planned {plan : Diagnostic → FixPlan} {ds : List Diagnostic}
    (h : ds.Pairwise fun d d' => d.primary.less d'.primary = true) :
    order (planned plan ds) = planned plan ds := by
  refine order_of_pairwise (pairwise_planned h fun d _ d' _ hLess i i' => ?_)
  simp [Candidate.before, (Pos.ne_of_less hLess).symm, Pos.less_asymm hLess]

/-- Safe fixes that are compatible are all applied in mode `all`. -/
theorem apply_all_eq {fs : FileSet} {plan : Diagnostic → FixPlan} {ds offered : List Diagnostic}
    (h : OffersOne fs plan ds) (hOffered : ds.filter (·.fixable) = offered)
    (hOrder : offered.Pairwise fun d d' => d.primary.less d'.primary = true)
    (hSafe : ∀ d ∈ offered, (plan d).applicability = .alwaysSafe)
    (hCompatible : Compatible fs [] (planned plan offered)) :
    ∃ changes, apply fs ds { mode := .all } =
      (filesAfter (editsOf (planned plan offered)) fs,
        { applied := (planned plan offered).map (recordOf fs), skipped := [], changes := changes },
        if offered.isEmpty then some .noFixes else none) := by
  have hAll : ∀ c ∈ planned plan offered, isSafe c = true := by
    intro c hc
    obtain ⟨hMem, hPlan⟩ := mem_planned hc
    simpa [isSafe, hPlan] using hSafe _ hMem
  have hKept := List.filter_eq_self.mpr hAll
  have hRuledOut : (planned plan offered).filter (fun c => !isSafe c) = [] := by simpa using hAll
  have hEmpty : ((planned plan offered).map (recordOf fs)).isEmpty = offered.isEmpty := by
    rw [map_planned _ (fun d => recordOf fs ⟨d, plan d, 0⟩) fun _ _ => rfl, List.isEmpty_map]
  obtain ⟨changes, hRun, -⟩ := hCompatible.applySelected_eq
  refine ⟨changes, ?_⟩
  simp only [apply, gather_eq_planned h, hOffered, order_planned hOrder, select, hKept,
    hRuledOut, hRun, hEmpty]
  simp

/-- Without fixes there is nothing to do, whatever is asked for. -/
theorem apply_of_not_fixable {ds : List Diagnostic} (h : ∀ d ∈ ds, d.fixable = false)
    (fs : FileSet) (r : Request) :
    (apply fs ds r).1 = fs ∧ (apply fs ds r).2.2 = some .noFixes := by
  have hNone : ds.filter (·.fixable) = [] := by simpa using h
  have hOffers : OffersOne fs (fun _ => {}) ds := by
    constructor
    case distinct => rw [hNone]; exact List.nodup_nil
    all_goals
      intro d hd hFixable
      rw [h d hd] at hFixable
      cases hFixable
  have hGather : gather fs ds = {} := by rw [gather_eq_planned hOffers, hNone]; rfl
  have hSelect : (select [] r).1 = [] := by
    unfold select
    cases r.mode <;> rfl
  simp only [apply, hGather]
  have hOrder : order [] = [] := List.mergeSort_nil
  simp only [hOrder, hSelect]
  exact ⟨rfl, rfl⟩

end Fixing

end TokenLint
