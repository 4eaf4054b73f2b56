import TokenLint.Proofs.Fix.Gather

/-!
# What becomes of every fix

A diagnostic offers its fixes, or nothing if one of them cannot be built. An offered fix drops out
if it has no edits or the name of an earlier one, if it is not safe, or if it is rejected when its
turn comes; otherwise it is applied. Wherever it leaves, it leaves one entry behind: in mode `all`
the entries of applied and of skipped fixes are those of the offers, one for each.

* `Fate`: the entries an offer can have, in view of the offers before it.
* `gather_induction`: what each offer keeps, gathering keeps.
* `books_gather`: the books are kept while fixes are gathered.
* `every_fix_has_one_entry`: the entries in the end.
-/

namespace TokenLint

namespace Fix

theorem resolveAll_ok_iff {files : Option FileSet} {fixes : List Fix} {plans : List FixPlan} :
    resolveAll files fixes = .ok plans ↔
      List.Forall₂ (fun f p => f.resolve files = .ok p) fixes plans := by
  induction fixes generalizing plans with
  | nil => cases plans <;> simp [resolveAll]
  | cons f fixes ih =>
      rw [resolveAll]
      cases hFirst : f.resolve files with
      | error e => cases plans <;> simp [hFirst]
      | ok p =>
          cases hRest : resolveAll files fixes with
          | error e =>
              rw [hRest] at ih
              cases plans <;> simp [hFirst, ← ih]
          | ok ps =>
              rw [hRest] at ih
              cases plans <;> simp [hFirst, ← ih]

theorem all_resolve_iff {files : Option FileSet} {fixes : List Fix} :
    (fixes.all fun f => (f.resolve files).isOk) = true ↔
      ∃ plans, resolveAll files fixes = .ok plans := by
  induction fixes with
  | nil => simp [resolveAll]
  | cons f fixes ih =>
      rw [List.all_cons, Bool.and_eq_true, ih, resolveAll]
      cases f.resolve files with
      | error e => simp [Except.isOk, Except.toBool]
      | ok p => cases resolveAll files fixes <;> simp [Except.isOk, Except.toBool]

theorem exists_of_resolveAll_error {files : Option FileSet} {fixes : List Fix} {e : FixError}
    (h : resolveAll files fixes = .error e) : ∃ f ∈ fixes, f.resolve files = .error e := by
  induction fixes with
  | nil => cases h
  | cons f fixes ih =>
      rw [resolveAll] at h
      split at h
      · cases h
        exact ⟨f, List.mem_cons_self, ‹_›⟩
      split at h
      · cases h
        obtain ⟨g, hg, hError⟩ := ih ‹_›
        exact ⟨g, List.mem_cons_of_mem _ hg, hError⟩
      · cases h

end Fix

namespace Fixing

/-! ## Offers and entries -/

/-- What a diagnostic brings along. -/
inductive Offer where
  /-- A fix, with its number among the fixes of the diagnostic. All of these can be built. -/
  | fix (d : Diagnostic) (f : Fix) (index : Nat)
  /-- Nothing: some fix of the diagnostic cannot be built. -/
  | nothing (d : Diagnostic)

/-- The offers of a diagnostic. -/
def offersOf (fs : FileSet) (d : Diagnostic) : List Offer :=
  if d.fixes.all fun f => (f.resolve (some fs)).isOk then
    d.fixes.zipIdx.map fun p => .fix d p.1 p.2
  else [.nothing d]

/-- The plan by which an offer takes part, under the name given to it or made for it. Fixes without
edits do not take part. -/
def Offer.plan? (fs : FileSet) : Offer → Option FixPlan
  | .nothing _ => none
  | .fix d f index =>
    match f.resolve (some fs) with
    | .error _ => none
    | .ok p =>
      if p.edits.isEmpty then none
      else some (if p.id = [] then { p with id := generatedId fs d index } else p)

/-- The names under which offers take part. -/
def namesOf (fs : FileSet) (os : List Offer) : List Text := (os.filterMap (·.plan? fs)).map (·.id)

/-- An entry in the books. -/
inductive Entry where
  | applied (a : Applied)
  | skipped (s : Skipped)

/-- The entries of fixes that were applied or skipped. -/
def entriesOf (applied : List Applied) (skipped : List Skipped) : List Entry :=
  applied.map .applied ++ skipped.map .skipped

/-- The entries a fix can have that takes part. -/
inductive Verdict (fs : FileSet) (d : Diagnostic) (p : FixPlan) : Entry → Prop
  | notSafe (h : p.applicability ≠ .alwaysSafe) :
      Verdict fs d p (.skipped ⟨p.id, p.title, (Reason.notSafe p.applicability).message⟩)
  | rejected (h : p.applicability = .alwaysSafe) (r : Reason) :
      Verdict fs d p (.skipped ⟨p.id, p.title, r.message⟩)
  | applied (h : p.applicability = .alwaysSafe) : Verdict fs d p (.applied (recordOf fs ⟨d, p, 0⟩))

/-- The entries an offer can have after the offers `earlier`. -/
inductive Fate (fs : FileSet) (earlier : List Offer) : Offer → Entry → Prop
  | notBuilt {d : Diagnostic} {f : Fix} {e : FixError} (hf : f ∈ d.fixes)
      (h : f.resolve (some fs) = .error e) :
      Fate fs earlier (.nothing d) (.skipped ⟨[], d.message, (Reason.cannotBuild e).message⟩)
  | noEdits {d : Diagnostic} {f : Fix} {i : Nat} {p : FixPlan} (h : f.resolve (some fs) = .ok p)
      (hEdits : p.edits = []) :
      Fate fs earlier (.fix d f i) (.skipped ⟨p.id, p.title, Reason.noEdits.message⟩)
  | repeated {d : Diagnostic} {f : Fix} {i : Nat} {p : FixPlan}
      (h : (Offer.fix d f i).plan? fs = some p) (hName : p.id ∈ namesOf fs earlier) :
      Fate fs earlier (.fix d f i) (.skipped ⟨p.id, p.title, Reason.duplicateId.message⟩)
  | takesPart {d : Diagnostic} {f : Fix} {i : Nat} {p : FixPlan}
      (h : (Offer.fix d f i).plan? fs = some p) (hName : p.id ∉ namesOf fs earlier) {e : Entry}
      (hVerdict : Verdict fs d p e) : Fate fs earlier (.fix d f i) e

/-- One entry for each offer, in the order of the offers. -/
inductive Settled (fs : FileSet) : List Offer → List Entry → Prop
  | nil : Settled fs [] []
  | concat {os : List Offer} {es : List Entry} {o : Offer} {e : Entry} (h : Settled fs os es)
      (hFate : Fate fs os o e) : Settled fs (os ++ [o]) (es ++ [e])

/-! ## Gathering -/

theorem namesOf_append (fs : FileSet) (os os' : List Offer) :
    namesOf fs (os ++ os') = namesOf fs os ++ namesOf fs os' := by
  rw [namesOf, List.filterMap_append, List.map_append]
  rfl

theorem mem_namesOf_singleton {fs : FileSet} {o : Offer} {n : Text} :
    n ∈ namesOf fs [o] ↔ ∃ p, o.plan? fs = some p ∧ p.id = n := by
  cases h : o.plan? fs <;> simp [namesOf, h, eq_comm]

theorem forall₂_concat_left {α β : Type} {r : α → β → Prop} {xs : List α} {x : α} {ys : List β}
    (h : List.Forall₂ r (xs ++ [x]) ys) :
    ∃ ys' y, ys = ys' ++ [y] ∧ List.Forall₂ r xs ys' ∧ r x y := by
  induction xs generalizing ys with
  | nil =>
      obtain ⟨y, _, hy, hNil, rfl⟩ := List.forall₂_cons_left_iff.mp h
      cases hNil
      exact ⟨[], y, rfl, .nil, hy⟩
  | cons a xs ih =>
      obtain ⟨b, _, hb, hRest, rfl⟩ := List.forall₂_cons_left_iff.mp h
      obtain ⟨ys', y, rfl, hys, hy⟩ := ih hRest
      exact ⟨b :: ys', y, rfl, .cons hb hys, hy⟩

/-- The names of the candidates. -/
def Gathered.names (g : Gathered) : List Text := g.candidates.toList.map (·.plan.id)

section Plan

variable {fs : FileSet} {d : Diagnostic} {f : Fix} {p q : FixPlan} {i : Nat}

/-- A fix without edits is skipped. -/
theorem gatherPlan_of_none (hResolve : f.resolve (some fs) = .ok p)
    (h : (Offer.fix d f i).plan? fs = none) (g : Gathered) :
    p.edits = [] ∧ gatherPlan fs d g (p, i) =
      { g with skipped := g.skipped ++ [⟨p.id, p.title, Reason.noEdits.message⟩] } := by
  simp only [Offer.plan?, hResolve] at h
  split at h
  · rename_i hEdits
    refine ⟨by simpa using hEdits, ?_⟩
    rw [gatherPlan, if_pos hEdits]
  · cases h

/-- A fix that takes part becomes a candidate, unless there is one of its name. -/
theorem gatherPlan_of_some (hResolve : f.resolve (some fs) = .ok p)
    (h : (Offer.fix d f i).plan? fs = some q) (g : Gathered) :
    gatherPlan fs d g (p, i) =
      if q.id ∈ g.names then
        { g with skipped := g.skipped ++ [⟨q.id, q.title, Reason.duplicateId.message⟩] }
      else { g with candidates := g.candidates.push ⟨d, q, g.candidates.size⟩ } := by
  simp only [Offer.plan?, hResolve] at h
  split at h
  · cases h
  · rename_i hEdits
    have hName : (g.candidates.any fun c => c.plan.id = q.id) = true ↔ q.id ∈ g.names := by
      rw [← Array.any_toList, List.any_eq_true, Gathered.names, List.mem_map]
      simp only [decide_eq_true_eq]
    have hPlan := Option.some.inj h
    rw [gatherPlan, if_neg hEdits]
    dsimp only
    rw [hPlan]
    by_cases hSeen : q.id ∈ g.names
    · rw [if_pos hSeen, if_pos (hName.mpr hSeen)]
    · rw [if_neg hSeen, if_neg (mt hName.mp hSeen)]

end Plan

section Induction

variable {fs : FileSet} {motive : List Offer → Gathered → Prop}
  (nothing : ∀ {os : List Offer} {g : Gathered} {d : Diagnostic} {f : Fix} {e : FixError},
    motive os g → f ∈ d.fixes → f.resolve (some fs) = .error e →
      motive (os ++ [.nothing d])
        { g with skipped := g.skipped ++ [⟨[], d.message, (Reason.cannotBuild e).message⟩] })
  (fix : ∀ {os : List Offer} {g : Gathered} {d : Diagnostic} {f : Fix} {i : Nat} {p : FixPlan},
    motive os g → f.resolve (some fs) = .ok p →
      motive (os ++ [.fix d f i]) (gatherPlan fs d g (p, i)))

include fix in
theorem gatherPlans_induction {os : List Offer} {g : Gathered} (h : motive os g) (d : Diagnostic)
    {fixes : List Fix} {ps : List FixPlan}
    (hResolve : List.Forall₂ (fun f p => f.resolve (some fs) = .ok p) fixes ps) (i : Nat) :
    motive (os ++ (fixes.zipIdx i).map fun p => .fix d p.1 p.2)
      ((ps.zipIdx i).foldl (gatherPlan fs d) g) := by
  induction hResolve generalizing os g i with
  | nil => simpa using h
  | cons hFirst _ ih =>
      have hNext := ih (fix (d := d) (i := i) h hFirst) (i + 1)
      rwa [List.append_assoc] at hNext

include nothing fix in
theorem gatherDiagnostic_induction {os : List Offer} {g : Gathered} (h : motive os g)
    (d : Diagnostic) : motive (os ++ offersOf fs d) (gatherDiagnostic fs g d) := by
  unfold gatherDiagnostic offersOf
  by_cases hFixable : d.fixable = true
  · rw [hFixable, Bool.not_true, if_neg Bool.false_ne_true]
    cases hResolve : Fix.resolveAll (some fs) d.fixes with
    | error e =>
        obtain ⟨f, hf, hError⟩ := Fix.exists_of_resolveAll_error hResolve
        rw [if_neg (by rw [Fix.all_resolve_iff, hResolve]; rintro ⟨ps, hOk⟩; cases hOk)]
        exact nothing h hf hError
    | ok ps =>
        rw [if_pos (Fix.all_resolve_iff.mpr ⟨ps, hResolve⟩)]
        exact gatherPlans_induction fix h d (Fix.resolveAll_ok_iff.mp hResolve) 0
  · have hNone : d.fixes = [] := by simpa [Diagnostic.fixable] using hFixable
    simpa [hFixable, hNone] using h

include nothing fix in
/-- Gathering goes offer by offer: what holds of nothing and is kept by each offer holds of all that
is gathered. -/
theorem gather_induction (empty : motive [] {}) (ds : List Diagnostic) :
    motive (ds.flatMap (offersOf fs)) (gather fs ds) := by
  induction ds using List.reverseRecOn with
  | nil => exact empty
  | append_singleton ds d ih =>
      rw [List.flatMap_append, List.flatMap_singleton, gather_concat]
      exact gatherDiagnostic_induction nothing fix ih d

end Induction

/-- The books while offers are gathered. Candidates stem from offers and are numbered; the names that
take part are theirs. Whatever the entries of the candidates will be, with the entries of what was
skipped they are the entries of the offers. -/
structure Books (fs : FileSet) (os : List Offer) (g : Gathered) : Prop where
  origins : ∀ c ∈ g.candidates, ∃ f i, Offer.fix c.diagnostic f i ∈ os ∧
    (Offer.fix c.diagnostic f i).plan? fs = some c.plan
  numbers : g.candidates.toList.map (·.order) = List.range g.candidates.size
  names : ∀ n, n ∈ namesOf fs os ↔ n ∈ g.names
  settled : ∀ es, List.Forall₂ (fun c => Verdict fs c.diagnostic c.plan) g.candidates.toList es →
    ∃ entries, Settled fs os entries ∧ entries.Perm (es ++ g.skipped.map .skipped)

theorem books_empty (fs : FileSet) : Books fs [] {} where
  origins := by simp
  numbers := rfl
  names := by simp [namesOf, Gathered.names]
  settled es h := by
    cases h
    exact ⟨[], .nil, List.Perm.refl _⟩

namespace Books

variable {fs : FileSet} {os : List Offer} {g : Gathered}

/-- An offer that is skipped at once. -/
theorem skip (h : Books fs os g) {o : Offer} {s : Skipped} (hFate : Fate fs os o (.skipped s))
    (hNames : ∀ p, o.plan? fs = some p → p.id ∈ namesOf fs os) :
    Books fs (os ++ [o]) { g with skipped := g.skipped ++ [s] } where
  origins c hc := by
    obtain ⟨f, i, hMem, hPlan⟩ := h.origins c hc
    exact ⟨f, i, List.mem_append_left _ hMem, hPlan⟩
  numbers := h.numbers
  names n := by
    show n ∈ namesOf fs (os ++ [o]) ↔ n ∈ g.names
    rw [← h.names, namesOf_append, List.mem_append, or_iff_left_iff_imp, mem_namesOf_singleton]
    rintro ⟨p, hp, rfl⟩
    exact hNames p hp
  settled es hes := by
    obtain ⟨entries, hSettled, hPerm⟩ := h.settled es hes
    refine ⟨entries ++ [.skipped s], hSettled.concat hFate, ?_⟩
    rw [List.map_append, ← List.append_assoc]
    exact hPerm.append_right _

/-- An offer that becomes a candidate. Its entry is still open. -/
theorem push (h : Books fs os g) {d : Diagnostic} {f : Fix} {i : Nat} {p : FixPlan}
    (hPlan : (Offer.fix d f i).plan? fs = some p) (hNew : p.id ∉ namesOf fs os) :
    Books fs (os ++ [.fix d f i])
      { g with candidates := g.candidates.push ⟨d, p, g.candidates.size⟩ } where
  origins c hc := by
    rcases Array.mem_push.mp hc with hOld | rfl
    · obtain ⟨g, j, hMem, hOldPlan⟩ := h.origins c hOld
      exact ⟨g, j, List.mem_append_left _ hMem, hOldPlan⟩
    · exact ⟨f, i, List.mem_append_right _ List.mem_cons_self, hPlan⟩
  numbers := by
    rw [Array.toList_push, List.map_append, h.numbers, Array.size_push, List.range_succ]
    rfl
  names n := by
    rw [namesOf_append, List.mem_append, h.names, mem_namesOf_singleton, hPlan]
    simp [Gathered.names, eq_comm]
  settled es hes := by
    rw [Array.toList_push] at hes
    obtain ⟨es, e, rfl, hOld, hVerdict⟩ := forall₂_concat_left hes
    obtain ⟨entries, hSettled, hPerm⟩ := h.settled es hOld
    refine ⟨entries ++ [e], hSettled.concat (.takesPart hPlan hNew hVerdict), ?_⟩
    rw [List.append_assoc]
    refine (hPerm.append_right [e]).trans ?_
    rw [List.append_assoc]
    exact List.perm_append_comm.append_left es

/-- One more fix of a diagnostic whose fixes can be built. -/
theorem plan (h : Books fs os g) (d : Diagnostic) {f : Fix} {p : FixPlan}
    (hResolve : f.resolve (some fs) = .ok p) (i : Nat) :
    Books fs (os ++ [.fix d f i]) (gatherPlan fs d g (p, i)) := by
  cases hPlan : (Offer.fix d f i).plan? fs with
  | none =>
      obtain ⟨hEdits, hStep⟩ := gatherPlan_of_none hResolve hPlan g
      rw [hStep]
      refine h.skip (.noEdits hResolve hEdits) fun q hq => ?_
      rw [hPlan] at hq
      cases hq
  | some q =>
      rw [gatherPlan_of_some hResolve hPlan]
      split
      · rename_i hSeen
        rw [← h.names] at hSeen
        refine h.skip (.repeated hPlan hSeen) fun q' hq' => ?_
        rw [hPlan] at hq'
        cases hq'
        exact hSeen
      · rename_i hNew
        exact h.push hPlan (mt (h.names q.id).mp hNew)

end Books

theorem books_gather (fs : FileSet) (ds : List Diagnostic) :
    Books fs (ds.flatMap (offersOf fs)) (gather fs ds) := by
  refine gather_induction ?_ ?_ (books_empty fs) ds
  · intro os g d f e h hf hError
    refine h.skip (.notBuilt hf hError) fun p hp => ?_
    cases hp
  · intro os g d f i p h hResolve
    exact h.plan d hResolve i

theorem of_fix_mem_offersOf {fs : FileSet} {d d' : Diagnostic} {f : Fix} {i : Nat}
    (h : Offer.fix d' f i ∈ offersOf fs d) : d' = d ∧ f ∈ d.fixes := by
  unfold offersOf at h
  split at h
  · obtain ⟨p, hp, hOffer⟩ := List.mem_map.mp h
    cases hOffer
    exact ⟨rfl, List.fst_mem_of_mem_zipIdx hp⟩
  · cases List.mem_singleton.mp h

theorem exists_of_plan? {fs : FileSet} {d : Diagnostic} {f : Fix} {i : Nat} {p : FixPlan}
    (h : (Offer.fix d f i).plan? fs = some p) :
    ∃ q, f.resolve (some fs) = .ok q ∧ p.edits = q.edits := by
  cases hResolve : f.resolve (some fs) with
  | error e => simp [Offer.plan?, hResolve] at h
  | ok q =>
      refine ⟨q, rfl, ?_⟩
      simp only [Offer.plan?, hResolve] at h
      split at h
      · cases h
      · cases h
        split <;> rfl

/-- The edits of a candidate are those of a fix that its diagnostic offers. -/
theorem fix_of_mem_gather {fs : FileSet} {ds : List Diagnostic} {c : Candidate}
    (hc : c ∈ (gather fs ds).candidates) : c.diagnostic ∈ ds ∧ ∃ f ∈ c.diagnostic.fixes,
      ∃ p, f.resolve (some fs) = .ok p ∧ c.plan.edits = p.edits := by
  obtain ⟨f, i, hMem, hPlan⟩ := (books_gather fs ds).origins c hc
  obtain ⟨d, hd, hOffer⟩ := List.mem_flatMap.mp hMem
  obtain ⟨hSame, hf⟩ := of_fix_mem_offersOf hOffer
  exact ⟨hSame ▸ hd, f, hSame ▸ hf, exists_of_plan? hPlan⟩

/-! ## Applying -/

theorem applyOne_cases (fs : FileSet) (w : Workspace) (c : Candidate) :
    (∃ r : Reason, applyOne fs w c =
      { w with skipped := w.skipped ++ [⟨c.plan.id, c.plan.title, r.message⟩] }) ∨
    ((applyOne fs w c).applied = w.applied ++ [recordOf fs c] ∧
      (applyOne fs w c).skipped = w.skipped) := by
  cases hStage : stage fs w c.plan.edits (filesOf c.plan.edits) with
  | error r => exact Or.inl ⟨r, by simp only [applyOne, hStage]⟩
  | ok staged =>
      right
      simp only [applyOne, hStage]
      exact ⟨rfl, trivial⟩

theorem entriesOf_append_skipped (as : List Applied) (ss ss' : List Skipped) :
    entriesOf as (ss ++ ss') = entriesOf as ss ++ ss'.map .skipped := by
  simp [entriesOf]

theorem entriesOf_perm {ss ss' : List Skipped} (h : ss.Perm ss') (as : List Applied) :
    (entriesOf as ss).Perm (entriesOf as ss') :=
  (h.map _).append_left _

/-- A candidate that is tried adds one entry. -/
theorem exists_verdict (fs : FileSet) (w : Workspace) {c : Candidate}
    (hSafe : c.plan.applicability = .alwaysSafe) :
    ∃ e, Verdict fs c.diagnostic c.plan e ∧
      (entriesOf (applyOne fs w c).applied (applyOne fs w c).skipped).Perm
        (e :: entriesOf w.applied w.skipped) := by
  rcases applyOne_cases fs w c with ⟨r, hStep⟩ | ⟨hApplied, hSkipped⟩
  · refine ⟨_, .rejected hSafe r, ?_⟩
    rw [hStep, entriesOf_append_skipped]
    exact List.perm_append_singleton _ _
  · refine ⟨_, .applied hSafe, ?_⟩
    rw [hApplied, hSkipped, entriesOf, List.map_append, List.append_assoc]
    exact List.perm_middle

theorem exists_verdicts_of_safe (fs : FileSet) {cs : List Candidate}
    (hSafe : ∀ c ∈ cs, c.plan.applicability = .alwaysSafe) (w : Workspace) :
    ∃ es, List.Forall₂ (fun c => Verdict fs c.diagnostic c.plan) cs es ∧
      (es ++ entriesOf w.applied w.skipped).Perm
        (entriesOf (cs.foldl (applyOne fs) w).applied (cs.foldl (applyOne fs) w).skipped) := by
  induction cs generalizing w with
  | nil => exact ⟨[], .nil, List.Perm.refl _⟩
  | cons c cs ih =>
      obtain ⟨hFirst, hRest⟩ := List.forall_mem_cons.mp hSafe
      obtain ⟨e, hVerdict, hStep⟩ := exists_verdict fs w hFirst
      obtain ⟨es, hVerdicts, hPerm⟩ := ih hRest (applyOne fs w c)
      refine ⟨e :: es, .cons hVerdict hVerdicts, ?_⟩
      refine List.Perm.trans ?_ hPerm
      exact List.perm_middle.symm.trans (hStep.symm.append_left es)

/-- In mode `all` each candidate has one entry in the end, whether it is selected or not. -/
theorem exists_verdicts (fs : FileSet) (cs : List Candidate) (id : Text) :
    ∃ es, List.Forall₂ (fun c => Verdict fs c.diagnostic c.plan) cs es ∧
      es.Perm (entriesOf (applySelected fs (select cs { mode := .all, id := id }).1).2.1
        ((select cs { mode := .all, id := id }).2 ++
          (applySelected fs (select cs { mode := .all, id := id }).1).2.2.1)) := by
  have hSafe : ∀ c ∈ cs.filter isSafe, c.plan.applicability = .alwaysSafe := by
    intro c hc
    exact of_decide_eq_true (List.mem_filter.mp hc).2
  have hUnsafe : List.Forall₂ (fun c => Verdict fs c.diagnostic c.plan)
      (cs.filter fun c => !isSafe c) (((cs.filter fun c => !isSafe c).map fun c =>
        (⟨c.plan.id, c.plan.title, (Reason.notSafe c.plan.applicability).message⟩ : Skipped)).map
          .skipped) := by
    rw [List.map_map, List.forall₂_map_right_iff, List.forall₂_same]
    intro c hc
    refine .notSafe fun h => ?_
    simp [isSafe, h] at hc
  obtain ⟨es, hVerdicts, hPerm⟩ := exists_verdicts_of_safe fs hSafe {}
  obtain ⟨all, hAll, hSplit⟩ := List.perm_comp_forall₂ (List.filter_append_perm isSafe cs).symm
    (List.rel_append hVerdicts hUnsafe)
  refine ⟨all, hAll, hSplit.trans ?_⟩
  have hEmpty : entriesOf ({} : Workspace).applied ({} : Workspace).skipped = [] := rfl
  rw [hEmpty, List.append_nil] at hPerm
  refine (hPerm.append_right _).trans ?_
  rw [← entriesOf_append_skipped]
  exact entriesOf_perm List.perm_append_comm _

/-- Where nothing is ruled out without candidates, the case needs no mention. -/
theorem skipped_apply {r : Request} (hNone : (select [] r).2 = []) (fs : FileSet)
    (ds : List Diagnostic) :
    (apply fs ds r).2.1.skipped = (gather fs ds).skipped ++
      ((select (order (gather fs ds).candidates.toList) r).2 ++
        (applySelected fs (select (order (gather fs ds).candidates.toList) r).1).2.2.1) := by
  have hRuledOut : (if (gather fs ds).candidates.isEmpty then []
      else (select (order (gather fs ds).candidates.toList) r).2) =
        (select (order (gather fs ds).candidates.toList) r).2 := by
    split
    case isTrue hEmpty =>
      have hOrder : order [] = [] := List.mergeSort_nil
      rw [Array.isEmpty_iff.mp hEmpty]
      show [] = (select (order []) r).2
      rw [hOrder, hNone]
    case isFalse => rfl
  rw [← List.append_assoc, ← hRuledOut]
  rfl

/-- In mode `all`, the entries of the applied and of the skipped fixes are those of the offers of all
diagnostics, one for each offer and no others. -/
theorem every_fix_has_one_entry (fs : FileSet) (ds : List Diagnostic) (id : Text) :
    ∃ entries, Settled fs (ds.flatMap (offersOf fs)) entries ∧
      entries.Perm (entriesOf (apply fs ds { mode := .all, id := id }).2.1.applied
        (apply fs ds { mode := .all, id := id }).2.1.skipped) := by
  obtain ⟨es, hVerdicts, hPerm⟩ := exists_verdicts fs (order (gather fs ds).candidates.toList) id
  obtain ⟨all, hAll, hOrder⟩ := List.perm_comp_forall₂ (List.mergeSort_perm _ _).symm hVerdicts
  obtain ⟨entries, hSettled, hEntries⟩ := (books_gather fs ds).settled all hAll
  refine ⟨entries, hSettled, hEntries.trans ?_⟩
  refine (hOrder.append_right _).trans ((hPerm.append_right _).trans ?_)
  rw [← entriesOf_append_skipped]
  refine entriesOf_perm ?_ _
  rw [skipped_apply rfl]
  exact List.perm_append_comm

end Fixing

end TokenLint
