import TokenLint.Proofs.Fix.Selection

/-!
# Fixes that are built late

A fix with a builder is declared with a judgement of its own: how safe it is, and whether it is to be
applied together with all others. The built fix comes with another one, and it is the built fix that
becomes a candidate; of the declaration only a name and a title can remain. So a mode asks what the
builder says, and it keeps to the declaration only as far as the builder never says more.

* `existsUnique_stemsFrom`: every candidate goes back to one of the fixes on offer.
* `exists_built_of_plan?`: what remains of the declaration of a fix that is built late.
* `declaration_honoured_iff`: when the modes keep to the declaration.
-/

namespace TokenLint.Fixing

/-! ## Candidates and the fixes they go back to -/

/-- The first offer under a name. -/
def offerNamed? (fs : FileSet) (os : List Offer) (n : Text) : Option Offer :=
  os.find? fun o => (o.candidate? fs).any fun c => c.plan.id = n

/-- A candidate goes back to a fix: it has the plan of this fix, the first on offer under its
name. -/
def StemsFrom (fs : FileSet) (ds : List Diagnostic) (c : Candidate) (f : Fix) : Prop :=
  ∃ i, offerNamed? fs (ds.flatMap (offersOf fs)) c.plan.id = some (.fix c.diagnostic f i) ∧
    (Offer.fix c.diagnostic f i).plan? fs = some c.plan

theorem Offer.exists_of_candidate? {fs : FileSet} {o : Offer} {c : Candidate}
    (h : o.candidate? fs = some c) :
    ∃ f i, o = .fix c.diagnostic f i ∧ o.plan? fs = some c.plan := by
  cases o with
  | nothing d => cases h
  | fix d f i =>
      obtain ⟨p, hPlan, rfl⟩ := Option.map_eq_some_iff.mp h
      exact ⟨f, i, rfl, hPlan⟩

theorem existsUnique_stemsFrom {fs : FileSet} {ds : List Diagnostic} {c : Candidate}
    (hc : c ∈ (gather fs ds).candidates) : ∃! f, StemsFrom fs ds c f := by
  have hMem : c.unnumbered ∈ (gather fs ds).unnumbered :=
    List.mem_map_of_mem (Array.mem_toList_iff.mpr hc)
  rw [(sifts_gather fs ds).unnumbered] at hMem
  have hFirst := find?_of_mem_firstBy hMem
  rw [List.find?_filterMap, Option.bind_eq_some_iff] at hFirst
  obtain ⟨o, hOffer, hCandidate⟩ := hFirst
  obtain ⟨f, i, rfl, hPlan⟩ := Offer.exists_of_candidate? hCandidate
  refine ⟨f, ⟨i, hOffer, hPlan⟩, ?_⟩
  rintro f' ⟨i', hOffer', -⟩
  have hSame := Option.some.inj (hOffer'.symm.trans hOffer)
  injection hSame

/-! ## What the builder says -/

/-- The builder succeeds, and its edits suit the files. -/
structure BuildsFitting (b : FixBuilder) (fs : FileSet) (p : FixPlan) : Prop where
  builds : b.build (some fs) = .ok p
  edits : p.edits ≠ []
  fits : Fits fs p.edits

/-- The same plan, but for name and title. -/
def SamePlan (p q : FixPlan) : Prop := q = { p with id := q.id, title := q.title }

namespace SamePlan

variable {p q : FixPlan}

theorem applicability (h : SamePlan p q) : q.applicability = p.applicability := by rw [h]

theorem requiresAll (h : SamePlan p q) : q.requiresAll = p.requiresAll := by rw [h]

theorem edits (h : SamePlan p q) : q.edits = p.edits := by rw [h]

end SamePlan

section Late

variable {fs : FileSet} {f : Fix} {b : FixBuilder} (hLate : f.builder = some b)
include hLate

theorem exists_plan?_of_built {p : FixPlan} (hBuild : b.build (some fs) = .ok p)
    (hEdits : p.edits ≠ []) (d : Diagnostic) (i : Nat) :
    ∃ q, (Offer.fix d f i).plan? fs = some q ∧ SamePlan p q := by
  rw [Offer.plan?, Fix.resolve, hLate]
  simp only [hBuild, List.isEmpty_iff, hEdits, if_false]
  refine ⟨_, rfl, ?_⟩
  unfold SamePlan
  split_ifs <;> rfl

/-- A fix that takes part is as it was built, but for name and title. -/
theorem exists_built_of_plan? {d : Diagnostic} {i : Nat} {q : FixPlan}
    (h : (Offer.fix d f i).plan? fs = some q) :
    ∃ p, b.build (some fs) = .ok p ∧ p.edits ≠ [] ∧ SamePlan p q := by
  cases hBuild : b.build (some fs) with
  | error cause =>
      rw [Offer.plan?, Fix.resolve, hLate] at h
      simp [hBuild] at h
  | ok p =>
      by_cases hEdits : p.edits = []
      · rw [Offer.plan?, Fix.resolve, hLate] at h
        simp [hBuild, hEdits] at h
      · obtain ⟨q', hPlan, hSame⟩ := exists_plan?_of_built hLate hBuild hEdits d i
        obtain rfl := Option.some.inj (hPlan.symm.trans h)
        exact ⟨p, rfl, hEdits, hSame⟩

end Late

/-! ## A fix on its own -/

/-- A finding at no particular place with one fix. -/
def lone (f : Fix) : Diagnostic := { fixes := [f] }

theorem exists_lone {fs : FileSet} {d : Diagnostic} {f : Fix} {q : FixPlan} (hFixes : d.fixes = [f])
    (hPlan : (Offer.fix d f 0).plan? fs = some q) :
    ∃ c, order (gather fs [d]).candidates.toList = [c] ∧ c.plan = q ∧ StemsFrom fs [d] c f := by
  have hResolve : (f.resolve (some fs)).isOk = true := by
    cases h : f.resolve (some fs) with
    | error e => simp [Offer.plan?, h] at hPlan
    | ok p => rfl
  have hOffers : [d].flatMap (offersOf fs) = [.fix d f 0] := by
    rw [List.flatMap_singleton, offersOf, hFixes]
    exact if_pos (List.all_eq_true.mpr fun g hg => List.mem_singleton.mp hg ▸ hResolve)
  have hCandidate : (Offer.fix d f 0).candidate? fs = some ⟨d, q, 0⟩ := by
    rw [Offer.candidate?, hPlan, Option.map_some]
  have hGathered : (gather fs [d]).unnumbered = [⟨d, q, 0⟩] := by
    rw [(sifts_gather fs [d]).unnumbered, hOffers, List.filterMap_cons_some hCandidate,
      List.filterMap_nil]
    rfl
  obtain ⟨⟨d', p, i⟩, hSingle, hc⟩ := List.map_eq_singleton_iff.mp hGathered
  obtain ⟨rfl, rfl, -⟩ := Candidate.mk.inj hc
  refine ⟨_, ?_, rfl, 0, ?_, hPlan⟩
  · rw [hSingle]
    exact List.mergeSort_singleton _
  · rw [hOffers, offerNamed?]
    exact List.find?_cons_of_pos (by simp [hCandidate])

/-- Does the request take a fix that is the only one on offer? -/
def Request.takes (r : Request) (p : FixPlan) : Prop :=
  match r.mode with
  | .once => p.requiresAll = false
  | .all => p.applicability = .alwaysSafe
  | .byId => p.id = r.id ∧ p.requiresAll = false
  | .nothing => False

theorem select_singleton {c : Candidate} {r : Request} (h : r.takes c.plan) :
    (select [c] r).1 = [c] := by
  obtain ⟨mode, id⟩ := r
  cases mode with
  | once =>
      have hAlone : c.alone = true := by simpa [Candidate.alone, Request.takes] using h
      rw [select_once]
      cases hSafe : c.safeAlone <;> simp [onceChoice, hSafe, hAlone]
  | all => exact List.filter_cons_of_pos (decide_eq_true h)
  | byId =>
      obtain ⟨hId, hAll⟩ := h
      rw [select_byId]
      simp [idChoice, hId, Candidate.alone, hAll]
  | nothing => exact h.elim

section Only

variable {fs : FileSet} {ds : List Diagnostic} {c : Candidate}
  (hOnly : order (gather fs ds).candidates.toList = [c]) (hFits : Fits fs c.plan.edits)
include hOnly hFits

theorem appliedOf_only {r : Request} (hTakes : r.takes c.plan) : appliedOf fs ds r = [c] := by
  rw [appliedOf, hOnly, select_singleton hTakes,
    (holds_empty fs).appliedFrom_cons_of_accepts (accepts_nil_iff.mpr hFits)]
  rfl

theorem only_applied_all (hSafe : c.plan.applicability = .alwaysSafe) (id : Text) :
    c ∈ appliedOf fs ds { mode := .all, id := id } := by
  have hTakes : Request.takes { mode := .all, id := id } c.plan := hSafe
  rw [appliedOf_only hOnly hFits hTakes]
  exact List.mem_cons_self

theorem only_applied_alone (hAlone : c.plan.requiresAll = false) {m : Mode}
    (hMode : m = .once ∨ m = .byId) : c ∈ appliedOf fs ds { mode := m, id := c.plan.id } := by
  have hTakes : Request.takes { mode := m, id := c.plan.id } c.plan := by
    rcases hMode with rfl | rfl
    · exact hAlone
    · exact ⟨rfl, hAlone⟩
  rw [appliedOf_only hOnly hFits hTakes]
  exact List.mem_cons_self

end Only

/-! ## Modes and declarations -/

/-- Mode `all` applies the fix only if it is declared safe. -/
def SafeAsDeclared (f : Fix) : Prop :=
  ∀ fs ds id, ∀ c ∈ appliedOf fs ds { mode := .all, id := id }, StemsFrom fs ds c f →
    f.plan.applicability = .alwaysSafe

/-- The mode applies the fix only if it is not declared to require all others. -/
def AloneAsDeclared (m : Mode) (f : Fix) : Prop :=
  ∀ fs ds id, ∀ c ∈ appliedOf fs ds { mode := m, id := id }, StemsFrom fs ds c f →
    f.plan.requiresAll = false

section Declared

variable {f : Fix} {b : FixBuilder} (hLate : f.builder = some b)
include hLate

theorem exists_built_of_applied {fs : FileSet} {ds : List Diagnostic} {r : Request} {c : Candidate}
    (hc : c ∈ appliedOf fs ds r) (hStems : StemsFrom fs ds c f) :
    ∃ p, BuildsFitting b fs p ∧ SamePlan p c.plan := by
  obtain ⟨i, -, hPlan⟩ := hStems
  obtain ⟨p, hBuild, hEdits, hSame⟩ := exists_built_of_plan? hLate hPlan
  exact ⟨p, ⟨hBuild, hEdits, hSame.edits ▸ fits_of_mem_appliedOf hc⟩, hSame⟩

theorem exists_only_of_builds {fs : FileSet} {p : FixPlan} (h : BuildsFitting b fs p) :
    ∃ c, order (gather fs [lone f]).candidates.toList = [c] ∧ Fits fs c.plan.edits ∧
      StemsFrom fs [lone f] c f ∧ SamePlan p c.plan := by
  obtain ⟨q, hPlan, hSame⟩ := exists_plan?_of_built hLate h.builds h.edits (lone f) 0
  obtain ⟨c, hOnly, rfl, hStems⟩ := exists_lone rfl hPlan
  exact ⟨c, hOnly, hSame.edits ▸ h.fits, hStems, hSame⟩

theorem safeAsDeclared_iff : SafeAsDeclared f ↔ f.plan.applicability = .alwaysSafe ∨
    ∀ fs p, BuildsFitting b fs p → p.applicability ≠ .alwaysSafe := by
  constructor
  · intro hKept
    refine or_iff_not_imp_left.mpr fun hUnsafe fs p hBuilds hSafe => hUnsafe ?_
    -- nothing stands in the way of the fix where it is the only one on offer
    obtain ⟨c, hOnly, hFits, hStems, hSame⟩ := exists_only_of_builds hLate hBuilds
    have hApplied := only_applied_all hOnly hFits (hSame.applicability.trans hSafe) []
    exact hKept fs _ _ c hApplied hStems
  · rintro (hSafe | hNever) fs ds id c hc hStems
    · exact hSafe
    · obtain ⟨p, hBuilds, hSame⟩ := exists_built_of_applied hLate hc hStems
      exact absurd (hSame.applicability.symm.trans (safe_of_mode_all rfl hc)) (hNever fs p hBuilds)

theorem aloneAsDeclared_iff {m : Mode} (hMode : m = .once ∨ m = .byId) :
    AloneAsDeclared m f ↔ f.plan.requiresAll = false ∨
      ∀ fs p, BuildsFitting b fs p → p.requiresAll = true := by
  constructor
  · intro hKept
    refine or_iff_not_imp_left.mpr fun hAll fs p hBuilds => ?_
    by_contra hAlone
    obtain ⟨c, hOnly, hFits, hStems, hSame⟩ := exists_only_of_builds hLate hBuilds
    have hFree := hSame.requiresAll.trans (eq_false_of_ne_true hAlone)
    exact hAll (hKept fs _ _ c (only_applied_alone hOnly hFits hFree hMode) hStems)
  · rintro (hAlone | hAlways) fs ds id c hc hStems
    · exact hAlone
    · obtain ⟨p, hBuilds, hSame⟩ := exists_built_of_applied hLate hc hStems
      have hNotAll : m ≠ .all := by rcases hMode with rfl | rfl <;> exact Mode.noConfusion
      have hFree := requiresAll_of_mode_ne_all hNotAll hc
      rw [hSame.requiresAll, hAlways fs p hBuilds] at hFree
      cases hFree

/-- All that is applied and reported goes back to one of the fixes on offer. Of a fix that is built
late, it is what was built that is applied, under some name and title, and it is for what was built
that mode `all` asks whether it is safe, and the other modes whether it requires all others. So mode
`all` keeps to a declaration that is not safe only if the builder builds nothing safe whose edits
suit the files, and the other modes keep to the declaration that all others are required only if the
builder says so each time. -/
theorem declaration_honoured_iff :
    (∀ fs ds r, (apply fs ds r).2.1.applied = (appliedOf fs ds r).map (recordOf fs) ∧
        ∀ c ∈ appliedOf fs ds r, ∃! g, StemsFrom fs ds c g) ∧
      (∀ fs ds r, ∀ c ∈ appliedOf fs ds r, StemsFrom fs ds c f →
        ∃ p, BuildsFitting b fs p ∧ SamePlan p c.plan ∧
          (r.mode = .all → p.applicability = .alwaysSafe) ∧
          (r.mode ≠ .all → p.requiresAll = false)) ∧
      (SafeAsDeclared f ↔ f.plan.applicability = .alwaysSafe ∨
        ∀ fs p, BuildsFitting b fs p → p.applicability ≠ .alwaysSafe) ∧
      ∀ m, m = .once ∨ m = .byId → (AloneAsDeclared m f ↔ f.plan.requiresAll = false ∨
        ∀ fs p, BuildsFitting b fs p → p.requiresAll = true) := by
  refine ⟨fun fs ds r => ⟨(apply_eq fs ds r).2.1, fun c hc => ?_⟩,
    fun fs ds r c hc hStems => ?_, safeAsDeclared_iff hLate,
    fun m hMode => aloneAsDeclared_iff hLate hMode⟩
  · have hOrdered := mem_of_mem_select ((appliedFrom_sublist fs {} _).mem hc)
    have hGathered := (List.mergeSort_perm _ _).mem_iff.mp hOrdered
    exact existsUnique_stemsFrom (Array.mem_toList_iff.mp hGathered)
  · obtain ⟨p, hBuilds, hSame⟩ := exists_built_of_applied hLate hc hStems
    exact ⟨p, hBuilds, hSame,
      fun hMode => hSame.applicability.symm.trans (safe_of_mode_all hMode hc),
      fun hMode => hSame.requiresAll.symm.trans (requiresAll_of_mode_ne_all hMode hc)⟩

end Declared

/-- A fix that is declared to want a review and to require all others, and whose builder says
nothing of the kind. -/
theorem declaration_honoured_iff_manualReview :
    let b : FixBuilder := ⟨"late", fun _ => .ok { edits := [⟨⟨0, 0⟩, "one", "x"⟩] }⟩
    let f := Fix.deferred "Rename" (some b) [.applicability ⟨2⟩, .requiresAll]
    f.builder = some b ∧ ¬ SafeAsDeclared f ∧
      ∀ m, m = .once ∨ m = .byId → ¬ AloneAsDeclared m f := by
  intro b f
  have hBuilds : BuildsFitting b twoFiles { edits := [⟨⟨0, 0⟩, "one", "x"⟩] } :=
    ⟨rfl, List.cons_ne_nil _ _, fits_singleton rfl rfl rfl⟩
  obtain ⟨-, -, hSafe, hAlone⟩ := declaration_honoured_iff (f := f) (b := b) rfl
  refine ⟨rfl, fun hKept => ?_, fun m hMode hKept => ?_⟩
  · rcases hSafe.mp hKept with hDeclared | hNever
    · exact absurd hDeclared (by decide)
    · exact hNever twoFiles _ hBuilds rfl
  · rcases (hAlone m hMode).mp hKept with hDeclared | hAlways
    · cases hDeclared
    · cases hAlways twoFiles _ hBuilds

end TokenLint.Fixing
