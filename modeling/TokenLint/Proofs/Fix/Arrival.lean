import TokenLint.Proofs.Fix.Fates
import TokenLint.Proofs.Fix.Frame
import TokenLint.Proofs.Run.Collect

/-!
# The order in which diagnostics arrive

Candidates are numbered as they are gathered, and the number decides between candidates at the same
place. If fixable diagnostics are at different places and no name is given twice, only fixes of one
diagnostic are at the same place, and no fix drops out because of another one. Then the candidates
of each diagnostic are those that it would have alone, and sorting by place brings them into the
same order, however the diagnostics arrive. Nothing behind that looks at numbers.

* `gather_apart`: without repeated names, gathering goes diagnostic by diagnostic.
* `order_apart`: the candidates in order, but for their numbers.
* `apply_perm`: applying fixes does not depend on the order of the diagnostics.
-/

namespace TokenLint

theorem Pos.eq_of_not_less {p q : Pos} (h : p.less q = false) (h' : q.less p = false) : p = q := by
  rw [← Bool.not_eq_true, Pos.less_iff] at h h'
  obtain ⟨pFile, pToken⟩ := p
  obtain ⟨qFile, qToken⟩ := q
  simp only [not_or, not_and, ← UInt32.toNat_inj] at h h'
  simp only [Pos.mk.injEq, ← UInt32.toNat_inj]
  omega

theorem Pos.less_trans {p q r : Pos} (hpq : p.less q = true) (hqr : q.less r = true) :
    p.less r = true := by
  rw [Pos.less_iff] at *
  rcases hpq with hpq | ⟨hFile, hpq⟩
  · rcases hqr with hqr | ⟨hFile', -⟩
    · exact Or.inl (Nat.lt_trans hpq hqr)
    · exact Or.inl (hFile' ▸ hpq)
  · rcases hqr with hqr | ⟨hFile', hqr⟩
    · exact Or.inl (hFile ▸ hqr)
    · exact Or.inr ⟨hFile.trans hFile', Nat.lt_trans hpq hqr⟩

namespace Fixing

/-! ## Candidates without their numbers -/

/-- The candidate without its number. -/
def Candidate.unnumbered (c : Candidate) : Candidate := { c with order := 0 }

theorem foldl_applyOne_unnumbered (fs : FileSet) (w : Workspace) (cs : List Candidate) :
    (cs.map Candidate.unnumbered).foldl (applyOne fs) w = cs.foldl (applyOne fs) w := by
  rw [List.foldl_map]
  rfl

theorem applySelected_unnumbered (fs : FileSet) (cs : List Candidate) :
    applySelected fs (cs.map Candidate.unnumbered) = applySelected fs cs := by
  simp only [applySelected, foldl_applyOne_unnumbered]

theorem selectOnce_unnumbered (fallback : Option Candidate) (skipped : List Skipped)
    (cs : List Candidate) :
    selectOnce (fallback.map Candidate.unnumbered) skipped (cs.map Candidate.unnumbered) =
      ((selectOnce fallback skipped cs).1.map Candidate.unnumbered,
        (selectOnce fallback skipped cs).2) := by
  induction cs generalizing fallback skipped with
  | nil => cases fallback <;> rfl
  | cons c cs ih =>
      rw [List.map_cons, selectOnce, selectOnce]
      by_cases hAll : c.plan.requiresAll = true
      · rw [if_pos hAll, if_pos (show c.unnumbered.plan.requiresAll = true from hAll)]
        exact ih _ _
      · rw [if_neg hAll, if_neg (show ¬ c.unnumbered.plan.requiresAll = true from hAll)]
        by_cases hSafe : c.plan.applicability = .alwaysSafe
        · rw [if_pos hSafe, if_pos (show c.unnumbered.plan.applicability = .alwaysSafe from hSafe)]
          rfl
        · rw [if_neg hSafe,
            if_neg (show ¬ c.unnumbered.plan.applicability = .alwaysSafe from hSafe), ← ih]
          cases fallback <;> rfl

/-- What is selected and what is ruled out does not depend on numbers. -/
theorem select_unnumbered (cs : List Candidate) (r : Request) :
    select (cs.map Candidate.unnumbered) r =
      ((select cs r).1.map Candidate.unnumbered, (select cs r).2) := by
  unfold select
  cases r.mode with
  | once => exact selectOnce_unnumbered none [] cs
  | nothing => rfl
  | all =>
      simp only [List.filter_map, List.map_map]
      rfl
  | byId =>
      have hFind : (cs.map Candidate.unnumbered).find? (fun c => c.plan.id = r.id) =
          (cs.find? fun c => c.plan.id = r.id).map Candidate.unnumbered := List.find?_map
      dsimp only
      rw [hFind]
      cases cs.find? (fun c => c.plan.id = r.id) with
      | none => rfl
      | some c =>
          by_cases hAll : c.plan.requiresAll = true
          · simp [Candidate.unnumbered, hAll]
          · simp [Candidate.unnumbered, hAll]

/-! ## Sorting by place -/

namespace Candidate

/-- The first candidate stands at no later place than the second one. -/
def NotAfter (a b : Candidate) : Prop := b.diagnostic.primary.less a.diagnostic.primary = false

/-- The candidates stand at the same place. -/
def SamePlace (a b : Candidate) : Prop := a.diagnostic.primary = b.diagnostic.primary

instance : DecidableRel SamePlace :=
  fun a b => inferInstanceAs (Decidable (a.diagnostic.primary = b.diagnostic.primary))

variable {a b : Candidate}

theorem notAfter_refl (a : Candidate) : NotAfter a a := by simp [NotAfter, Pos.less]

theorem samePlace_refl (a : Candidate) : SamePlace a a := rfl

theorem NotAfter.antisymm (hab : NotAfter a b) (hba : NotAfter b a) : SamePlace a b :=
  Pos.eq_of_not_less hba hab

theorem not_before_iff : (!b.before a) = true ↔
    a.diagnostic.primary.less b.diagnostic.primary = true ∨ a.SamePlace b ∧ a.order ≤ b.order := by
  unfold Candidate.before SamePlace
  by_cases hPlace : b.diagnostic.primary = a.diagnostic.primary
  · have hNot : ¬ a.diagnostic.primary.less b.diagnostic.primary = true :=
      fun h => Pos.ne_of_less h hPlace.symm
    simp [hPlace, hPlace ▸ hNot]
  · have hPlace' : ¬ a.diagnostic.primary = b.diagnostic.primary := fun h => hPlace h.symm
    rw [if_pos hPlace]
    simp only [hPlace', false_and, or_false, Bool.not_eq_true']
    refine ⟨fun h => ?_, Pos.less_asymm⟩
    by_contra hNot
    exact hPlace' (Pos.eq_of_not_less (by simpa using hNot) h)

theorem not_before_trans (a b c : Candidate) (hab : (!b.before a) = true)
    (hbc : (!c.before b) = true) : (!c.before a) = true := by
  rw [not_before_iff] at *
  unfold SamePlace at *
  rcases hab with hab | ⟨hPlace, hOrder⟩
  · rcases hbc with hbc | ⟨hPlace', -⟩
    · exact Or.inl (Pos.less_trans hab hbc)
    · exact Or.inl (hPlace' ▸ hab)
  · rcases hbc with hbc | ⟨hPlace', hOrder'⟩
    · exact Or.inl (hPlace ▸ hbc)
    · exact Or.inr ⟨hPlace.trans hPlace', Nat.le_trans hOrder hOrder'⟩

theorem not_before_total (a b : Candidate) : (!b.before a || !a.before b) = true := by
  rw [Bool.or_eq_true, not_before_iff, not_before_iff]
  by_cases hab : a.diagnostic.primary.less b.diagnostic.primary = true
  · exact Or.inl (Or.inl hab)
  by_cases hba : b.diagnostic.primary.less a.diagnostic.primary = true
  · exact Or.inr (Or.inl hba)
  have hPlace := Pos.eq_of_not_less (by simpa using hab) (by simpa using hba)
  rcases Nat.le_total a.order b.order with h | h
  · exact Or.inl (Or.inr ⟨hPlace, h⟩)
  · exact Or.inr (Or.inr ⟨hPlace.symm, h⟩)

end Candidate

theorem order_sorted (cs : List Candidate) :
    (order cs).Pairwise fun a b => (!b.before a) = true :=
  List.pairwise_mergeSort Candidate.not_before_trans Candidate.not_before_total cs

theorem order_pairwise (cs : List Candidate) : (order cs).Pairwise Candidate.NotAfter := by
  refine (order_sorted cs).imp fun h => ?_
  rcases Candidate.not_before_iff.mp h with hLess | ⟨hPlace, -⟩
  · exact Pos.less_asymm hLess
  · rw [Candidate.NotAfter, hPlace]
    exact Candidate.notAfter_refl _

/-- Candidates at one place come in the order of their numbers. -/
theorem filter_order {cs : List Candidate} (h : cs.Pairwise fun a b => a.order < b.order)
    (a : Candidate) : (order cs).filter (a.SamePlace ·) = cs.filter (a.SamePlace ·) := by
  have hTied : (cs.filter (a.SamePlace ·)).Pairwise fun b c => (!c.before b) = true := by
    refine (h.filter _).imp_of_mem fun hb hc hOrder => ?_
    have hb' : a.SamePlace _ := of_decide_eq_true (List.mem_filter.mp hb).2
    have hc' : a.SamePlace _ := of_decide_eq_true (List.mem_filter.mp hc).2
    exact Candidate.not_before_iff.mpr (Or.inr ⟨hb'.symm.trans hc', Nat.le_of_lt hOrder⟩)
  exact Sorting.filter_mergeSort Candidate.not_before_trans
    Candidate.not_before_total hTied

theorem filter_unnumbered (cs : List Candidate) (a : Candidate) :
    (cs.map Candidate.unnumbered).filter (a.SamePlace ·) =
      (cs.filter (a.SamePlace ·)).map Candidate.unnumbered := by
  rw [List.filter_map]
  rfl

/-- If the same candidates were gathered at each place, they come into the same order. -/
theorem order_congr {cs cs' : List Candidate} (h : cs.Pairwise fun a b => a.order < b.order)
    (h' : cs'.Pairwise fun a b => a.order < b.order)
    (hSame : ∀ a : Candidate, (cs.map Candidate.unnumbered).filter (a.SamePlace ·) =
      (cs'.map Candidate.unnumbered).filter (a.SamePlace ·)) :
    (order cs).map Candidate.unnumbered = (order cs').map Candidate.unnumbered := by
  refine Sorting.eq_of_ties Candidate.notAfter_refl Candidate.samePlace_refl
    (fun _ _ => Candidate.NotAfter.antisymm) (List.pairwise_map.mpr (order_pairwise cs))
    (List.pairwise_map.mpr (order_pairwise cs')) fun a => ?_
  rw [filter_unnumbered, filter_unnumbered, filter_order h, filter_order h', ← filter_unnumbered,
    ← filter_unnumbered, hSame]

/-! ## Gathering diagnostic by diagnostic -/

/-- The candidates without their numbers. -/
def Gathered.unnumbered (g : Gathered) : List Candidate :=
  g.candidates.toList.map Candidate.unnumbered

theorem Gathered.names_eq (g : Gathered) : g.names = g.unnumbered.map (·.plan.id) := by
  rw [Gathered.unnumbered, List.map_map]
  rfl

/-- In `g` stands what is in `before`, and behind it what was gathered in `new` from nothing. -/
structure Extends (before new g : Gathered) : Prop where
  candidates : g.unnumbered = before.unnumbered ++ new.unnumbered
  skipped : g.skipped = before.skipped ++ new.skipped

theorem extends_empty (g : Gathered) : Extends g {} g where
  candidates := (List.append_nil _).symm
  skipped := (List.append_nil _).symm

namespace Extends

variable {before new g : Gathered}

theorem names (h : Extends before new g) : g.names = before.names ++ new.names := by
  rw [Gathered.names_eq, h.candidates, List.map_append, Gathered.names_eq, Gathered.names_eq]

theorem skip (h : Extends before new g) (ss : List Skipped) :
    Extends before { new with skipped := new.skipped ++ ss }
      { g with skipped := g.skipped ++ ss } where
  candidates := h.candidates
  skipped := by
    show g.skipped ++ ss = before.skipped ++ (new.skipped ++ ss)
    rw [h.skipped, List.append_assoc]

/-- A fix whose name is new goes the way that it goes alone. -/
theorem plan (h : Extends before new g) {fs : FileSet} (d : Diagnostic) {f : Fix} {p : FixPlan}
    (hResolve : f.resolve (some fs) = .ok p) (i : Nat)
    (hNew : ∀ q, (Offer.fix d f i).plan? fs = some q → q.id ∉ before.names) :
    Extends before (gatherPlan fs d new (p, i)) (gatherPlan fs d g (p, i)) := by
  cases hPlan : (Offer.fix d f i).plan? fs with
  | none =>
      rw [(gatherPlan_of_none hResolve hPlan new).2, (gatherPlan_of_none hResolve hPlan g).2]
      exact h.skip _
  | some q =>
      have hSeen : q.id ∈ g.names ↔ q.id ∈ new.names := by
        rw [h.names, List.mem_append, or_iff_right (hNew q hPlan)]
      rw [gatherPlan_of_some hResolve hPlan, gatherPlan_of_some hResolve hPlan]
      by_cases hName : q.id ∈ new.names
      · rw [if_pos hName, if_pos (hSeen.mpr hName)]
        exact h.skip _
      · rw [if_neg hName, if_neg (mt hSeen.mp hName)]
        refine ⟨?_, h.skipped⟩
        have hOld := h.candidates
        simp only [Gathered.unnumbered] at hOld ⊢
        simp only [Array.toList_push, List.map_append, hOld, List.append_assoc]
        rfl

theorem plans (h : Extends before new g) {fs : FileSet} (d : Diagnostic) {fixes : List Fix}
    {ps : List FixPlan}
    (hResolve : List.Forall₂ (fun f p => f.resolve (some fs) = .ok p) fixes ps) (i : Nat)
    (hNew : ∀ n ∈ namesOf fs ((fixes.zipIdx i).map fun p => .fix d p.1 p.2), n ∉ before.names) :
    Extends before ((ps.zipIdx i).foldl (gatherPlan fs d) new)
      ((ps.zipIdx i).foldl (gatherPlan fs d) g) := by
  induction hResolve generalizing new g i with
  | nil => exact h
  | @cons f p fixes ps hFirst _ ih =>
      rw [List.zipIdx_cons, List.map_cons, ← List.singleton_append, namesOf_append] at hNew
      refine ih (h.plan d hFirst i fun q hq => ?_) (i + 1) fun n hn => ?_
      · exact hNew q.id (List.mem_append_left _ (mem_namesOf_singleton.mpr ⟨q, hq, rfl⟩))
      · exact hNew n (List.mem_append_right _ hn)

theorem diagnostic {fs : FileSet} {d : Diagnostic} (g : Gathered)
    (hNew : ∀ n ∈ namesOf fs (offersOf fs d), n ∉ g.names) :
    Extends g (gather fs [d]) (gatherDiagnostic fs g d) := by
  show Extends g (gatherDiagnostic fs {} d) (gatherDiagnostic fs g d)
  unfold gatherDiagnostic
  split
  · exact extends_empty g
  split
  · exact (extends_empty g).skip _
  · rename_i ps hResolve
    rw [offersOf, if_pos (Fix.all_resolve_iff.mpr ⟨ps, hResolve⟩)] at hNew
    exact (extends_empty g).plans d (Fix.resolveAll_ok_iff.mp hResolve) 0 hNew

end Extends

/-- Without repeated names, each diagnostic adds what it would give alone. -/
theorem gather_apart {fs : FileSet} {ds : List Diagnostic}
    (h : (namesOf fs (ds.flatMap (offersOf fs))).Nodup) :
    (gather fs ds).unnumbered = ds.flatMap (fun d => (gather fs [d]).unnumbered) ∧
      (gather fs ds).skipped = ds.flatMap fun d => (gather fs [d]).skipped := by
  induction ds using List.reverseRecOn with
  | nil => exact ⟨rfl, rfl⟩
  | append_singleton ds d ih =>
      rw [List.flatMap_append, namesOf_append, List.nodup_append, List.flatMap_singleton] at h
      obtain ⟨hOld, -, hApart⟩ := h
      obtain ⟨hCandidates, hSkipped⟩ := ih hOld
      have hStep : Extends (gather fs ds) (gather fs [d]) (gather fs (ds ++ [d])) := by
        rw [gather_concat]
        refine Extends.diagnostic _ fun n hn hSeen => ?_
        exact hApart n (((books_gather fs ds).names n).mpr hSeen) n hn rfl
      rw [hStep.candidates, hStep.skipped, hCandidates, hSkipped]
      simp

/-! ## Places -/

theorem diagnostic_of_mem_gather {fs : FileSet} {d : Diagnostic} {c : Candidate}
    (hc : c ∈ (gather fs [d]).unnumbered) : c.diagnostic = d ∧ d.fixable = true := by
  obtain ⟨b, hb, rfl⟩ := List.mem_map.mp hc
  obtain ⟨hMem, f, hf, -⟩ := fix_of_mem_gather (Array.mem_toList_iff.mp hb)
  have hSame : b.diagnostic = d := List.mem_singleton.mp hMem
  have hSome := List.ne_nil_of_mem hf
  rw [hSame] at hSome
  exact ⟨hSame, by simpa [Diagnostic.fixable] using hSome⟩

theorem pairwise_order_gather (fs : FileSet) (ds : List Diagnostic) :
    (gather fs ds).candidates.toList.Pairwise fun a b => a.order < b.order := by
  rw [← List.pairwise_map, (books_gather fs ds).numbers]
  exact List.pairwise_lt_range

/-- The candidates at one place are those of the diagnostics there. -/
theorem filter_gather {fs : FileSet} {ds : List Diagnostic}
    (h : (namesOf fs (ds.flatMap (offersOf fs))).Nodup) (a : Candidate) :
    (gather fs ds).unnumbered.filter (a.SamePlace ·) =
      ((ds.filter (·.fixable)).filter fun d => a.diagnostic.primary = d.primary).flatMap
        fun d => (gather fs [d]).unnumbered := by
  rw [(gather_apart h).1, List.filter_flatMap, List.filter_filter, flatMap_filter]
  refine List.flatMap_congr fun d _ => ?_
  split
  case isTrue hHere =>
    simp only [Bool.and_eq_true, decide_eq_true_eq] at hHere
    refine List.filter_eq_self.mpr fun c hc => decide_eq_true ?_
    rw [Candidate.SamePlace, (diagnostic_of_mem_gather hc).1, hHere.1]
  case isFalse hElsewhere =>
    refine List.filter_eq_nil_iff.mpr fun c hc hPlace => hElsewhere ?_
    obtain ⟨hDiagnostic, hFixable⟩ := diagnostic_of_mem_gather hc
    have hSame : a.diagnostic.primary = c.diagnostic.primary := of_decide_eq_true hPlace
    rw [hDiagnostic] at hSame
    rw [hFixable, hSame]
    simp

theorem nodup_names_perm {fs : FileSet} {ds ds' : List Diagnostic} (hPerm : ds.Perm ds')
    (hNames : (namesOf fs (ds.flatMap (offersOf fs))).Nodup) :
    (namesOf fs (ds'.flatMap (offersOf fs))).Nodup :=
  ((((hPerm.flatMap_right _).filterMap _).map _).nodup_iff).mp hNames

section Arrival

variable {fs : FileSet} {ds ds' : List Diagnostic} (hPerm : ds.Perm ds')
  (hPlaces : ((ds.filter (·.fixable)).map (·.primary)).Nodup)
include hPerm hPlaces

/-- Of fixable diagnostics at different places, there is one at most at a given place. -/
theorem filter_place_eq (p : Pos) :
    (ds.filter (·.fixable)).filter (fun d => p = d.primary) =
      (ds'.filter (·.fixable)).filter fun d => p = d.primary := by
  have hHere : ((ds.filter (·.fixable)).filter fun d => p = d.primary).Perm
      ((ds'.filter (·.fixable)).filter fun d => p = d.primary) := (hPerm.filter _).filter _
  have hAlone : ((ds.filter (·.fixable)).filter fun d => p = d.primary).Pairwise
      fun _ _ => False := by
    refine ((List.pairwise_map.mp hPlaces).filter _).imp_of_mem fun ha hb hNe => hNe ?_
    have ha' := of_decide_eq_true (List.mem_filter.mp ha).2
    have hb' := of_decide_eq_true (List.mem_filter.mp hb).2
    exact ha'.symm.trans hb'
  refine hHere.eq_of_pairwise (fun _ _ _ _ h => h.elim) hAlone ?_
  exact (hHere.pairwise_iff fun h => h).mp hAlone

variable (hNames : (namesOf fs (ds.flatMap (offersOf fs))).Nodup)
include hNames

/-- The candidates come into the same order, but for their numbers. -/
theorem order_apart : (order (gather fs ds).candidates.toList).map Candidate.unnumbered =
    (order (gather fs ds').candidates.toList).map Candidate.unnumbered := by
  refine order_congr (pairwise_order_gather fs ds) (pairwise_order_gather fs ds') fun a => ?_
  have hHere := filter_gather hNames a
  have hThere := filter_gather (nodup_names_perm hPerm hNames) a
  rw [filter_place_eq hPerm hPlaces] at hHere
  exact hHere.trans hThere.symm

/-- The same candidates are selected, but for their numbers, and the same ones are ruled out. -/
theorem select_apart (r : Request) :
    (select (order (gather fs ds).candidates.toList) r).1.map Candidate.unnumbered =
        (select (order (gather fs ds').candidates.toList) r).1.map Candidate.unnumbered ∧
      (select (order (gather fs ds).candidates.toList) r).2 =
        (select (order (gather fs ds').candidates.toList) r).2 := by
  have hSelect := select_unnumbered (order (gather fs ds).candidates.toList) r
  rw [order_apart hPerm hPlaces hNames, select_unnumbered, Prod.mk.injEq] at hSelect
  exact ⟨hSelect.1.symm, hSelect.2.symm⟩

theorem candidates_isEmpty_apart :
    (gather fs ds).candidates.isEmpty = (gather fs ds').candidates.isEmpty := by
  have hLength := congrArg List.length (order_apart hPerm hPlaces hNames)
  simp only [List.length_map, order, List.length_mergeSort, Array.length_toList] at hLength
  rw [Array.isEmpty, Array.isEmpty, hLength]

end Arrival

/-- If fixable diagnostics are at different places and no name is given to two fixes, the order in
which diagnostics arrive does not matter, whatever is asked for: the files, the records of applied
fixes, the changes and the problem are the same, and only the list of skipped fixes may have another
order. -/
theorem apply_perm {fs : FileSet} {ds ds' : List Diagnostic} (hPerm : ds.Perm ds')
    (hPlaces : ((ds.filter (·.fixable)).map (·.primary)).Nodup)
    (hNames : (namesOf fs (ds.flatMap (offersOf fs))).Nodup) (r : Request) :
    (apply fs ds r).1 = (apply fs ds' r).1 ∧
      (apply fs ds r).2.1.applied = (apply fs ds' r).2.1.applied ∧
      (apply fs ds r).2.1.changes = (apply fs ds' r).2.1.changes ∧
      (apply fs ds r).2.1.skipped.Perm (apply fs ds' r).2.1.skipped ∧
      (apply fs ds r).2.2 = (apply fs ds' r).2.2 := by
  obtain ⟨hSelected, hRuledOut⟩ := select_apart hPerm hPlaces hNames r
  have hRun := congrArg (applySelected fs) hSelected
  rw [applySelected_unnumbered, applySelected_unnumbered] at hRun
  have hGathered : (gather fs ds).skipped.Perm (gather fs ds').skipped := by
    rw [(gather_apart hNames).2, (gather_apart (nodup_names_perm hPerm hNames)).2]
    exact hPerm.flatMap_right _
  unfold apply
  simp only [hRun, hRuledOut, candidates_isEmpty_apart hPerm hPlaces hNames, true_and, and_true]
  exact (hGathered.append_right _).append_right _

/-- Two diagnostics that want the same token, and one with an edit of a file that does not exist: of
the first two the one at the earlier place wins, also if it arrives last. -/
theorem apply_perm_offering :
    let first := offering ⟨0, 0⟩ "first" [⟨⟨0, 1⟩, "one", []⟩]
    let second := offering ⟨0, 1⟩ "second" [⟨⟨0, 1⟩, "two", []⟩]
    let third := offering ⟨1, 0⟩ "third" [⟨⟨7, 0⟩, "three", []⟩]
    (apply twoFiles [third, second, first] { mode := .all }).2.1.applied.map (·.id) = ["first"] ∧
      (apply twoFiles [third, second, first] { mode := .all }).2.1.applied =
        (apply twoFiles [first, second, third] { mode := .all }).2.1.applied ∧
      (apply twoFiles [third, second, first] { mode := .all }).2.1.skipped.Perm
        (apply twoFiles [first, second, third] { mode := .all }).2.1.skipped := by
  intro first second third
  have hPerm : [third, second, first].Perm [first, second, third] :=
    List.reverse_perm [first, second, third]
  have hPlaces : (([third, second, first].filter (·.fixable)).map (·.primary)).Nodup := by decide
  have hNames : (namesOf twoFiles
      ([third, second, first].flatMap (offersOf twoFiles))).Nodup := by decide
  obtain ⟨-, hSame, -, hSkipped, -⟩ := apply_perm hPerm hPlaces hNames { mode := .all }
  have hApplied : (apply twoFiles [first, second, third] { mode := .all }).2.1.applied.map (·.id) =
      ["first"] := by
    rw [(apply_eq _ _ _).2.1, appliedOf_of_pairwise (by decide +kernel)]
    decide +kernel
  exact ⟨hSame ▸ hApplied, hSame, hSkipped⟩

end Fixing

end TokenLint
