import TokenLint.Proofs.Fix.Guards

/-!
# Which candidates are applied

Candidates come up one after the other, and each is applied if it can be. While they do, the streams
in the workspace are no longer the original ones. Still, for fixes that edit no token twice the
choice can be read off the original files: a candidate is applied if and only if its edits suit these
files and stay away from the candidates applied before it.

* `Choice`: the marks of the candidates that are applied, step by step.
* `Choice.getElem?_marks_iff`: what a mark says about the candidates before.
* `Holds.exists_choice`: a run makes such a choice, and keeps the order of candidates.
* `applySelected_greedy`: the choice, the records of applied fixes and the remarks on skipped ones.
-/

namespace TokenLint.Fixing

/-- The candidates with a mark. -/
def marked (cs : List Candidate) (marks : List Bool) : List Candidate :=
  ((cs.zip marks).filter fun p => p.2).map (·.1)

/-- The candidates without one. -/
def unmarked (cs : List Candidate) (marks : List Bool) : List Candidate :=
  ((cs.zip marks).filter fun p => !p.2).map (·.1)

/-- A remark that a candidate is skipped, with some reason. -/
def SaysSkipped (c : Candidate) (s : Skipped) : Prop :=
  ∃ r : Reason, s = ⟨c.plan.id, c.plan.title, r.message⟩

/-- The marks of candidates that come up after the edits `made`: one that may be applied gets a
mark, and its edits are made. -/
inductive Choice (fs : FileSet) : List TokenEdit → List Candidate → List Bool → Prop
  | nil (made : List TokenEdit) : Choice fs made [] []
  | take {made : List TokenEdit} {c : Candidate} {cs : List Candidate} {marks : List Bool}
      (h : Accepts fs made c) (rest : Choice fs (made ++ c.plan.edits) cs marks) :
      Choice fs made (c :: cs) (true :: marks)
  | skip {made : List TokenEdit} {c : Candidate} {cs : List Candidate} {marks : List Bool}
      (h : ¬ Accepts fs made c) (rest : Choice fs made cs marks) :
      Choice fs made (c :: cs) (false :: marks)

namespace Choice

variable {fs : FileSet} {made : List TokenEdit} {cs : List Candidate} {marks : List Bool}

theorem length_eq (h : Choice fs made cs marks) : marks.length = cs.length := by
  induction h with
  | nil => rfl
  | take _ _ ih => rw [List.length_cons, List.length_cons, ih]
  | skip _ _ ih => rw [List.length_cons, List.length_cons, ih]

/-- A candidate has a mark if it fits the files as they were and stays away from the edits made and
from those of the marked candidates before it. -/
theorem getElem?_marks_iff (h : Choice fs made cs marks) {k : Nat} {c : Candidate}
    (hc : cs[k]? = some c) :
    marks[k]? = some true ↔ Accepts fs made c ∧ ∀ i < k, ∀ d, cs[i]? = some d →
      marks[i]? = some true → Apart d.plan.edits c.plan.edits := by
  induction h generalizing k with
  | nil => simp at hc
  | take hHead _ ih =>
      cases k with
      | zero =>
          cases hc
          simp [hHead]
      | succ k =>
          rw [List.getElem?_cons_succ] at hc ⊢
          rw [ih hc, Nat.forall_lt_succ_left]
          simp only [Accepts, apart_append_left, List.getElem?_cons_succ, List.getElem?_cons_zero,
            Option.some.injEq, forall_eq', true_implies, and_assoc]
  | skip hHead _ ih =>
      cases k with
      | zero =>
          cases hc
          simp [hHead]
      | succ k =>
          rw [List.getElem?_cons_succ] at hc ⊢
          rw [ih hc, Nat.forall_lt_succ_left]
          simp

end Choice

/-- A run makes a choice. The marked candidates are applied, and for each of the others there is a
remark, both in the order in which the candidates come up. -/
theorem Holds.exists_choice {fs : FileSet} {made : List TokenEdit} {w : Workspace}
    (h : Holds fs made w) (cs : List Candidate) :
    ∃ marks, Choice fs made cs marks ∧ appliedFrom fs w cs = marked cs marks ∧
      ∃ ss, (cs.foldl (applyOne fs) w).skipped = w.skipped ++ ss ∧
        List.Forall₂ SaysSkipped (unmarked cs marks) ss := by
  induction cs generalizing made w with
  | nil => exact ⟨[], .nil made, rfl, [], (List.append_nil _).symm, .nil⟩
  | cons c cs ih =>
      rw [List.foldl_cons]
      by_cases hc : Accepts fs made c
      · obtain ⟨hNext, -, hSkipped⟩ := h.applyOne_of_accepts hc
        obtain ⟨marks, hChoice, hApplied, ss, hRest, hRemarks⟩ := ih hNext
        refine ⟨true :: marks, .take hc hChoice, ?_, ss, by rw [hRest, hSkipped], hRemarks⟩
        rw [h.appliedFrom_cons_of_accepts hc, hApplied]
        rfl
      · obtain ⟨r, hr⟩ := h.applyOne_of_not_accepts hc
        rw [h.appliedFrom_cons_of_not_accepts hc, hr]
        obtain ⟨marks, hChoice, hApplied, ss, hRest, hRemarks⟩ := ih (h.skip _)
        refine ⟨false :: marks, .skip hc hChoice, hApplied, _ :: ss, ?_, .cons ⟨r, rfl⟩ hRemarks⟩
        rw [hRest, List.append_assoc, List.singleton_append]

/-- Of candidates none of which edits a token twice, the `k`-th is applied if and only if each of
its edits suits the files as they were and edits no token of a candidate that is applied before.
Each of the others is skipped with one remark. The records of the applied candidates and the remarks
on the skipped ones are in the order of the candidates, and the files have the edits of the applied
ones. -/
theorem applySelected_greedy (fs : FileSet) (cs : List Candidate)
    (hOnce : ∀ c ∈ cs, (c.plan.edits.map (·.pos)).Nodup) :
    ∃ marks : List Bool, marks.length = cs.length ∧
      (∀ (k : Nat) (c : Candidate), cs[k]? = some c → (marks[k]? = some true ↔
        ∀ e ∈ c.plan.edits, Suits fs e ∧ ∀ i < k, ∀ d, cs[i]? = some d → marks[i]? = some true →
          ∀ e' ∈ d.plan.edits, e'.pos ≠ e.pos)) ∧
      (applySelected fs cs).2.1 = (marked cs marks).map (recordOf fs) ∧
      List.Forall₂ SaysSkipped (unmarked cs marks) (applySelected fs cs).2.2.1 ∧
      (applySelected fs cs).1 = filesAfter (editsOf (marked cs marks)) fs := by
  obtain ⟨marks, hChoice, hChosen, ss, hSkipped, hRemarks⟩ := (holds_empty fs).exists_choice cs
  obtain ⟨hFiles, hApplied, -⟩ := applySelected_eq fs cs
  rw [hChosen] at hFiles hApplied
  have hRemarked : (applySelected fs cs).2.2.1 = ss := hSkipped
  refine ⟨marks, hChoice.length_eq, fun k c hc => ?_, hApplied, hRemarked ▸ hRemarks, hFiles⟩
  rw [hChoice.getElem?_marks_iff hc, Accepts,
    fits_iff_of_nodup (hOnce c (List.mem_of_getElem? hc))]
  constructor
  · rintro ⟨⟨hSuits, -⟩, hApart⟩ e he
    exact ⟨hSuits e he, fun i hi d hd hMark e' he' => hApart i hi d hd hMark e' he' e he⟩
  · intro hAll
    refine ⟨⟨fun e he => (hAll e he).1, fun m hm => absurd hm List.not_mem_nil⟩, ?_⟩
    exact fun i hi d hd hMark e' he' e he => (hAll e he).2 i hi d hd hMark e' he'

/-- Three fixes of two files. The second one wants a token of the first and is skipped, so that the
third one has the other token of the second for itself. -/
theorem applySelected_greedy_twoFiles :
    let first := bareCandidate [⟨⟨0, 0⟩, "one", "x"⟩]
    let second := bareCandidate [⟨⟨1, 0⟩, "two", "z"⟩, ⟨⟨0, 0⟩, "three", []⟩]
    let third := bareCandidate [⟨⟨1, 0⟩, "four", "z"⟩]
    (∀ c ∈ [first, second, third], (c.plan.edits.map (·.pos)).Nodup) ∧
      (applySelected twoFiles [first, second, third]).2.1 =
        [first, third].map (recordOf twoFiles) ∧
      List.Forall₂ SaysSkipped [second] (applySelected twoFiles [first, second, third]).2.2.1 ∧
      (applySelected twoFiles [first, second, third]).1 =
        filesAfter (editsOf [first, third]) twoFiles := by
  intro first second third
  have hOnce : ∀ c ∈ [first, second, third], (c.plan.edits.map (·.pos)).Nodup := by decide
  obtain ⟨marks, hLength, hMarks, hApplied, hSkipped, hFiles⟩ :=
    applySelected_greedy twoFiles [first, second, third] hOnce
  obtain ⟨a, b, c, rfl⟩ := List.length_eq_three.mp hLength
  have hFirst : a = true := by
    refine Option.some.inj ((hMarks 0 first rfl).mpr fun e he => ?_)
    obtain rfl := List.mem_singleton.mp he
    exact ⟨⟨_, _, rfl, rfl, Or.inr rfl⟩, fun i hi => absurd hi (Nat.not_lt_zero i)⟩
  have hSecond : b = false := by
    by_contra hTaken
    have hAll := (hMarks 1 second rfl).mp (congrArg some (by simpa using hTaken))
    have hApart := (hAll ⟨⟨0, 0⟩, "three", []⟩ (by decide)).2 0 (by decide) first rfl
      (congrArg some hFirst)
    exact hApart _ (List.mem_singleton_self _) rfl
  have hThird : c = true := by
    refine Option.some.inj ((hMarks 2 third rfl).mpr fun e he => ?_)
    obtain rfl := List.mem_singleton.mp he
    refine ⟨⟨_, _, rfl, rfl, Or.inr rfl⟩, fun i hi d hd hMark e' he' => ?_⟩
    match i, hi with
    | 0, _ =>
        cases hd
        obtain rfl := List.mem_singleton.mp he'
        decide
    | 1, _ => exact absurd (hSecond.symm.trans (Option.some.inj hMark)) Bool.false_ne_true
  subst hFirst hSecond hThird
  exact ⟨hOnce, hApplied, hSkipped, hFiles⟩

end TokenLint.Fixing
