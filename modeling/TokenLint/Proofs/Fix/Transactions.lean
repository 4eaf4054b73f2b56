import TokenLint.Proofs.Fix.Fits

/-!
# Applied fixes are transactions that commute

A fix is applied completely or leaves nothing behind, however late it fails. The fixes that are
applied own disjoint sets of tokens, and each of them fits the files as they were in the
beginning. So the order in which they are applied does not matter, and neither do the fixes
that were skipped between them.

* `Holds.appliedFrom_eq`: a run applies what may be applied after what it has made.
* `Compatible.applied_eq`: candidates that fit and stay away from each other are all applied.
* `compatible_appliedFrom`: the candidates that a run applies are of this sort.
* `filesAfter_perm`: the order of such candidates does not change the files.
* `applied_candidates_commute`: any order of the applied candidates, without the skipped ones,
  has the same effect as the run.
-/

namespace TokenLint.Fixing

/-- The candidates that a run from a workspace reports as applied. -/
def appliedFrom (fs : FileSet) (w : Workspace) : List Candidate → List Candidate
  | [] => []
  | c :: rest =>
    if (applyOne fs w c).applied.length = w.applied.length then
      appliedFrom fs (applyOne fs w c) rest
    else c :: appliedFrom fs (applyOne fs w c) rest

/-- The edits of candidates, in order. -/
def editsOf (cs : List Candidate) : List TokenEdit := cs.flatMap (·.plan.edits)

@[simp] theorem editsOf_nil : editsOf [] = [] := rfl

@[simp] theorem editsOf_cons (c : Candidate) (cs : List Candidate) :
    editsOf (c :: cs) = c.plan.edits ++ editsOf cs := rfl

theorem appliedFrom_sublist (fs : FileSet) (w : Workspace) (cs : List Candidate) :
    (appliedFrom fs w cs).Sublist cs := by
  induction cs generalizing w with
  | nil => exact List.Sublist.slnil
  | cons c cs ih =>
      rw [appliedFrom]
      split
      · exact (ih _).cons c
      · exact (ih _).cons_cons c

section Steps

variable {fs : FileSet} {made : List TokenEdit} {w : Workspace} {c : Candidate}

theorem Holds.appliedFrom_cons_of_accepts (h : Holds fs made w) (hc : Accepts fs made c)
    (cs : List Candidate) :
    appliedFrom fs w (c :: cs) = c :: appliedFrom fs (applyOne fs w c) cs := by
  rw [appliedFrom, (h.applyOne_of_accepts hc).2.1]
  simp

theorem Holds.appliedFrom_cons_of_not_accepts (h : Holds fs made w) (hc : ¬ Accepts fs made c)
    (cs : List Candidate) :
    appliedFrom fs w (c :: cs) = appliedFrom fs (applyOne fs w c) cs := by
  obtain ⟨r, hr⟩ := h.applyOne_of_not_accepts hc
  rw [appliedFrom, hr]
  simp

/-- What a run leaves: the edits of the applied candidates, and a record of each. -/
theorem Holds.run (h : Holds fs made w) (cs : List Candidate) :
    Holds fs (made ++ editsOf (appliedFrom fs w cs)) (cs.foldl (applyOne fs) w) ∧
      (cs.foldl (applyOne fs) w).applied =
        w.applied ++ (appliedFrom fs w cs).map (recordOf fs) := by
  induction cs generalizing made w with
  | nil => simpa [appliedFrom] using h
  | cons c cs ih =>
      rw [List.foldl_cons]
      by_cases hc : Accepts fs made c
      · obtain ⟨hNext, hApplied, -⟩ := h.applyOne_of_accepts hc
        obtain ⟨hRest, hRecords⟩ := ih hNext
        rw [h.appliedFrom_cons_of_accepts hc]
        refine ⟨by simpa using hRest, ?_⟩
        rw [hRecords, hApplied]
        simp
      · obtain ⟨r, hr⟩ := h.applyOne_of_not_accepts hc
        rw [h.appliedFrom_cons_of_not_accepts hc, hr]
        exact ih (h.skip _)

/-- The candidates that may be applied after the edits `made` and those of the ones before. -/
def accepted (fs : FileSet) (made : List TokenEdit) : List Candidate → List Candidate
  | [] => []
  | c :: cs =>
    if Accepts fs made c then c :: accepted fs (made ++ c.plan.edits) cs else accepted fs made cs

theorem Holds.appliedFrom_eq (h : Holds fs made w) (cs : List Candidate) :
    appliedFrom fs w cs = accepted fs made cs := by
  induction cs generalizing made w with
  | nil => rfl
  | cons c cs ih =>
      by_cases hc : Accepts fs made c
      · rw [h.appliedFrom_cons_of_accepts hc, accepted, if_pos hc, ih (h.applyOne_of_accepts hc).1]
      · obtain ⟨r, hr⟩ := h.applyOne_of_not_accepts hc
        rw [h.appliedFrom_cons_of_not_accepts hc, accepted, if_neg hc, hr, ih (h.skip _)]

end Steps

/-! ## Candidates that stay away from each other -/

theorem Apart.symm {es es' : List TokenEdit} (h : Apart es es') : Apart es' es :=
  fun e' he' e he hEq => h e he e' he' hEq.symm

theorem apart_append_left {es es' es'' : List TokenEdit} :
    Apart (es ++ es') es'' ↔ Apart es es'' ∧ Apart es' es'' := by
  simp only [Apart, List.mem_append]
  exact ⟨fun h => ⟨fun e he => h e (Or.inl he), fun e he => h e (Or.inr he)⟩,
    fun h e he => he.elim (h.1 e) (h.2 e)⟩

/-- Candidates each of which may be applied after the edits `made`, and no two of which have a
token in common. -/
structure Compatible (fs : FileSet) (made : List TokenEdit) (cs : List Candidate) : Prop where
  accepts : ∀ c ∈ cs, Accepts fs made c
  apart : cs.Pairwise fun c d => Apart c.plan.edits d.plan.edits

theorem Compatible.perm {fs : FileSet} {made : List TokenEdit} {cs cs' : List Candidate}
    (h : Compatible fs made cs) (hPerm : cs'.Perm cs) : Compatible fs made cs' where
  accepts c hc := h.accepts c (hPerm.mem_iff.mp hc)
  apart := (hPerm.pairwise_iff fun hApart => hApart.symm).mpr h.apart

/-- The candidates that a run applies are compatible. -/
theorem compatible_appliedFrom {fs : FileSet} {made : List TokenEdit} {w : Workspace}
    (h : Holds fs made w) (cs : List Candidate) : Compatible fs made (appliedFrom fs w cs) := by
  induction cs generalizing made w with
  | nil => exact ⟨by simp [appliedFrom], List.Pairwise.nil⟩
  | cons c cs ih =>
      by_cases hc : Accepts fs made c
      · obtain ⟨hAccepts, hApart⟩ := ih (h.applyOne_of_accepts hc).1
        rw [h.appliedFrom_cons_of_accepts hc]
        -- those after `c` stay away from what was made before and from `c` itself
        have hSplit : ∀ d ∈ appliedFrom fs (applyOne fs w c) cs,
            Apart made d.plan.edits ∧ Apart c.plan.edits d.plan.edits :=
          fun d hd => apart_append_left.mp (hAccepts d hd).2
        constructor
        · rw [List.forall_mem_cons]
          exact ⟨hc, fun d hd => ⟨(hAccepts d hd).1, (hSplit d hd).1⟩⟩
        · exact List.pairwise_cons.mpr ⟨fun d hd => (hSplit d hd).2, hApart⟩
      · obtain ⟨r, hr⟩ := h.applyOne_of_not_accepts hc
        rw [h.appliedFrom_cons_of_not_accepts hc, hr]
        exact ih (h.skip _)

/-- Compatible candidates are all applied, and none is skipped. -/
theorem Compatible.applied_eq {fs : FileSet} {made : List TokenEdit} {cs : List Candidate}
    (hc : Compatible fs made cs) {w : Workspace} (h : Holds fs made w) :
    appliedFrom fs w cs = cs ∧ (cs.foldl (applyOne fs) w).skipped = w.skipped := by
  induction cs generalizing made w with
  | nil => exact ⟨rfl, rfl⟩
  | cons c cs ih =>
      have hHead := hc.accepts c List.mem_cons_self
      obtain ⟨hFirst, hRest⟩ := List.pairwise_cons.mp hc.apart
      obtain ⟨hNext, -, hSkipped⟩ := h.applyOne_of_accepts hHead
      have hTail : Compatible fs (made ++ c.plan.edits) cs := by
        refine ⟨fun d hd => ?_, hRest⟩
        obtain ⟨hFits, hApart⟩ := hc.accepts d (List.mem_cons_of_mem _ hd)
        exact ⟨hFits, apart_append_left.mpr ⟨hApart, hFirst d hd⟩⟩
      obtain ⟨hApplied, hNone⟩ := ih hTail hNext
      rw [h.appliedFrom_cons_of_accepts hHead, hApplied, List.foldl_cons, hNone, hSkipped]
      exact ⟨rfl, rfl⟩

/-! ## The order of compatible candidates -/

/-- Edits that have no token in common can be exchanged. -/
theorem contentAfter_swap {es es' : List TokenEdit} (h : Apart es es') (file : UInt32) (j : Nat)
    (c : Text) : contentAfter (es ++ es') file j c = contentAfter (es' ++ es) file j c := by
  rw [contentAfter_append, contentAfter_append]
  -- a token is concerned by edits of one of the lists at most
  by_cases hFirst : ∀ e ∈ es, concerns file j e = false
  · rw [contentAfter_of_forall_not hFirst, contentAfter_of_forall_not hFirst]
  · simp only [not_forall, Bool.not_eq_false] at hFirst
    obtain ⟨e, he, hConcerns⟩ := hFirst
    have hSecond : ∀ e' ∈ es', concerns file j e' = false := by
      intro e' he'
      by_contra hBoth
      exact h e he e' he' (pos_eq_of_concerns hConcerns (by simpa using hBoth))
    rw [contentAfter_of_forall_not hSecond, contentAfter_of_forall_not hSecond]

theorem contentAfter_perm {cs cs' : List Candidate} (hPerm : cs.Perm cs')
    (hApart : cs.Pairwise fun c d => Apart c.plan.edits d.plan.edits) (file : UInt32) (j : Nat)
    (t : Text) :
    contentAfter (editsOf cs) file j t = contentAfter (editsOf cs') file j t := by
  induction hPerm generalizing t with
  | nil => rfl
  | cons c _ ih =>
      rw [editsOf_cons, editsOf_cons, contentAfter_append, contentAfter_append]
      exact ih (List.pairwise_cons.mp hApart).2 _
  | swap c d cs =>
      have hFirst : Apart d.plan.edits c.plan.edits :=
        (List.pairwise_cons.mp hApart).1 c List.mem_cons_self
      simp only [editsOf_cons, ← List.append_assoc]
      rw [contentAfter_append _ (editsOf cs), contentAfter_swap hFirst, ← contentAfter_append]
  | trans h _ ih ih' =>
      exact (ih hApart t).trans (ih' ((h.pairwise_iff fun hd => hd.symm).mp hApart) t)

theorem editsOf_perm {cs cs' : List Candidate} (h : cs.Perm cs') :
    (editsOf cs).Perm (editsOf cs') :=
  h.flatMap_right _

/-- The files do not depend on the order of candidates that stay away from each other. -/
theorem filesAfter_perm {cs cs' : List Candidate} (hPerm : cs.Perm cs')
    (hApart : cs.Pairwise fun c d => Apart c.plan.edits d.plan.edits) (fs : FileSet) :
    filesAfter (editsOf cs) fs = filesAfter (editsOf cs') fs := by
  have hAny : ∀ i : Nat, (editsOf cs).any (fun e => e.pos.file.toNat = i) =
      (editsOf cs').any (fun e => e.pos.file.toNat = i) :=
    fun i => (editsOf_perm hPerm).any_eq
  have hStream : ∀ file s, streamAfter (editsOf cs) file s = streamAfter (editsOf cs') file s :=
    fun file s => streamAfter_congr (fun j c => contentAfter_perm hPerm hApart file j c) s
  simp only [filesAfter, hAny, hStream]

theorem filesOf_perm {es es' : List TokenEdit} (h : es.Perm es') :
    (filesOf es).Perm (filesOf es') := by
  rw [List.perm_ext_iff_of_nodup (nodup_filesOf es) (nodup_filesOf es')]
  intro file
  simp only [mem_filesOf, h.mem_iff]

theorem changeIn_perm {es es' : List TokenEdit} (h : es.Perm es') (fs : FileSet) :
    changeIn fs es = changeIn fs es' := by
  funext file
  simp only [changeIn, h.countP_eq]

/-! ## Runs -/

/-- What a run over selected candidates gives, in terms of the candidates it applies. -/
theorem applySelected_eq (fs : FileSet) (cs : List Candidate) :
    (applySelected fs cs).1 = filesAfter (editsOf (appliedFrom fs {} cs)) fs ∧
      (applySelected fs cs).2.1 = (appliedFrom fs {} cs).map (recordOf fs) ∧
      (applySelected fs cs).2.2.2.Perm
        ((filesOf (editsOf (appliedFrom fs {} cs))).map
          (changeIn fs (editsOf (appliedFrom fs {} cs)))) := by
  obtain ⟨hHolds, hApplied⟩ := (holds_empty fs).run cs
  rw [List.nil_append] at hHolds hApplied
  exact ⟨hHolds.commit_eq, hApplied, hHolds.changesOf_perm⟩

/-- Candidates that are compatible from the beginning are all applied. -/
theorem Compatible.applySelected_eq {fs : FileSet} {cs : List Candidate}
    (h : Compatible fs [] cs) :
    ∃ changes, applySelected fs cs =
        (filesAfter (editsOf cs) fs, cs.map (recordOf fs), [], changes) ∧
      changes.Perm ((filesOf (editsOf cs)).map (changeIn fs (editsOf cs))) := by
  obtain ⟨hAll, hNone⟩ := h.applied_eq (holds_empty fs)
  obtain ⟨hFiles, hApplied, hChanges⟩ := Fixing.applySelected_eq fs cs
  rw [hAll] at hFiles hApplied hChanges
  have hSkipped : (applySelected fs cs).2.2.1 = [] := hNone
  refine ⟨(applySelected fs cs).2.2.2, ?_, hChanges⟩
  rw [← hFiles, ← hApplied, ← hSkipped]

/-- Let `cs` be the candidates that a run over `selected` reports as applied, in any order and
without the skipped ones. A run over `cs` applies all of them and skips none, leaves the same
files and lists the same changes. -/
theorem applied_candidates_commute (fs : FileSet) (selected : List Candidate) :
    (appliedFrom fs {} selected).Sublist selected ∧
      (applySelected fs selected).2.1 = (appliedFrom fs {} selected).map (recordOf fs) ∧
      ∀ cs : List Candidate, cs.Perm (appliedFrom fs {} selected) →
        ∃ changes, applySelected fs cs =
            ((applySelected fs selected).1, cs.map (recordOf fs), [], changes) ∧
          changes.Perm (applySelected fs selected).2.2.2 := by
  obtain ⟨hFiles, hApplied, hChanges⟩ := applySelected_eq fs selected
  refine ⟨appliedFrom_sublist fs {} selected, hApplied, fun cs hPerm => ?_⟩
  have hCompatible : Compatible fs [] cs :=
    (compatible_appliedFrom (holds_empty fs) selected).perm hPerm
  obtain ⟨changes, hRun, hSame⟩ := hCompatible.applySelected_eq
  have hEdits := editsOf_perm hPerm
  refine ⟨changes, ?_, ?_⟩
  · rw [hRun, hFiles, filesAfter_perm hPerm hCompatible.apart]
  · refine hSame.trans (List.Perm.trans ?_ hChanges.symm)
    rw [changeIn_perm hEdits]
    exact (filesOf_perm hEdits).map _

/-- Two files, the first of two tokens and the second of one. -/
def twoFiles : FileSet :=
  { files := #[{ path := "a", tokens := [{ content := "x" }, { content := "y" }] },
      { path := "b", tokens := [{ content := "z" }] }] }

/-- A candidate with nothing but edits. -/
def bareCandidate (edits : List TokenEdit) : Candidate := ⟨{}, { edits := edits }, 0⟩

/-- Three fixes of which the second fails in its second file, when its edit of the first file
has been staged. The other two can be exchanged, with the second left out. -/
theorem applied_candidates_commute_two_files :
    let first := bareCandidate [⟨⟨0, 0⟩, "new", "x"⟩]
    let failing := bareCandidate [⟨⟨0, 1⟩, "new", []⟩, ⟨⟨1, 3⟩, "new", []⟩]
    let last := bareCandidate [⟨⟨1, 0⟩, "new", "z"⟩]
    appliedFrom twoFiles {} [first, failing, last] = [first, last] ∧
      ∃ changes, applySelected twoFiles [last, first] =
          ((applySelected twoFiles [first, failing, last]).1,
            [recordOf twoFiles last, recordOf twoFiles first], [], changes) ∧
        changes.Perm (applySelected twoFiles [first, failing, last]).2.2.2 := by
  intro first failing last
  have hApplied : appliedFrom twoFiles {} [first, failing, last] = [first, last] := by
    rw [(holds_empty twoFiles).appliedFrom_eq]
    rfl
  refine ⟨hApplied, (applied_candidates_commute twoFiles [first, failing, last]).2.2 _ ?_⟩
  rw [hApplied]
  exact List.Perm.swap first last []

end TokenLint.Fixing
