import TokenLint.Proofs.Fix.Gather

/-!
# What applying fixes leaves alone

Whatever is asked for, the files in the end are the original ones with the edits of the applied
fixes made. So files keep all that names them and all their tokens, and a token keeps all but its
content; its content changes if an applied fix edits it. No two applied fixes edit the same token,
so there is one such fix, and its last edit of the token decides.

* `apply_eq`: the result of applying fixes in terms of those that were applied.
* `apply_touches_only_edited_contents`: what becomes of a file and of its tokens.
-/

namespace TokenLint.Fixing

/-! ## Files after edits -/

theorem filesAfter_nil (fs : FileSet) : filesAfter [] fs = fs := by
  have hFiles : (fs.files.mapIdx fun _ f => f) = fs.files := by
    apply Array.ext_getElem?
    intro i
    simp
  simp [filesAfter, hFiles]

theorem size_filesAfter (edits : List TokenEdit) (fs : FileSet) :
    (filesAfter edits fs).size = fs.size := by
  simp [filesAfter, FileSet.size]

theorem get?_filesAfter (edits : List TokenEdit) (fs : FileSet) (file : UInt32) :
    (filesAfter edits fs).get? file = (fs.get? file).map fun f =>
      if edited edits file then withTokens f (streamAfter edits file f.tokens) else f := by
  have hNumber : file.toNat.toUInt32 = file := by simp
  have hEdited : edits.any (·.pos.file.toNat = file.toNat) = edited edits file := by
    simp only [edited, UInt32.toNat_inj]
  rw [FileSet.get?, getElem?_filesAfter, hNumber, hEdited]
  rfl

/-! ## The edit that decides -/

/-- The last edit of a token among those of a candidate. -/
def Candidate.lastEdit? (c : Candidate) (file : UInt32) (j : Nat) : Option TokenEdit :=
  (c.plan.edits.filter (concerns file j)).getLast?

theorem Candidate.exists_of_lastEdit? {c : Candidate} {file : UInt32} {j : Nat} {e : TokenEdit}
    (h : c.lastEdit? file j = some e) : e ∈ c.plan.edits ∧ concerns file j e = true :=
  List.mem_filter.mp (List.mem_of_getLast? h)

theorem Candidate.contentAfter_of_lastEdit? {c : Candidate} {file : UInt32} {j : Nat}
    {e : TokenEdit} (h : c.lastEdit? file j = some e) (t : Text) :
    contentAfter c.plan.edits file j t = e.newText := by
  obtain ⟨before, hEdits⟩ := List.getLast?_eq_some_iff.mp h
  rw [contentAfter, hEdits, List.foldl_append]
  rfl

/-- Of candidates that stay away from each other, the one that edits a token decides. -/
theorem contentAfter_editsOf_of_lastEdit? {cs : List Candidate}
    (hApart : cs.Pairwise fun c d => Apart c.plan.edits d.plan.edits) {c : Candidate} (hc : c ∈ cs)
    {file : UInt32} {j : Nat} {e : TokenEdit} (h : c.lastEdit? file j = some e) (t : Text) :
    contentAfter (editsOf cs) file j t = e.newText := by
  induction cs generalizing t with
  | nil => simp at hc
  | cons d cs ih =>
      obtain ⟨hFirst, hRest⟩ := List.pairwise_cons.mp hApart
      rw [editsOf_cons, contentAfter_append]
      rcases List.mem_cons.mp hc with rfl | hc
      · rw [Candidate.contentAfter_of_lastEdit? h, contentAfter_of_forall_not]
        -- a later candidate that concerns the token would not stay away
        intro e' he'
        obtain ⟨d, hd, hMem⟩ := List.mem_flatMap.mp he'
        obtain ⟨he, hConcerns⟩ := Candidate.exists_of_lastEdit? h
        by_contra hBoth
        exact hFirst d hd e he e' hMem (pos_eq_of_concerns hConcerns (by simpa using hBoth))
      · exact ih hRest hc _

theorem exists_edit_of_contentAfter_ne {cs : List Candidate} {file : UInt32} {j : Nat} {t : Text}
    (h : contentAfter (editsOf cs) file j t ≠ t) :
    ∃ c ∈ cs, ∃ e ∈ c.plan.edits, concerns file j e = true := by
  by_contra hNone
  refine h (contentAfter_of_forall_not (fun e he => ?_) t)
  obtain ⟨c, hc, hMem⟩ := List.mem_flatMap.mp he
  by_contra hConcerns
  exact hNone ⟨c, hc, e, hMem, by simpa using hConcerns⟩

/-! ## Applying fixes -/

/-- The fixes of diagnostics that are applied on request, in order. -/
def appliedOf (fs : FileSet) (ds : List Diagnostic) (r : Request) : List Candidate :=
  appliedFrom fs {} (select (order (gather fs ds).candidates.toList) r).1

/-- Candidates that are gathered in order are applied greedily. -/
theorem appliedOf_of_pairwise {fs : FileSet} {ds : List Diagnostic}
    (h : (gather fs ds).candidates.toList.Pairwise fun a b => b.before a = false) (r : Request) :
    appliedOf fs ds r = accepted fs [] (select (gather fs ds).candidates.toList r).1 := by
  rw [appliedOf, order_of_pairwise h, (holds_empty fs).appliedFrom_eq]

theorem apart_appliedOf (fs : FileSet) (ds : List Diagnostic) (r : Request) :
    (appliedOf fs ds r).Pairwise fun c d => Apart c.plan.edits d.plan.edits :=
  (compatible_appliedFrom (holds_empty fs) _).apart

/-- The files, the records of applied fixes, the list of changes and the problem, all in terms of
the fixes that were applied. -/
theorem apply_eq (fs : FileSet) (ds : List Diagnostic) (r : Request) :
    (apply fs ds r).1 = filesAfter (editsOf (appliedOf fs ds r)) fs ∧
      (apply fs ds r).2.1.applied = (appliedOf fs ds r).map (recordOf fs) ∧
      (apply fs ds r).2.1.changes =
        (applySelected fs (select (order (gather fs ds).candidates.toList) r).1).2.2.2 ∧
      (apply fs ds r).2.2 = if (appliedOf fs ds r).isEmpty then some .noFixes else none := by
  obtain ⟨hFiles, hApplied, -⟩ :=
    applySelected_eq fs (select (order (gather fs ds).candidates.toList) r).1
  refine ⟨hFiles, hApplied, rfl, ?_⟩
  have hProblem : (apply fs ds r).2.2 =
      if (apply fs ds r).2.1.applied.isEmpty then some .noFixes else none := rfl
  have hRecords : (apply fs ds r).2.1.applied = (appliedOf fs ds r).map (recordOf fs) := hApplied
  rw [hProblem, hRecords, List.isEmpty_map]

/-- What candidates leave of a file: contents of tokens that they edit may be others, and with
them the digest and the mark of a modified file. -/
structure Leaves (cs : List Candidate) (file : UInt32) (f f' : SourceFile) : Prop where
  id : f'.id = f.id
  path : f'.path = f.path
  origin : f'.origin = f.origin
  length : f'.tokens.length = f.tokens.length
  /-- A token keeps its kind, its name, its line and its column. Its content is another one only if
  a candidate edits it, and then it is the text of the last edit that the candidate has there. -/
  token : ∀ j t, f.tokens[j]? = some t → ∃ content,
    f'.tokens[j]? = some { t with content := content } ∧
      (content ≠ t.content → ∃ c ∈ cs, ∃ e ∈ c.plan.edits, concerns file j e = true) ∧
      ∀ c ∈ cs, ∀ e, c.lastEdit? file j = some e → content = e.newText
  hash : f'.hash = Digest.sha256 f'.tokens.source
  isVirtual : f'.flags.isVirtual = f.flags.isVirtual
  modified : f'.flags.modified = true ↔
    f.flags.modified = true ∨ ∃ c ∈ cs, ∃ e ∈ c.plan.edits, e.pos.file = file

theorem edited_editsOf_iff {cs : List Candidate} {file : UInt32} :
    edited (editsOf cs) file = true ↔ ∃ c ∈ cs, ∃ e ∈ c.plan.edits, e.pos.file = file := by
  simp only [edited_iff, editsOf, List.mem_flatMap]
  constructor
  · rintro ⟨e, ⟨c, hc, he⟩, hFile⟩
    exact ⟨c, hc, e, he, hFile⟩
  · rintro ⟨c, hc, e, he, hFile⟩
    exact ⟨e, ⟨c, hc, he⟩, hFile⟩

/-- A file with the edits of candidates that stay away from each other. -/
theorem leaves_withTokens {cs : List Candidate}
    (hApart : cs.Pairwise fun c d => Apart c.plan.edits d.plan.edits) {file : UInt32}
    (hEdited : edited (editsOf cs) file = true) (f : SourceFile) :
    Leaves cs file f (withTokens f (streamAfter (editsOf cs) file f.tokens)) where
  id := rfl
  path := rfl
  origin := rfl
  length := List.length_mapIdx
  token j t ht := by
    refine ⟨contentAfter (editsOf cs) file j t.content, ?_, exists_edit_of_contentAfter_ne, ?_⟩
    · have hToken := getElem?_streamAfter (editsOf cs) file f.tokens j
      rw [ht] at hToken
      exact hToken
    · intro c hc e he
      exact contentAfter_editsOf_of_lastEdit? hApart hc he _
  hash := rfl
  isVirtual := rfl
  modified := ⟨fun _ => Or.inr (edited_editsOf_iff.mp hEdited), fun _ => rfl⟩

/-- A file that no candidate edits. -/
theorem leaves_self {cs : List Candidate} {file : UInt32}
    (hEdited : ¬ edited (editsOf cs) file = true) {f : SourceFile}
    (hHash : f.hash = Digest.sha256 f.tokens.source) : Leaves cs file f f where
  id := rfl
  path := rfl
  origin := rfl
  length := rfl
  token j t ht := by
    refine ⟨t.content, ht, fun h => absurd rfl h, ?_⟩
    intro c hc e he
    obtain ⟨hMem, hConcerns⟩ := Candidate.exists_of_lastEdit? he
    have hFile : e.pos.file = file := by
      simp only [concerns, Bool.and_eq_true, decide_eq_true_eq] at hConcerns
      exact hConcerns.1
    exact absurd (edited_editsOf_iff.mpr ⟨c, hc, e, hMem, hFile⟩) hEdited
  hash := hHash
  isVirtual := rfl
  modified := by
    refine ⟨Or.inl, fun h => h.resolve_right ?_⟩
    exact fun hEdit => hEdited (edited_editsOf_iff.mpr hEdit)

/-- Applying fixes, whatever is asked for, touches nothing but the contents of tokens that applied
fixes edit. No two of these fixes edit the same token. -/
theorem apply_touches_only_edited_contents {fs : FileSet} (hBuilt : fs.Built)
    (ds : List Diagnostic) (r : Request) :
    (apply fs ds r).2.1.applied = (appliedOf fs ds r).map (recordOf fs) ∧
      ((appliedOf fs ds r).Pairwise fun c d =>
        ∀ e ∈ c.plan.edits, ∀ e' ∈ d.plan.edits, e.pos ≠ e'.pos) ∧
      (apply fs ds r).1.size = fs.size ∧
      (apply fs ds r).1.baseDir = fs.baseDir ∧ (apply fs ds r).1.workDir = fs.workDir ∧
      ∀ file f, fs.get? file = some f →
        ∃ f', (apply fs ds r).1.get? file = some f' ∧ Leaves (appliedOf fs ds r) file f f' := by
  obtain ⟨hFiles, hApplied, -⟩ := apply_eq fs ds r
  have hApart := apart_appliedOf fs ds r
  rw [hFiles]
  refine ⟨hApplied, hApart, size_filesAfter _ fs, rfl, rfl, fun file f hf => ?_⟩
  rw [get?_filesAfter, hf, Option.map_some]
  by_cases hEdited : edited (editsOf (appliedOf fs ds r)) file = true
  · exact ⟨_, by rw [if_pos hEdited], leaves_withTokens hApart hEdited f⟩
  · refine ⟨f, by rw [if_neg hEdited], leaves_self hEdited ?_⟩
    exact hBuilt.hash_eq (Array.mem_of_getElem? hf)

/-- A file of two tokens. -/
def pairFile : FileSet :=
  FileSet.add {} "a" [] [{ content := "x" }, { content := "y" }] {}

/-- A diagnostic with one fix. -/
def offering (pos : Pos) (id : Text) (edits : List TokenEdit) : Diagnostic :=
  { primary := pos, fixes := [{ plan := { id := id, edits := edits } }] }

/-- The first fix edits a token twice and is applied. The second one edits the other token before it
comes to the same one, and is not. -/
theorem apply_touches_only_edited_contents_pairFile :
    let ds := [offering ⟨0, 0⟩ "first" [⟨⟨0, 0⟩, "one", "x"⟩, ⟨⟨0, 0⟩, "two", "one"⟩],
      offering ⟨0, 1⟩ "second" [⟨⟨0, 1⟩, "three", []⟩, ⟨⟨0, 0⟩, "four", []⟩]]
    pairFile.Built ∧ (appliedOf pairFile ds { mode := .all }).map (·.plan.id) = ["first"] ∧
      ∀ f, pairFile.get? 0 = some f → ∃ f', (apply pairFile ds { mode := .all }).1.get? 0 = some f' ∧
        Leaves (appliedOf pairFile ds { mode := .all }) 0 f f' := by
  intro ds
  have hBuilt : pairFile.Built := .add (.empty _ _) _ _ _ _
  have hApplied : (appliedOf pairFile ds { mode := .all }).map (·.plan.id) = ["first"] := by
    rw [appliedOf_of_pairwise (by decide +kernel)]
    decide +kernel
  exact ⟨hBuilt, hApplied,
    (apply_touches_only_edited_contents hBuilt ds { mode := .all }).2.2.2.2.2 0⟩

end TokenLint.Fixing
