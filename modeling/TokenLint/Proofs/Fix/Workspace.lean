import Mathlib.Algebra.Group.Nat.Defs
import TokenLint.Proofs.FileSet
import TokenLint.Proofs.Fix.Edits
import TokenLint.Proofs.Table

/-!
# What a workspace knows

While candidates are applied, the workspace holds the changed streams, the tokens that are
taken and the number of edits by file. All of it follows from the edits made so far:
`Holds fs made w` says that the workspace `w` is the one in which the edits `made` have been
made on the files of `fs`.

* `Holds.stage_ok_iff`: a fix can be staged if and only if it fits the files as they were
  before anything was applied and stays away from the edits made.
* `Holds.applyOne_of_accepts`, `Holds.applyOne_of_not_accepts`: the two things a step can do.
* `Holds.commit_eq`, `Holds.changesOf_perm`: the files and the list of changes in the end.
-/

namespace TokenLint.Fixing

/-! ## The edits behind a workspace -/

/-- The tokens of a file; none if there is no such file. -/
def tokensOf (fs : FileSet) (file : UInt32) : Stream := ((fs.get? file).map (·.tokens)).getD []

theorem tokensOf_of_get? {fs : FileSet} {file : UInt32} {f : SourceFile}
    (h : fs.get? file = some f) : tokensOf fs file = f.tokens := by
  simp [tokensOf, h]

/-- Is the file among those that edits are about? -/
def edited (edits : List TokenEdit) (file : UInt32) : Bool := edits.any (·.pos.file = file)

theorem edited_iff {edits : List TokenEdit} {file : UInt32} :
    edited edits file = true ↔ ∃ e ∈ edits, e.pos.file = file := by
  simp [edited]

theorem edited_append (es es' : List TokenEdit) (file : UInt32) :
    edited (es ++ es') file = (edited es file || edited es' file) := by
  simp [edited]

/-- Two lists of edits have no token in common. -/
def Apart (es es' : List TokenEdit) : Prop := ∀ e ∈ es, ∀ e' ∈ es', e.pos ≠ e'.pos

/-- Edits that can be made on the files of a file set where nothing else has been done. -/
def Fits (fs : FileSet) (edits : List TokenEdit) : Prop :=
  ∀ file ∈ filesOf edits,
    (fs.get? file).isSome = true ∧ ∃ s, editStream [] (tokensOf fs file) (editsIn file edits) = .ok s

/-- A single edit can be made if its token is there, with the text the edit expects. -/
theorem fits_singleton {fs : FileSet} {e : TokenEdit} {f : SourceFile} {t : Token}
    (hFile : fs.get? e.pos.file = some f) (hToken : f.tokens[e.pos.token.toNat]? = some t)
    (hText : t.content = e.oldText) : Fits fs [e] := by
  intro file hMem
  have hSame : e.pos.file = file := by simpa [mem_filesOf] using hMem
  subst hSame
  refine ⟨by rw [hFile]; rfl, f.tokens.setContent e.pos.token.toNat e.newText, ?_⟩
  have hEdits : editsIn e.pos.file [e] = [e] := by simp [editsIn]
  rw [hEdits, tokensOf_of_get? hFile, editStream_cons_ok_iff, checkEdit_eq_none_iff, hToken]
  exact ⟨⟨List.not_mem_nil, t.content, rfl, Or.inr hText⟩, rfl⟩

/-- The workspace in which the edits `made` have been made, and nothing else. -/
structure Holds (fs : FileSet) (made : List TokenEdit) (w : Workspace) : Prop where
  known : ∀ e ∈ made, (fs.get? e.pos.file).isSome = true
  touched : w.touched = made.map (·.pos)
  streams : ∀ file, w.streams.lookup file =
    if edited made file then some (streamAfter made file (tokensOf fs file)) else none
  counts : ∀ file, (w.editCounts.lookup file).getD 0 = made.countP (·.pos.file = file)
  nodup : (w.streams.map Prod.fst).Nodup

theorem holds_empty (fs : FileSet) : Holds fs [] {} where
  known := by simp
  touched := rfl
  streams := by simp [edited]
  counts := by simp
  nodup := List.nodup_nil

namespace Holds

variable {fs : FileSet} {made edits : List TokenEdit} {w : Workspace}

/-- The current stream of a file is the original one with the edits made so far. -/
theorem stream?_eq (h : Holds fs made w) (file : UInt32) :
    w.stream? fs file = (fs.get? file).map fun f => streamAfter made file f.tokens := by
  unfold Workspace.stream?
  rw [h.streams]
  by_cases hEdited : edited made file = true
  · obtain ⟨e, he, hFile⟩ := edited_iff.mp hEdited
    obtain ⟨f, hf⟩ := Option.isSome_iff_exists.mp (hFile ▸ h.known e he)
    simp [hEdited, hf, tokensOf]
  · have hSame : ∀ s, streamAfter made file s = s :=
      streamAfter_of_forall_ne fun e he hFile => hEdited (edited_iff.mpr ⟨e, he, hFile⟩)
    simp [hEdited, hSame]

/-- Edits that stay away from those made read the original contents. -/
theorem getElem?_streamAfter_of_apart (hApart : Apart made edits) {file : UInt32}
    {e : TokenEdit} (he : e ∈ editsIn file edits) (s : Stream) :
    (streamAfter made file s)[e.pos.token.toNat]?.map Token.content =
      s[e.pos.token.toNat]?.map Token.content := by
  obtain ⟨heMem, heFile⟩ := mem_editsIn.mp he
  have hKeep : ∀ c, contentAfter made file e.pos.token.toNat c = c := by
    refine contentAfter_of_forall_not fun m hm => ?_
    by_contra hConcerns
    have hOwn : concerns file e.pos.token.toNat e = true := by simp [concerns, heFile]
    exact hApart m hm e heMem (pos_eq_of_concerns (by simpa using hConcerns) hOwn)
  rw [getElem?_streamAfter]
  simp [hKeep]

/-- What is staged, file by file. -/
theorem stage_eq (h : Holds fs made w) {files : List UInt32} {staged : List (UInt32 × Stream)}
    (hStage : stage fs w edits files = .ok staged) :
    staged = files.map fun file => (file, streamAfter (made ++ edits) file (tokensOf fs file)) := by
  induction files generalizing staged with
  | nil =>
      cases hStage
      rfl
  | cons file files ih =>
      unfold stage at hStage
      rw [h.stream?_eq] at hStage
      cases hGet : fs.get? file with
      | none => simp [hGet] at hStage
      | some f =>
          simp only [hGet, Option.map_some] at hStage
          split at hStage
          · cases hStage
          · rename_i s hEdit
            have hs := editStream_eq_streamAfter (fun e he => (mem_editsIn.mp he).2) hEdit
            rw [streamAfter_editsIn, streamAfter_streamAfter] at hs
            split at hStage
            · cases hStage
            · rename_i rest hRest
              cases hStage
              simp [ih hRest, hs, tokensOf, hGet]

theorem stage_ok_iff_forall {files : List UInt32} :
    (∃ staged, stage fs w edits files = .ok staged) ↔
      ∀ file ∈ files, ∃ s s', w.stream? fs file = some s ∧
        editStream w.touched s (editsIn file edits) = .ok s' := by
  induction files with
  | nil => simp [stage]
  | cons file files ih =>
      rw [List.forall_mem_cons, ← ih, stage]
      cases hStream : w.stream? fs file with
      | none => simp
      | some s =>
          cases hEdit : editStream w.touched s (editsIn file edits) with
          | error r => simp [hEdit]
          | ok s' => cases hRest : stage fs w edits files <;> simp [hEdit]

/-- A fix can be staged if and only if it fits the original files and stays away from the edits
made before. In particular it does not matter what these edits were. -/
theorem stage_ok_iff (h : Holds fs made w) :
    (∃ staged, stage fs w edits (filesOf edits) = .ok staged) ↔
      Fits fs edits ∧ Apart made edits := by
  rw [stage_ok_iff_forall]
  -- in one file: the stream is the one with the edits made, and these are taken
  have hFile : ∀ file, (∃ s s', w.stream? fs file = some s ∧
      editStream w.touched s (editsIn file edits) = .ok s') ↔
        (fs.get? file).isSome = true ∧ (∀ e ∈ editsIn file edits, e.pos ∉ w.touched) ∧
          ∃ s', editStream [] (streamAfter made file (tokensOf fs file)) (editsIn file edits) =
            .ok s' := by
    intro file
    rw [h.stream?_eq]
    cases hGet : fs.get? file with
    | none => simp
    | some f => simp [tokensOf, hGet, @editStream_ok_iff w.touched]
  have hApart : Apart made edits ↔ ∀ e ∈ edits, e.pos ∉ w.touched := by
    simp only [Apart, h.touched, List.mem_map, not_exists, not_and]
    exact ⟨fun hA e he m hm => hA m hm e he, fun hA m hm e he => hA e he m hm⟩
  simp only [hFile]
  constructor
  · intro hAll
    have hFree : Apart made edits := by
      rw [hApart]
      intro e he
      exact (hAll e.pos.file (mem_filesOf.mpr ⟨e, he, rfl⟩)).2.1 e (mem_editsIn.mpr ⟨he, rfl⟩)
    refine ⟨fun file hMem => ⟨(hAll file hMem).1, ?_⟩, hFree⟩
    exact (editStream_ok_congr fun e he => getElem?_streamAfter_of_apart hFree he _).mp
      (hAll file hMem).2.2
  · rintro ⟨hFits, hFree⟩ file hMem
    refine ⟨(hFits file hMem).1, fun e he => hApart.mp hFree e (mem_editsIn.mp he).1, ?_⟩
    exact (editStream_ok_congr fun e he => getElem?_streamAfter_of_apart hFree he _).mpr
      (hFits file hMem).2

end Holds

/-! ## Steps -/

/-- The record of a candidate that is applied. -/
def recordOf (fs : FileSet) (c : Candidate) : Applied :=
  { id := c.plan.id, title := c.plan.title, code := c.diagnostic.code
    message := c.diagnostic.message, applicability := c.plan.applicability
    path := fs.pathOf c.diagnostic.primary.file .auto, editCount := c.plan.edits.length }

/-- May a candidate be applied after the edits `made`? -/
def Accepts (fs : FileSet) (made : List TokenEdit) (c : Candidate) : Prop :=
  Fits fs c.plan.edits ∧ Apart made c.plan.edits

namespace Holds

variable {fs : FileSet} {made : List TokenEdit} {w : Workspace} {c : Candidate}

/-- A candidate that may be applied is applied as a whole. -/
theorem applyOne_of_accepts (h : Holds fs made w) (hc : Accepts fs made c) :
    Holds fs (made ++ c.plan.edits) (applyOne fs w c) ∧
      (applyOne fs w c).applied = w.applied ++ [recordOf fs c] ∧
      (applyOne fs w c).skipped = w.skipped := by
  obtain ⟨staged, hStage⟩ := h.stage_ok_iff.mpr hc
  have hStaged := h.stage_eq hStage
  have hFiles : ∀ file, file ∈ filesOf c.plan.edits ↔ edited c.plan.edits file = true :=
    fun file => mem_filesOf.trans edited_iff.symm
  unfold applyOne
  simp only [hStage]
  refine ⟨?_, rfl, trivial⟩
  subst hStaged
  simp only [List.foldl_map]
  constructor
  case known =>
    intro e he
    rcases List.mem_append.mp he with he | he
    · exact h.known e he
    · exact (hc.1 e.pos.file (mem_filesOf.mpr ⟨e, he, rfl⟩)).1
  case touched => simp [h.touched]
  case streams =>
    intro file
    rw [Table.lookup_foldl_assign (fun file _ => streamAfter (made ++ c.plan.edits) file (tokensOf fs file))
      (nodup_filesOf _) _ _ (fun _ _ _ _ _ => rfl), h.streams, edited_append]
    by_cases hIn : edited c.plan.edits file = true
    · simp [(hFiles file).mpr hIn, hIn]
    · -- the edits of this candidate are in other files
      have hOut : file ∉ filesOf c.plan.edits := mt (hFiles file).mp hIn
      have hSame : streamAfter (made ++ c.plan.edits) file (tokensOf fs file) =
          streamAfter made file (tokensOf fs file) := by
        rw [← streamAfter_streamAfter]
        exact streamAfter_of_forall_ne
          (fun e he hFile => hIn (edited_iff.mpr ⟨e, he, hFile⟩)) _
      simp [hOut, hIn, hSame]
  case counts =>
    intro file
    rw [Table.lookup_foldl_assign (fun file xs =>
        (xs.lookup file).getD 0 + (editsIn file c.plan.edits).length) (nodup_filesOf _) _ _
      (fun _ _ _ _ hSame => by rw [hSame]), List.countP_append, ← h.counts, ← length_editsIn]
    by_cases hIn : file ∈ filesOf c.plan.edits
    · simp [hIn]
    · have hNone : editsIn file c.plan.edits = [] := by
        refine List.eq_nil_iff_forall_not_mem.mpr fun e he => hIn ?_
        exact mem_filesOf.mpr ⟨e, mem_editsIn.mp he⟩
      simp [hIn, hNone]
  case nodup => exact Table.nodup_keys_foldl_assign _ _ h.nodup

/-- A candidate that may not be applied leaves no trace but a remark. -/
theorem applyOne_of_not_accepts (h : Holds fs made w) (hc : ¬ Accepts fs made c) :
    ∃ r : Reason, applyOne fs w c =
      { w with skipped := w.skipped ++ [⟨c.plan.id, c.plan.title, r.message⟩] } := by
  cases hStage : stage fs w c.plan.edits (filesOf c.plan.edits) with
  | error r => exact ⟨r, by simp only [applyOne, hStage]⟩
  | ok staged => exact absurd (h.stage_ok_iff.mp ⟨staged, hStage⟩) hc

theorem skip (h : Holds fs made w) (ss : List Skipped) : Holds fs made { w with skipped := ss } :=
  ⟨h.known, h.touched, h.streams, h.counts, h.nodup⟩

end Holds

/-! ## The files in the end -/

/-- A file with other tokens. -/
def withTokens (f : SourceFile) (s : Stream) : SourceFile :=
  { f with
    tokens := s
    hash := Digest.sha256 s.source
    flags := { f.flags with modified := true } }

/-- The file set after edits. Files that no edit is about stay as they are. -/
def filesAfter (edits : List TokenEdit) (fs : FileSet) : FileSet :=
  { fs with
    files := fs.files.mapIdx fun i f =>
      if edits.any (·.pos.file.toNat = i) then
        withTokens f (streamAfter edits i.toUInt32 f.tokens)
      else f }

theorem getElem?_filesAfter (edits : List TokenEdit) (fs : FileSet) (i : Nat) :
    (filesAfter edits fs).files[i]? = fs.files[i]?.map fun f =>
      if edits.any (·.pos.file.toNat = i) then
        withTokens f (streamAfter edits i.toUInt32 f.tokens)
      else f := by
  simp [filesAfter]

/-- The tokens of a file after edits, whether it is edited or not. -/
theorem tokens_getElem?_filesAfter {fs : FileSet} (hSize : fs.size < 2 ^ 32)
    (edits : List TokenEdit) (i : Nat) :
    (filesAfter edits fs).files[i]?.map SourceFile.tokens =
      fs.files[i]?.map fun f => streamAfter edits i.toUInt32 f.tokens := by
  rw [getElem?_filesAfter, Option.map_map]
  cases hFile : fs.files[i]? with
  | none => rfl
  | some f =>
      have hi : i < fs.size := (Array.getElem?_eq_some_iff.mp hFile).1
      have hNumber : i.toUInt32.toNat = i := Nat.mod_eq_of_lt (by omega)
      rw [Option.map_some, Option.map_some, Function.comp_apply]
      by_cases hEdited : edits.any (·.pos.file.toNat = i) = true
      · rw [if_pos hEdited]
        rfl
      · rw [if_neg hEdited, streamAfter_of_forall_ne]
        intro e he hEq
        refine hEdited (List.any_eq_true.mpr ⟨e, he, ?_⟩)
        simp [hEq, hNumber]

theorem getElem?_replace (fs : FileSet) (file : UInt32) (s : Stream) (i : Nat) :
    (fs.replace file s).files[i]? =
      fs.files[i]?.map fun f => if file.toNat = i then withTokens f s else f :=
  FileSet.getElem?_replace fs file s i

theorem commit_cons (fs : FileSet) (p : UInt32 × Stream) (streams : List (UInt32 × Stream)) :
    commit fs (p :: streams) = commit (fs.replace p.1 p.2) streams := rfl

theorem commit_keeps (fs : FileSet) (streams : List (UInt32 × Stream)) :
    (commit fs streams).index = fs.index ∧ (commit fs streams).baseDir = fs.baseDir ∧
      (commit fs streams).workDir = fs.workDir := by
  induction streams generalizing fs with
  | nil => exact ⟨rfl, rfl, rfl⟩
  | cons p streams ih => exact ih (fs.replace p.1 p.2)

theorem getElem?_commit_of_forall_ne {streams : List (UInt32 × Stream)} {i : Nat}
    (h : ∀ k ∈ streams.map Prod.fst, k.toNat ≠ i) (fs : FileSet) :
    (commit fs streams).files[i]? = fs.files[i]? := by
  induction streams generalizing fs with
  | nil => rfl
  | cons p streams ih =>
      rw [List.map_cons, List.forall_mem_cons] at h
      rw [commit_cons, ih h.2, getElem?_replace]
      simp [h.1]

theorem get?_commit {streams : List (UInt32 × Stream)} (hNodup : (streams.map Prod.fst).Nodup)
    {file : UInt32} {s : Stream} (hLookup : streams.lookup file = some s) (fs : FileSet) :
    (commit fs streams).get? file = (fs.get? file).map (withTokens · s) := by
  induction streams generalizing fs with
  | nil => simp at hLookup
  | cons p streams ih =>
      obtain ⟨k, s'⟩ := p
      obtain ⟨hNew, hRest⟩ := List.nodup_cons.mp hNodup
      rw [commit_cons]
      by_cases hk : file = k
      · subst hk
        simp only [List.lookup_cons_self, Option.some.injEq] at hLookup
        subst hLookup
        -- no later entry is about the file
        have hOther : ∀ k' ∈ streams.map Prod.fst, k'.toNat ≠ file.toNat := by
          intro k' hk' hEq
          exact hNew (UInt32.toNat_inj.mp hEq ▸ hk')
        rw [FileSet.get?, getElem?_commit_of_forall_ne hOther, getElem?_replace]
        simp [FileSet.get?]
      · have hk' : (file == k) = false := beq_eq_false_iff_ne.mpr hk
        rw [List.lookup_cons, hk'] at hLookup
        rw [ih hRest hLookup]
        have hOther : ¬ k.toNat = file.toNat := fun hEq => hk (UInt32.toNat_inj.mp hEq.symm)
        simp [FileSet.get?, getElem?_replace, hOther]

/-- The entry of a file in the list of changes. -/
def changeIn (fs : FileSet) (edits : List TokenEdit) (file : UInt32) : FileChange :=
  ⟨file, fs.pathOf file .auto, edits.countP (·.pos.file = file)⟩

namespace Holds

variable {fs : FileSet} {made : List TokenEdit} {w : Workspace}

theorem mem_keys_iff (h : Holds fs made w) {file : UInt32} :
    file ∈ w.streams.map Prod.fst ↔ edited made file = true := by
  rw [← Table.lookup_isSome_iff, h.streams]
  by_cases hEdited : edited made file <;> simp [hEdited]

/-- The files in the end are the original ones with the edits made. -/
theorem commit_eq (h : Holds fs made w) : commit fs w.streams = filesAfter made fs := by
  obtain ⟨hIndex, hBase, hWork⟩ := commit_keeps fs w.streams
  have hFiles : (commit fs w.streams).files = (filesAfter made fs).files := by
    apply Array.ext_getElem?
    intro i
    simp only [filesAfter, Array.getElem?_mapIdx]
    by_cases hIn : ∃ e ∈ made, e.pos.file.toNat = i
    · obtain ⟨e, he, rfl⟩ := hIn
      have hLookup := h.streams e.pos.file
      rw [if_pos (edited_iff.mpr ⟨e, he, rfl⟩)] at hLookup
      have hGet := get?_commit h.nodup hLookup fs
      have hAny : made.any (fun x => x.pos.file.toNat = e.pos.file.toNat) = true := by
        simpa using ⟨e, he, rfl⟩
      simp only [FileSet.get?] at hGet
      rw [hGet]
      cases hf : fs.files[e.pos.file.toNat]? with
      | none => rfl
      | some f => simp [hAny, tokensOf, FileSet.get?, hf]
    · have hOther : ∀ k ∈ w.streams.map Prod.fst, k.toNat ≠ i := by
        intro k hk hEq
        obtain ⟨e, he, hFile⟩ := edited_iff.mp (h.mem_keys_iff.mp hk)
        exact hIn ⟨e, he, hFile ▸ hEq⟩
      have hAny : made.any (fun x => x.pos.file.toNat = i) = false := by
        simpa using fun e he hEq => hIn ⟨e, he, hEq⟩
      rw [getElem?_commit_of_forall_ne hOther]
      simp [hAny]
  cases hc : commit fs w.streams
  simp_all [filesAfter]

/-- The list of changes has one entry for each file that an edit is about. -/
theorem changesOf_perm (h : Holds fs made w) :
    (changesOf fs w).Perm ((filesOf made).map (changeIn fs made)) := by
  have hKeys : (w.streams.map Prod.fst).Perm (filesOf made) := by
    rw [List.perm_ext_iff_of_nodup h.nodup (nodup_filesOf made)]
    intro file
    rw [h.mem_keys_iff, mem_filesOf, edited_iff]
  have hMap : (w.streams.map fun x => (⟨x.1, fs.pathOf x.1 .auto,
      (w.editCounts.lookup x.1).getD 0⟩ : FileChange)) =
        (w.streams.map Prod.fst).map (changeIn fs made) := by
    rw [List.map_map]
    apply List.map_congr_left
    intro x _
    simp [changeIn, h.counts]
  unfold changesOf
  refine ((List.mergeSort_perm _ _).trans (List.mergeSort_perm _ _)).trans ?_
  rw [hMap]
  exact hKeys.map _

end Holds

end TokenLint.Fixing
