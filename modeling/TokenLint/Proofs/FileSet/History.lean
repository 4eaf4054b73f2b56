import Mathlib.Algebra.Group.Nat.Defs
import Mathlib.Data.List.Nodup
import TokenLint.Proofs.FileSet

/-!
# The history of a file set

A file set starts empty, and then files are added, tokens are replaced and the directory of shown
paths is set, in any order. Its files stand in the order in which they were added, the index holds
the newest number of each path, and the digests are those of the present sources. Numbers are
given once and for all: what a number stands for changes by replacing its tokens only.

* `Tracks.run`, `tracks_after`: the files and the index follow the paths that were added.
* `version_run`, `version_after`: what becomes of one file.
* `history_of_steps`: both for every sequence of steps, starting from an empty set.
-/

namespace TokenLint.FileSet

/-! ## Steps -/

/-- What can be done with a file set. -/
inductive Step where
  | add (path origin : Text) (tokens : Stream) (flags : FileFlags)
  | addVirtual (name : Text) (tokens : Stream)
  | replace (id : UInt32) (tokens : Stream)
  | rebase (baseDir : Text)
  deriving DecidableEq, Inhabited

namespace Step

/-- The file set after a step. -/
def run (fs : FileSet) : Step → FileSet
  | .add path origin tokens flags => fs.add path origin tokens flags
  | .addVirtual name tokens => fs.addVirtual name tokens
  | .replace id tokens => fs.replace id tokens
  | .rebase baseDir => { fs with baseDir := baseDir }

/-- The file that a step adds, if it is added under a number. -/
def file? (id : UInt32) : Step → Option SourceFile
  | .add path origin tokens flags =>
    some { id := id, path := Path.clean path, origin := origin, tokens := tokens
           hash := Digest.sha256 tokens.source, flags := flags }
  | .addVirtual name tokens =>
    some { id := id, path := Path.clean name, tokens := tokens
           hash := Digest.sha256 tokens.source, flags := { isVirtual := true } }
  | .replace _ _ | .rebase _ => none

/-- The path under which a step adds a file. -/
def path? : Step → Option Text
  | .add path _ _ _ => some path
  | .addVirtual name _ => some name
  | .replace _ _ | .rebase _ => none

/-- The tokens that a step gives to a file that is there. -/
def tokensFor? (id : UInt32) : Step → Option Stream
  | .replace other tokens => if other = id then some tokens else none
  | .add _ _ _ _ | .addVirtual _ _ | .rebase _ => none

end Step

/-- The file set after steps. -/
def after (fs : FileSet) (steps : List Step) : FileSet := steps.foldl Step.run fs

/-- The paths under which steps add files, as they are written. -/
def addedPaths (steps : List Step) : List Text := steps.filterMap Step.path?

/-- The tokens that steps give to a file, one after the other. -/
def replacements (id : UInt32) (steps : List Step) : List Stream :=
  steps.filterMap (Step.tokensFor? id)

/-- The numbers that files get when steps add them. -/
def issued (fs : FileSet) : List Step → List UInt32
  | [] => []
  | s :: rest => (if s.path?.isSome then [fs.nextId] else []) ++ issued (s.run fs) rest

variable {fs : FileSet} {paths : List Text} {f f' : SourceFile} {id : UInt32}

theorem after_append (fs : FileSet) (steps rest : List Step) :
    fs.after (steps ++ rest) = (fs.after steps).after rest := List.foldl_append

theorem built_after (h : fs.Built) (steps : List Step) : (fs.after steps).Built := by
  induction steps generalizing fs with
  | nil => exact h
  | cons s steps ih =>
      refine ih ?_
      cases s with
      | add path origin tokens flags => exact h.add path origin tokens flags
      | addVirtual name tokens => exact h.add name [] tokens { isVirtual := true }
      | replace id tokens => exact h.replace id tokens
      | rebase baseDir => exact h.rebase baseDir

/-! ## One step -/

theorem toNat_nextId (h : fs.size < 2 ^ 32) : fs.nextId.toNat = fs.size := Nat.mod_eq_of_lt h

/-- A step that adds a file puts it behind the others and enters its path. -/
theorem Step.run_of_file? {s : Step} (h : s.file? fs.nextId = some f) :
    s.run fs = { fs with files := fs.files.push f, index := (f.path, fs.nextId) :: fs.index } := by
  cases s <;> cases h <;> rfl

theorem Step.get?_run_of_file? {s : Step} (h : s.file? fs.nextId = some f)
    (hSize : fs.size < 2 ^ 32) : (s.run fs).get? f.id = some f := by
  have hId : f.id = fs.nextId := by cases s <;> cases h <;> rfl
  rw [Step.run_of_file? h, FileSet.get?, hId, toNat_nextId hSize]
  exact Array.getElem?_push_size

theorem Step.exists_file? {s : Step} {path : Text} (h : s.path? = some path) (id : UInt32) :
    ∃ f, s.file? id = some f ∧ f.id = id ∧ f.path = Path.clean path := by
  cases s <;> cases h <;> exact ⟨_, rfl, rfl, rfl⟩

/-- Any other step leaves the index as it is, and the files but for their tokens. -/
theorem Step.run_of_path?_eq_none {s : Step} (h : s.path? = none) (fs : FileSet) :
    (s.run fs).index = fs.index ∧ ∀ i : Nat, (s.run fs).files[i]?.map (fun f => (f.id, f.path)) =
      fs.files[i]?.map fun f => (f.id, f.path) := by
  cases s with
  | add path origin tokens flags => cases h
  | addVirtual name tokens => cases h
  | rebase baseDir => exact ⟨rfl, fun _ => rfl⟩
  | replace id tokens =>
      refine ⟨rfl, fun i => ?_⟩
      show ((fs.replace id tokens).files[i]?.map fun f => (f.id, f.path)) = _
      rw [getElem?_replace, Option.map_map]
      congr 1
      funext f
      simp only [Function.comp_apply]
      split <;> rfl

theorem Step.size_run (s : Step) (fs : FileSet) :
    (s.run fs).size = fs.size + s.path?.toList.length := by
  cases s with
  | add path origin tokens flags => exact Array.size_push _
  | addVirtual name tokens => exact Array.size_push _
  | rebase baseDir => rfl
  | replace id tokens => exact Array.size_modify

/-! ## Numbers and paths -/

/-- The number is the greatest one under which the key stands, if there is one. -/
def Newest (keys : List Text) (key : Text) : Option UInt32 → Prop
  | none => key ∉ keys
  | some id => keys[id.toNat]? = some key ∧ ∀ j : Nat, id.toNat < j → keys[j]? ≠ some key

theorem Newest.concat {keys : List Text} {key : Text} {found : Option UInt32}
    (h : Newest keys key found) (hLength : keys.length < 2 ^ 32) (new : Text) :
    Newest (keys ++ [new]) key (if key = new then some keys.length.toUInt32 else found) := by
  have hNumber : keys.length.toUInt32.toNat = keys.length := Nat.mod_eq_of_lt hLength
  by_cases hKey : key = new
  · rw [if_pos hKey, Newest, hNumber]
    refine ⟨by simp [hKey], fun j hj => ?_⟩
    rw [List.getElem?_eq_none (by simp; omega)]
    simp
  · rw [if_neg hKey]
    cases found with
    | none => exact fun hMem => (List.mem_append.mp hMem).elim h (by simpa using hKey)
    | some id =>
        obtain ⟨hHere, hLater⟩ := h
        have hBound := (List.getElem?_eq_some_iff.mp hHere).1
        refine ⟨by rw [List.getElem?_append_left hBound]; exact hHere, fun j hj => ?_⟩
        rw [List.getElem?_append]
        split
        · exact hLater j hj
        · intro hLast
          exact hKey (by simpa using (List.mem_of_getElem? hLast))

/-- The files of a file set are those that were added under the paths, in order, and the index
holds the newest number of each. -/
structure Tracks (paths : List Text) (fs : FileSet) : Prop where
  size : fs.size = paths.length
  file : ∀ i : Nat, fs.files[i]?.map (fun f => (f.id, f.path)) =
    paths[i]?.map fun path => (i.toUInt32, Path.clean path)
  newest : ∀ key, Newest (paths.map Path.clean) key (fs.index.lookup key)

theorem tracks_empty (baseDir workDir : Text) :
    Tracks [] { baseDir := baseDir, workDir := workDir } where
  size := rfl
  file _ := rfl
  newest _ := List.not_mem_nil

theorem Tracks.run (h : Tracks paths fs) (hSize : paths.length < 2 ^ 32) (s : Step) :
    Tracks (paths ++ s.path?.toList) (s.run fs) := by
  have hLength : (s.run fs).size = (paths ++ s.path?.toList).length := by
    rw [s.size_run, h.size, List.length_append]
  cases hPath : s.path? with
  | none =>
      rw [hPath] at hLength
      obtain ⟨hIndex, hFiles⟩ := Step.run_of_path?_eq_none hPath fs
      rw [Option.toList_none, List.append_nil] at *
      exact ⟨hLength, fun i => (hFiles i).trans (h.file i), hIndex ▸ h.newest⟩
  | some path =>
      rw [hPath] at hLength
      obtain ⟨f, hFile, hId, hClean⟩ := Step.exists_file? hPath fs.nextId
      rw [Option.toList_some] at *
      refine ⟨hLength, ?_, ?_⟩
      · intro i
        rw [Step.run_of_file? hFile, List.getElem?_append]
        simp only [Array.getElem?_push]
        have hEnd : fs.files.size = paths.length := h.size
        by_cases hi : i = paths.length
        · subst hi
          simp [hEnd, hId, hClean, FileSet.nextId]
        · rw [hEnd, if_neg hi, h.file]
          split
          · rfl
          · rw [List.getElem?_eq_none (by omega), List.getElem?_eq_none (by simp; omega)]
      · intro key
        rw [Step.run_of_file? hFile, List.map_append]
        have hNew := (h.newest key).concat (by simpa using hSize) (Path.clean path)
        have hNumber : fs.nextId = (paths.map Path.clean).length.toUInt32 := by
          rw [List.length_map, ← h.size]
          rfl
        rw [List.lookup_cons, hClean, hNumber]
        by_cases hKey : key = Path.clean path
        · simpa [hKey] using hNew
        · have hOther : (key == Path.clean path) = false := beq_eq_false_iff_ne.mpr hKey
          simpa [hKey, hOther] using hNew

theorem tracks_after (h : Tracks paths fs) (steps : List Step)
    (hSize : (paths ++ addedPaths steps).length < 2 ^ 32) :
    Tracks (paths ++ addedPaths steps) (fs.after steps) := by
  induction steps generalizing fs paths with
  | nil => simpa [addedPaths, after] using h
  | cons s steps ih =>
      have hSplit : paths ++ addedPaths (s :: steps) =
          (paths ++ s.path?.toList) ++ addedPaths steps := by
        cases hPath : s.path? <;> simp [addedPaths, hPath]
      rw [hSplit] at hSize ⊢
      refine ih (h.run ?_ s) hSize
      simp only [List.length_append] at hSize
      omega

namespace Tracks

variable (h : Tracks paths fs) (hSize : paths.length < 2 ^ 32)
include h

theorem getElem?_keys (i : Nat) :
    (paths.map Path.clean)[i]? = fs.files[i]?.map (·.path) := by
  have hPath := congrArg (Option.map Prod.snd) (h.file i)
  rw [Option.map_map, Option.map_map] at hPath
  rw [List.getElem?_map]
  exact hPath.symm

include hSize

theorem id_of_getElem? {i : Nat} (hf : fs.files[i]? = some f) : f.id.toNat = i := by
  have hFile := h.file i
  have hBound : i < fs.size := (Array.getElem?_eq_some_iff.mp hf).1
  rw [h.size] at hBound
  rw [hf, List.getElem?_eq_getElem hBound] at hFile
  have hId : f.id = i.toUInt32 := congrArg Prod.fst (Option.some.inj hFile)
  rw [hId]
  exact Nat.mod_eq_of_lt (by omega)

theorem id_of_get? (hf : fs.get? id = some f) : f.id = id :=
  UInt32.toNat_inj.mp (h.id_of_getElem? hSize hf)

/-- A path leads to the file that was added last under a path of the same meaning. -/
theorem getByPath? (path : Text) :
    Newest (paths.map Path.clean) (Path.clean path) ((fs.getByPath? path).map (·.id)) ∧
      ∀ f, fs.getByPath? path = some f → fs.get? f.id = some f := by
  have hNewest := h.newest (Path.clean path)
  unfold FileSet.getByPath?
  cases hLookup : fs.index.lookup (Path.clean path) with
  | none =>
      rw [hLookup] at hNewest
      exact ⟨hNewest, fun f hf => nomatch hf⟩
  | some id =>
      rw [hLookup] at hNewest
      have hKey := hNewest.1
      rw [h.getElem?_keys, Option.map_eq_some_iff] at hKey
      obtain ⟨f, hf, -⟩ := hKey
      have hGet : fs.get? id = some f := hf
      rw [Option.bind_some, hGet, Option.map_some, h.id_of_get? hSize hGet]
      refine ⟨hNewest, fun f' hSame => ?_⟩
      cases hSame
      rw [h.id_of_get? hSize hGet, hGet]

end Tracks

theorem Tracks.nodup_ids (h : Tracks paths fs) (hSize : paths.length < 2 ^ 32) :
    (fs.files.toList.map (·.id)).Nodup := by
  have hRange : (fs.files.toList.map (·.id)).map UInt32.toNat = List.range fs.files.size := by
    apply List.ext_getElem (by simp)
    intro i hi hi'
    simp only [List.getElem_map, Array.getElem_toList, List.getElem_range]
    exact h.id_of_getElem? hSize (Array.getElem?_eq_getElem _)
  exact List.Nodup.of_map UInt32.toNat (hRange ▸ List.nodup_range)

/-- A number that is given stays the number of a file. -/
theorem ids_after (fs : FileSet) (steps : List Step) :
    (fs.after steps).files.toList.map (·.id) = fs.files.toList.map (·.id) ++ issued fs steps := by
  induction steps generalizing fs with
  | nil => simp [after, issued]
  | cons s steps ih =>
      refine (ih (s.run fs)).trans ?_
      rw [issued, ← List.append_assoc]
      congr 1
      cases hPath : s.path? with
      | none =>
          have hFiles := (Step.run_of_path?_eq_none hPath fs).2
          apply List.ext_getElem?
          intro i
          simpa [Function.comp_def] using congrArg (Option.map Prod.fst) (hFiles i)
      | some path =>
          obtain ⟨f, hFile, hId, -⟩ := Step.exists_file? hPath fs.nextId
          rw [Step.run_of_file? hFile]
          simp [hId]

/-! ## Replacing tokens -/

theorem replace_of_get?_eq_none (h : fs.get? id = none) (tokens : Stream) :
    fs.replace id tokens = fs := by
  have hFiles : (fs.replace id tokens).files = fs.files := by
    apply Array.ext_getElem?
    intro i
    rw [getElem?_replace]
    by_cases hi : id.toNat = i
    · subst hi
      have hNone : fs.files[id.toNat]? = none := h
      rw [hNone]
      rfl
    · simp [hi]
  have hRest : fs.replace id tokens = { fs with files := (fs.replace id tokens).files } := rfl
  rw [hRest, hFiles]

theorem get?_replace (fs : FileSet) (id : UInt32) (tokens : Stream) (other : UInt32) :
    (fs.replace id tokens).get? other = (fs.get? other).map fun f =>
      if id = other then
        { f with
          tokens := tokens
          hash := Digest.sha256 tokens.source
          flags := { f.flags with modified := true } }
      else f := by
  simp only [← UInt32.toNat_inj]
  exact getElem?_replace fs id tokens other.toNat

/-! ## One file through steps -/

/-- What becomes of a file when it is given tokens, one after the other: it has the last ones, and
it is marked if there were any. All that names it stays. -/
structure Version (given : List Stream) (f f' : SourceFile) : Prop where
  id : f'.id = f.id
  path : f'.path = f.path
  origin : f'.origin = f.origin
  isVirtual : f'.flags.isVirtual = f.flags.isVirtual
  tokens : f'.tokens = given.getLast?.getD f.tokens
  modified : f'.flags.modified = (f.flags.modified || !given.isEmpty)

theorem version_nil (f : SourceFile) : Version [] f f := by
  constructor <;> simp

theorem Version.append {given more : List Stream} {f'' : SourceFile} (h : Version given f f')
    (h' : Version more f' f'') : Version (given ++ more) f f'' where
  id := h'.id.trans h.id
  path := h'.path.trans h.path
  origin := h'.origin.trans h.origin
  isVirtual := h'.isVirtual.trans h.isVirtual
  tokens := by
    rw [h'.tokens, h.tokens, List.getLast?_append, Option.getD_or]
  modified := by
    rw [h'.modified, h.modified, Bool.or_assoc]
    cases given <;> simp

theorem version_run (hf : fs.get? id = some f) (s : Step) :
    ∃ f', (s.run fs).get? id = some f' ∧ Version (s.tokensFor? id).toList f f' := by
  have hBound : id.toNat < fs.files.size := (Array.getElem?_eq_some_iff.mp hf).1
  have hPush (g : SourceFile) : (fs.files.push g)[id.toNat]? = some f := by
    rw [Array.getElem?_push, if_neg (by omega)]
    exact hf
  cases s with
  | add path origin tokens flags => exact ⟨f, hPush _, version_nil f⟩
  | addVirtual name tokens => exact ⟨f, hPush _, version_nil f⟩
  | rebase baseDir => exact ⟨f, hf, version_nil f⟩
  | replace other tokens =>
      have hGet := get?_replace fs other tokens id
      rw [hf, Option.map_some] at hGet
      by_cases hSame : other = id
      · rw [if_pos hSame] at hGet
        refine ⟨_, hGet, ?_⟩
        constructor <;> simp [Step.tokensFor?, hSame]
      · rw [if_neg hSame] at hGet
        refine ⟨f, hGet, ?_⟩
        simpa [Step.tokensFor?, hSame] using version_nil f

theorem version_after (hf : fs.get? id = some f) (steps : List Step) :
    ∃ f', (fs.after steps).get? id = some f' ∧ Version (replacements id steps) f f' := by
  induction steps generalizing fs f with
  | nil => exact ⟨f, hf, version_nil f⟩
  | cons s steps ih =>
      obtain ⟨f', hf', hStep⟩ := version_run hf s
      obtain ⟨f'', hf'', hRest⟩ := ih hf'
      have hSplit : replacements id (s :: steps) =
          (s.tokensFor? id).toList ++ replacements id steps := by
        cases hTokens : s.tokensFor? id <;> simp [replacements, hTokens]
      rw [hSplit]
      exact ⟨f'', hf'', hStep.append hRest⟩

/-! ## All steps -/

/-- What is known of the file set `fs` that steps lead to from `start`. -/
structure History (start : FileSet) (steps : List Step) (fs : FileSet) : Prop where
  size : fs.size = (addedPaths steps).length
  id : ∀ (i : Nat) f, fs.files[i]? = some f → f.id.toNat = i
  path : ∀ i : Nat, fs.files[i]?.map (·.path) = (addedPaths steps)[i]?.map Path.clean
  get?_eq_none_iff : ∀ id, fs.get? id = none ↔ fs.size ≤ id.toNat
  hash : ∀ f ∈ fs.files, f.hash = Digest.sha256 f.tokens.source
  /-- The numbers given are those of the files, and none is given twice. -/
  issued : issued start steps = fs.files.toList.map (·.id) ∧ (issued start steps).Nodup
  /-- A path leads to the file with the greatest number among those of the same path. -/
  byPath : ∀ path, Newest ((addedPaths steps).map Path.clean) (Path.clean path)
      ((fs.getByPath? path).map (·.id)) ∧
    ∀ f, fs.getByPath? path = some f → fs.get? f.id = some f
  /-- A file that is added can be had by its number. -/
  added : ∀ before s rest f, steps = before ++ s :: rest →
    s.file? (start.after before).nextId = some f → (start.after (before ++ [s])).get? f.id = some f
  /-- A file that could be had by a number can still be had by it. -/
  stays : ∀ before rest id f, steps = before ++ rest → (start.after before).get? id = some f →
    ∃ f', fs.get? id = some f' ∧ Version (replacements id rest) f f'
  /-- Other tokens for a file change its tokens, its digest and its mark, and nothing else. -/
  replace : ∀ id tokens,
    fs.replace id tokens = { fs with files := (fs.replace id tokens).files } ∧
      (fs.replace id tokens).size = fs.size ∧
      (fs.get? id = none → fs.replace id tokens = fs) ∧
      ∀ other, (fs.replace id tokens).get? other = (fs.get? other).map fun f =>
        if id = other then
          { f with
            tokens := tokens
            hash := Digest.sha256 tokens.source
            flags := { f.flags with modified := true } }
        else f

/-- Whatever is done with an empty file set, its files, its index and its digests agree, and every
file stays what its number stands for. -/
theorem history_of_steps (baseDir workDir : Text) (steps : List Step)
    (hSize : (addedPaths steps).length < 2 ^ 32) :
    History { baseDir := baseDir, workDir := workDir } steps
      (after { baseDir := baseDir, workDir := workDir } steps) := by
  have hTracks := tracks_after (tracks_empty baseDir workDir) steps hSize
  have hBuilt := built_after (.empty baseDir workDir) steps
  rw [List.nil_append] at hTracks
  constructor
  case size => exact hTracks.size
  case id => exact fun i f hf => hTracks.id_of_getElem? hSize hf
  case path => exact fun i => ((List.getElem?_map).symm.trans (hTracks.getElem?_keys i)).symm
  case get?_eq_none_iff => exact fun id => Array.getElem?_eq_none_iff
  case hash => exact fun f hf => hBuilt.hash_eq hf
  case issued =>
    have hIds := ids_after { baseDir := baseDir, workDir := workDir } steps
    have hIssued := hIds.trans (List.nil_append _)
    exact ⟨hIssued.symm, hIssued ▸ hTracks.nodup_ids hSize⟩
  case byPath => exact hTracks.getByPath? hSize
  case added =>
    intro before s rest f hSplit hFile
    have hBefore : (addedPaths before).length < 2 ^ 32 := by
      rw [hSplit, addedPaths, List.filterMap_append, List.length_append] at hSize
      exact Nat.lt_of_le_of_lt (Nat.le_add_right _ _) hSize
    have hSmall := (tracks_after (tracks_empty baseDir workDir) before hBefore).size
    rw [after_append]
    exact Step.get?_run_of_file? hFile (hSmall ▸ hBefore)
  case stays =>
    intro before rest id f hSplit hf
    rw [hSplit, after_append]
    exact version_after hf rest
  case replace =>
    exact fun id tokens => ⟨rfl, Array.size_modify,
      fun h => replace_of_get?_eq_none h tokens, get?_replace _ id tokens⟩

/-- A path is added in two spellings, then the older version is given other tokens, and so is a file
that does not exist. -/
theorem history_of_two_versions :
    let steps : List Step := [.add "a//b" [] [{ content := "x" }] {},
      .addVirtual "./a/b" [{ content := "y" }], .replace 0 [{ content := "z" }], .replace 9 []]
    (addedPaths steps).length < 2 ^ 32 ∧
      ((after {} steps).getByPath? "a/c/../b").map (·.id) = some 1 ∧
      ((after {} steps).get? 0).map (·.tokens) = some [{ content := "z" }] ∧
      History {} steps (after {} steps) := by
  intro steps
  have hSize : (addedPaths steps).length < 2 ^ 32 := by decide
  exact ⟨hSize, by decide, by decide, history_of_steps [] [Path.slash] steps hSize⟩

end TokenLint.FileSet
