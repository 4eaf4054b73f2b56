import Mathlib.Data.List.Induction
import TokenLint.Proofs.Run.Fairness

/-!
# Loading the files of a list

Files are loaded one after the other, and a file that cannot be loaded gets no number. So the
number of a file is the number of files before it that could be loaded:

* `length_jobs_ofPaths`, `getElem?_jobs_ofPaths`: there is a job for each path, in order.
* `files_ofPaths`: a dump stands in the file set under its number.
* `exists_isOver_ofPaths`, `getElem?_results_ofPaths`: a run over paths comes to its end and has a
  result for each path, in order.
-/

namespace TokenLint.Run

theorem getElem?_append_singleton_eq_some {α : Type} {xs : List α} {x y : α} {i : Nat}
    (h : (xs ++ [x])[i]? = some y) : i < xs.length ∧ xs[i]? = some y ∨ i = xs.length ∧ x = y := by
  have hBound := (List.getElem?_eq_some_iff.mp h).1
  rw [List.length_append, List.length_singleton] at hBound
  rcases Nat.lt_succ_iff_lt_or_eq.mp hBound with hi | rfl
  · rw [List.getElem?_append_left hi] at h
    exact Or.inl ⟨hi, h⟩
  · rw [List.getElem?_concat_length, Option.some.injEq] at h
    exact Or.inr ⟨rfl, h⟩

/-- Can a dump be read there? -/
def loads (disk : Disk) (path : Text) : Bool := (disk.readDump path).isOk

/-- How many of the files before the one at a place could be loaded. -/
def loadedBefore (disk : Disk) (paths : List Text) (i : Nat) : Nat :=
  (paths.take i).countP (loads disk)

/-- The file that comes of a dump. -/
def sourceFile (id : UInt32) (path : Text) (dump : Dump) : SourceFile :=
  { id := id, path := Path.clean path, origin := dump.path, tokens := dump.tokens
    hash := Digest.sha256 dump.tokens.source }

theorem loadedBefore_append {disk : Disk} {paths : List Text} (rest : List Text) {i : Nat}
    (hi : i ≤ paths.length) : loadedBefore disk (paths ++ rest) i = loadedBefore disk paths i := by
  rw [loadedBefore, List.take_append_of_le_length hi, loadedBefore]

theorem loadedBefore_length (disk : Disk) (paths : List Text) :
    loadedBefore disk paths paths.length = paths.countP (loads disk) := by
  rw [loadedBefore, List.take_length]

namespace Loading

variable (disk : Disk) (baseDir : Text)

theorem ofPaths_append_singleton (paths : List Text) (path : Text) :
    ofPaths disk baseDir (paths ++ [path]) = (ofPaths disk baseDir paths).add disk path := by
  simp [ofPaths]

variable {disk}

theorem add_of_error (l : Loading) {path : Text} {e : DumpFileError}
    (h : disk.readDump path = .error e) :
    l.add disk path = { l with jobs := l.jobs ++ [⟨path, .error e⟩] } := by
  simp [add, FileSet.load, h, Except.map]

theorem add_of_ok (l : Loading) {path : Text} {dump : Dump} (h : disk.readDump path = .ok dump) :
    l.add disk path =
      { files := l.files.add path dump.path dump.tokens {}
        jobs := l.jobs ++ [⟨path, .ok l.files.nextId⟩] } := by
  simp [add, FileSet.load, h, Except.map]

variable (disk)

theorem size_files_ofPaths (paths : List Text) :
    (ofPaths disk baseDir paths).files.size = paths.countP (loads disk) := by
  induction paths using List.reverseRecOn with
  | nil => rfl
  | append_singleton paths path ih =>
      rw [ofPaths_append_singleton, List.countP_append, ← ih]
      cases h : disk.readDump path with
      | error e =>
          rw [add_of_error _ h]
          simp [loads, h, Except.isOk, Except.toBool]
      | ok dump =>
          rw [add_of_ok _ h]
          simp [loads, h, Except.isOk, Except.toBool, FileSet.add, FileSet.size]

theorem nextId_ofPaths (paths : List Text) :
    (ofPaths disk baseDir paths).files.nextId =
      (loadedBefore disk paths paths.length).toUInt32 := by
  rw [loadedBefore_length, ← size_files_ofPaths disk baseDir]
  rfl

/-- A job keeps the path, and what came of loading it: the number it got or why it got none. -/
theorem jobs_add (paths : List Text) (path : Text) :
    ((ofPaths disk baseDir paths).add disk path).jobs =
      (ofPaths disk baseDir paths).jobs ++ [⟨path, (disk.readDump path).map fun _ =>
        (loadedBefore disk paths paths.length).toUInt32⟩] := by
  cases h : disk.readDump path with
  | error e =>
      rw [add_of_error _ h]
      rfl
  | ok dump =>
      rw [add_of_ok _ h, nextId_ofPaths]
      rfl

theorem length_jobs_ofPaths (paths : List Text) :
    (ofPaths disk baseDir paths).jobs.length = paths.length := by
  induction paths using List.reverseRecOn with
  | nil => rfl
  | append_singleton paths path ih =>
      rw [ofPaths_append_singleton, jobs_add, List.length_append, List.length_append, ih]
      rfl

/-- There is a job for each path, in order. -/
theorem getElem?_jobs_ofPaths {paths : List Text} {i : Nat} {path : Text}
    (hPath : paths[i]? = some path) :
    (ofPaths disk baseDir paths).jobs[i]? = some ⟨path, (disk.readDump path).map fun _ =>
      (loadedBefore disk paths i).toUInt32⟩ := by
  induction paths using List.reverseRecOn with
  | nil => simp at hPath
  | append_singleton paths last ih =>
      have hLength := length_jobs_ofPaths disk baseDir paths
      rw [ofPaths_append_singleton, jobs_add]
      rcases getElem?_append_singleton_eq_some hPath with ⟨hi, hPath⟩ | ⟨rfl, rfl⟩
      · rw [List.getElem?_append_left (hLength ▸ hi), ih hPath,
          loadedBefore_append [last] (Nat.le_of_lt hi)]
      · rw [← hLength, List.getElem?_concat_length, hLength,
          loadedBefore_append [last] (Nat.le_refl _)]

/-- A dump stands in the file set under its number. -/
theorem files_ofPaths {paths : List Text} {i : Nat} {path : Text} {dump : Dump}
    (hPath : paths[i]? = some path) (hDump : disk.readDump path = .ok dump) :
    (ofPaths disk baseDir paths).files.files[loadedBefore disk paths i]? =
      some (sourceFile (loadedBefore disk paths i).toUInt32 path dump) := by
  induction paths using List.reverseRecOn with
  | nil => simp at hPath
  | append_singleton paths last ih =>
      have hSize := size_files_ofPaths disk baseDir paths
      rw [ofPaths_append_singleton]
      rcases getElem?_append_singleton_eq_some hPath with ⟨hi, hPath⟩ | ⟨rfl, rfl⟩
      · -- a file that is added later does not move those before it
        have hOld := ih hPath
        have hBound := (Array.getElem?_eq_some_iff.mp hOld).1
        rw [loadedBefore_append [last] (Nat.le_of_lt hi)]
        cases h : disk.readDump last with
        | error e => rwa [add_of_error _ h]
        | ok dump' =>
            rw [add_of_ok _ h, ← hOld]
            exact Array.getElem?_push_lt hBound ▸ (Array.getElem?_eq_getElem hBound).symm
      · have hNumber := loadedBefore_length disk paths
        rw [← hSize] at hNumber
        rw [loadedBefore_append [last] (Nat.le_refl _), add_of_ok _ hDump, hNumber]
        exact Array.getElem?_push_size

end Loading

section Runs

variable {rules : Registry} {max limit : Int} {disk : Disk} {baseDir : Text} {paths : List Text}

theorem exists_isOver_ofPaths {turn : Nat → Nat} (hFair : Fair paths.length turn) :
    ∃ n, (Pool.after (.ofPaths rules max limit disk baseDir paths) turn n).isOver = true := by
  by_cases hNone : paths = []
  · subst hNone
    exact ⟨0, rfl⟩
  · refine Pool.exists_isOver ?_ (Plan.limit_ofPaths_pos rules max limit disk baseDir hNone)
    rw [← Loading.length_jobs_ofPaths disk baseDir paths] at hFair
    exact hFair

/-- The results stand in the order of the paths, whatever the order of the turns was. -/
theorem getElem?_results_ofPaths {schedule : List Nat}
    (hOver : ((Pool.start (.ofPaths rules max limit disk baseDir paths)).run
      (.ofPaths rules max limit disk baseDir paths) schedule).isOver = true)
    {i : Nat} {path : Text} (hPath : paths[i]? = some path) :
    (Outcome.ofPool (.ofPaths rules max limit disk baseDir paths)
      ((Pool.start (.ofPaths rules max limit disk baseDir paths)).run
        (.ofPaths rules max limit disk baseDir paths) schedule)).results[i]? =
      some (resultOf (.ofPaths rules max limit disk baseDir paths)
        ⟨path, (disk.readDump path).map fun _ => (loadedBefore disk paths i).toUInt32⟩) := by
  have hJob : (Plan.ofPaths rules max limit disk baseDir paths).jobs[i]? = _ :=
    Loading.getElem?_jobs_ofPaths disk baseDir hPath
  rw [(outcome_of_isOver rfl hOver).1, List.getElem?_map, hJob, Option.map_some]

end Runs

end TokenLint.Run
