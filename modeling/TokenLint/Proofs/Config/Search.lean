import Mathlib.Tactic.SplitIfs
import TokenLint.Config
import TokenLint.Proofs.Path.Ancestors

/-!
# The settings file that governs a path

The search goes up from a directory and stops at the first settings file that is not missing. So
what it says is told by the nearest such file, and nothing is found only if all of them are missing,
the one in the root included. Nothing is assumed about the file system: what is asked about a path
may have any answer.

* `outcome_searchFrom`: what a search says, by induction on the way up.
* `Outcome.unique`: there is one answer.
* `findWith_nearest`: the settings file that governs a path is the nearest one.
* `mem_candidates_iff`: the files that may govern a path are those the search may come to.
* `discover_eq_notFound_iff`: when a project is said to have no settings.
-/

namespace TokenLint.Config

variable {stat : Text → Except DiskError Entry} {here a b p : Text}
  {r r' : Except ConfigError (Option Text)}

/-! ## The nearest file -/

/-- The settings file of a directory. -/
def fileIn (dir : Text) : Text := Path.join [dir, fileName]

/-- The answer is that nothing is there. -/
def Missing (stat : Text → Except DiskError Entry) (p : Text) : Prop :=
  ∃ e, stat p = .error e ∧ e.reason = .notExist

theorem not_missing_of_ok {e : Entry} (h : stat p = .ok e) : ¬ Missing stat p := by
  rintro ⟨e', hError, -⟩
  cases h.symm.trans hError

theorem not_missing_of_error {e : DiskError} (h : stat p = .error e) (hReason : e.reason ≠ .notExist) :
    ¬ Missing stat p := by
  rintro ⟨e', hError, hReason'⟩
  cases h.symm.trans hError
  exact hReason hReason'

/-- Of the directories from `here` up to the root, `a` is the nearest one whose settings file is not
missing: the others are above it. -/
structure Nearest (stat : Text → Except DiskError Entry) (here a : Text) : Prop where
  atOrAbove : Path.AtOrAbove a here
  present : ¬ Missing stat (fileIn a)
  nearest : ∀ b, Path.AtOrAbove b here → ¬ Missing stat (fileIn b) → Path.AtOrAbove b a

theorem Nearest.unique (ha : Nearest stat here a) (hb : Nearest stat here b) : a = b :=
  (hb.nearest a ha.atOrAbove ha.present).antisymm (ha.nearest b hb.atOrAbove hb.present)

theorem nearest_self (h : Path.Place p) (hPresent : ¬ Missing stat (fileIn p)) :
    Nearest stat p p :=
  ⟨h.atOrAbove_self, hPresent, fun _ hb _ => hb⟩

theorem Nearest.of_dir (h : Path.Place p) (hMissing : Missing stat (fileIn p))
    (hNearest : Nearest stat (Path.dir p) a) : Nearest stat p a := by
  refine ⟨hNearest.atOrAbove.trans h.dir_atOrAbove, hNearest.present, ?_⟩
  intro b hb hPresent
  rcases h.atOrAbove_iff.mp hb with rfl | hUp
  · exact absurd hMissing hPresent
  · exact hNearest.nearest b hUp hPresent

/-! ## What a search says -/

/-- What is to be said about the settings files from `here` up to the root. -/
inductive Outcome (stat : Text → Except DiskError Entry) (here : Text) :
    Except ConfigError (Option Text) → Prop
  | found {a : Text} {e : Entry} (nearest : Nearest stat here a) (answer : stat (fileIn a) = .ok e) :
      Outcome stat here (.ok (some (fileIn a)))
  | stuck {a : Text} {e : DiskError} (nearest : Nearest stat here a)
      (answer : stat (fileIn a) = .error e) : Outcome stat here (.error (.stuck (fileIn a) e))
  | nothing (missing : ∀ a, Path.AtOrAbove a here → Missing stat (fileIn a)) :
      Outcome stat here (.ok none)

/-- What the answer about the settings file of a directory means for a search. -/
def verdict (stat : Text → Except DiskError Entry) (dir : Text) :
    Except ConfigError (Option Text) :=
  match stat (fileIn dir) with
  | .ok _ => .ok (some (fileIn dir))
  | .error e => .error (.stuck (fileIn dir) e)

theorem Outcome.eq_verdict (h : Outcome stat here r) (hNearest : Nearest stat here a) :
    r = verdict stat a := by
  cases h with
  | found nearest answer =>
      cases nearest.unique hNearest
      rw [verdict, answer]
  | stuck nearest answer =>
      cases nearest.unique hNearest
      rw [verdict, answer]
  | nothing missing => exact absurd (missing a hNearest.atOrAbove) hNearest.present

theorem Outcome.eq_none (h : Outcome stat here r)
    (hMissing : ∀ a, Path.AtOrAbove a here → Missing stat (fileIn a)) : r = .ok none := by
  cases h with
  | found nearest _ => exact absurd (hMissing _ nearest.atOrAbove) nearest.present
  | stuck nearest _ => exact absurd (hMissing _ nearest.atOrAbove) nearest.present
  | nothing _ => rfl

theorem Outcome.unique (h : Outcome stat here r) (h' : Outcome stat here r') : r = r' := by
  cases h with
  | found nearest answer => rw [h'.eq_verdict nearest, verdict, answer]
  | stuck nearest answer => rw [h'.eq_verdict nearest, verdict, answer]
  | nothing missing => exact (h'.eq_none missing).symm

/-- Where the settings file is missing, the directory above decides. -/
theorem Outcome.of_dir (h : Path.Place p) (hMissing : Missing stat (fileIn p))
    (hUp : Outcome stat (Path.dir p) r) : Outcome stat p r := by
  cases hUp with
  | found nearest answer => exact .found (nearest.of_dir h hMissing) answer
  | stuck nearest answer => exact .stuck (nearest.of_dir h hMissing) answer
  | nothing missing =>
      apply Outcome.nothing
      intro b hb
      rcases h.atOrAbove_iff.mp hb with rfl | hAbove
      · exact hMissing
      · exact missing b hAbove

theorem outcome_searchFrom (h : Path.Place p) : Outcome stat p (searchFrom stat p) := by
  fun_induction searchFrom stat p with
  | case1 dir candidate e hAnswer =>
      exact .found (nearest_self h (not_missing_of_ok hAnswer)) hAnswer
  | case2 dir candidate e hAnswer hReason =>
      exact .stuck (nearest_self h (not_missing_of_error hAnswer hReason)) hAnswer
  | case3 dir candidate e hAnswer hReason hDir =>
      apply Outcome.nothing
      intro b hb
      rw [h.eq_root_of_dir_eq hDir] at hb
      rw [hb.eq_root, ← h.eq_root_of_dir_eq hDir]
      exact ⟨e, hAnswer, Decidable.not_not.mp hReason⟩
  | case4 dir candidate e hAnswer hReason _ ih =>
      exact (ih h.dir).of_dir h ⟨e, hAnswer, Decidable.not_not.mp hReason⟩

theorem searchFrom_eq_iff (h : Path.Place p) : searchFrom stat p = r ↔ Outcome stat p r :=
  ⟨fun hEq => hEq ▸ outcome_searchFrom h, fun hOutcome => (outcome_searchFrom h).unique hOutcome⟩

/-! ## Where a search starts -/

/-- The path a search is asked about: the working directory if it is not told. -/
def given (workDir start : Text) : Text := Path.absolute workDir (if start = [] then "." else start)

theorem place_given {workDir : Text} (hWork : Path.isAbsolute workDir = true) (start : Text) :
    Path.Place (given workDir start) := by
  apply Path.place_absolute hWork
  split
  · decide
  · assumption

theorem startDir_of_file {workDir start data : Text}
    (h : stat (given workDir start) = .ok (.file data)) :
    startDir stat workDir start = Path.dir (given workDir start) := by
  unfold startDir
  dsimp only
  rw [← given, h]

theorem startDir_of_not_file {workDir start : Text}
    (h : ¬ ∃ data, stat (given workDir start) = .ok (.file data)) :
    startDir stat workDir start = given workDir start := by
  unfold startDir
  dsimp only
  rw [← given]
  split
  · rename_i data hFile
    exact absurd ⟨data, hFile⟩ h
  · rfl

theorem place_startDir {workDir : Text} (hWork : Path.isAbsolute workDir = true) (start : Text) :
    Path.Place (startDir stat workDir start) := by
  by_cases hFile : ∃ data, stat (given workDir start) = .ok (.file data)
  · obtain ⟨data, hData⟩ := hFile
    rw [startDir_of_file hData]
    exact (place_given hWork start).dir
  · rw [startDir_of_not_file hFile]
    exact place_given hWork start

/-! ## Files a search may come to -/

theorem mem_upward {es fs : List Text} : fs ∈ upward es ↔ fs <:+ es := by
  induction es with
  | nil => rw [upward, List.mem_singleton, List.suffix_nil]
  | cons e es ih => rw [upward, List.mem_cons, ih, List.suffix_cons_iff]

/-- The files that may govern a path are those of the directories from there up to the root. -/
theorem mem_candidates_iff (h : Path.Place here) {c : Text} :
    c ∈ candidates here ↔ ∃ a, Path.AtOrAbove a here ∧ c = fileIn a := by
  unfold candidates
  rw [List.mem_map]
  constructor
  · rintro ⟨es, hes, rfl⟩
    have hPrefix : es.reverse <+: Path.cleanElements here := by
      have hReversed := List.reverse_prefix.mpr (mem_upward.mp hes)
      rwa [List.reverse_reverse] at hReversed
    have hPlain : ∀ e ∈ es.reverse, Path.Plain e := fun e he => h.plain e (hPrefix.subset he)
    refine ⟨Path.ofElements true es.reverse, ⟨Path.place_ofElements hPlain, ?_⟩, rfl⟩
    rwa [Path.cleanElements_ofElements hPlain]
  · rintro ⟨a, hAbove, rfl⟩
    refine ⟨(Path.cleanElements a).reverse, ?_, ?_⟩
    · exact mem_upward.mpr (List.reverse_suffix.mpr hAbove.isPrefix)
    · rw [List.reverse_reverse, ← hAbove.place.eq_ofElements]
      rfl

/-! ## Projects without settings -/

theorem load_ne_notFound (d : Disk) (path : Text) : load d path ≠ .error .notFound := by
  unfold load
  split
  · intro hEq
    cases hEq
  · unfold parse
    split
    · intro hEq
      cases hEq
    · dsimp only
      split_ifs <;> intro hEq <;> cases hEq

/-- A project has no settings if and only if no directory on the way up has a settings file. -/
theorem discover_eq_notFound_iff (d : Disk) (hWork : Path.isAbsolute d.workDir = true)
    (start : Text) :
    discover d start = .error .notFound ↔
      ∀ a, Path.AtOrAbove a (startDir d.stat d.workDir start) → Missing d.stat (fileIn a) := by
  have hOutcome : Outcome d.stat (startDir d.stat d.workDir start) (find d start) :=
    outcome_searchFrom (place_startDir hWork start)
  unfold discover
  generalize find d start = r at hOutcome
  cases hOutcome with
  | found nearest answer =>
      constructor
      · intro hEq
        exact absurd hEq (load_ne_notFound d _)
      · intro missing
        exact absurd (missing _ nearest.atOrAbove) nearest.present
  | stuck nearest answer =>
      constructor
      · intro hEq
        cases hEq
      · intro missing
        exact absurd (missing _ nearest.atOrAbove) nearest.present
  | nothing missing => exact ⟨fun _ => missing, fun _ => rfl⟩

/-! ## The file that governs a path -/

/-- A search goes up from the given path, or from the directory of a file, until it is at the root.
It finds the settings file of the nearest directory whose one is not missing, or gets stuck there,
and it finds none if and only if all of them are missing. -/
theorem findWith_nearest (stat : Text → Except DiskError Entry) {workDir : Text}
    (hWork : Path.isAbsolute workDir = true) (start : Text) :
    let path := given workDir start
    let here := startDir stat workDir start
    ((∃ data, stat path = .ok (.file data)) →
      Path.Place here ∧ Path.cleanElements here = (Path.cleanElements path).dropLast) ∧
    ((¬ ∃ data, stat path = .ok (.file data)) → Path.Place here ∧ here = path) ∧
    (Path.AtOrAbove [Path.slash] here ∧
      ∀ a, Path.AtOrAbove a here ↔ ∃ n, Path.dir^[n] here = a) ∧
    (∀ c, findWith stat workDir start = .ok (some c) ↔
      ∃ a e, Nearest stat here a ∧ c = fileIn a ∧ stat (fileIn a) = .ok e) ∧
    (∀ err, findWith stat workDir start = .error err ↔
      ∃ a e, Nearest stat here a ∧ err = .stuck (fileIn a) e ∧ stat (fileIn a) = .error e) ∧
    (findWith stat workDir start = .ok none ↔
      ∀ a, Path.AtOrAbove a here → Missing stat (fileIn a)) := by
  intro path here
  have hHere : Path.Place here := place_startDir hWork start
  refine ⟨?_, ?_, ⟨Path.root_atOrAbove here, fun a => hHere.atOrAbove_iff_exists_iterate⟩,
    fun c => ?_, fun err => ?_, ?_⟩
  · rintro ⟨data, hData⟩
    have hDir : here = Path.dir path := startDir_of_file hData
    exact ⟨hHere, hDir ▸ (place_given hWork start).cleanElements_dir⟩
  · intro hFile
    exact ⟨hHere, startDir_of_not_file hFile⟩
  · rw [findWith, searchFrom_eq_iff hHere]
    constructor
    · intro hOutcome
      cases hOutcome with
      | found nearest answer => exact ⟨_, _, nearest, rfl, answer⟩
    · rintro ⟨a, e, nearest, rfl, answer⟩
      exact .found nearest answer
  · rw [findWith, searchFrom_eq_iff hHere]
    constructor
    · intro hOutcome
      cases hOutcome with
      | stuck nearest answer => exact ⟨_, _, nearest, rfl, answer⟩
    · rintro ⟨a, e, nearest, rfl, answer⟩
      exact .stuck nearest answer
  · rw [findWith, searchFrom_eq_iff hHere]
    constructor
    · intro hOutcome
      cases hOutcome with
      | nothing missing => exact missing
    · exact .nothing

/-- A project with settings at the top, and a dump in a directory that has none of its own. -/
def sampleProject : Disk where
  workDir := "/srv/site"
  entries := [("/srv", .directory), ("/srv/site", .directory), ("/srv/site/ext", .directory),
    ("/srv/site/typo3update.toml", .file []), ("/srv/site/ext/a.tokens.json", .file [])]

theorem findWith_nearest_sampleProject :
    Path.isAbsolute sampleProject.workDir = true ∧
      findWith sampleProject.stat sampleProject.workDir "ext/a.tokens.json" =
        .ok (some "/srv/site/typo3update.toml") := by
  have hWork : Path.isAbsolute sampleProject.workDir = true := by decide
  have hTop : Path.Place "/srv/site" := ⟨by decide, by decide⟩
  have hStart : startDir sampleProject.stat sampleProject.workDir "ext/a.tokens.json" =
      "/srv/site/ext" := by decide
  have hMissing : Missing sampleProject.stat (fileIn "/srv/site/ext") :=
    ⟨⟨"stat", fileIn "/srv/site/ext", .notExist⟩, by decide, rfl⟩
  have hAnswer : sampleProject.stat (fileIn "/srv/site") = .ok (.file []) := by decide
  have hNearest : Nearest sampleProject.stat "/srv/site/ext" "/srv/site" :=
    (nearest_self hTop (not_missing_of_ok hAnswer)).of_dir ⟨by decide, by decide⟩ hMissing
  refine ⟨hWork, ?_⟩
  obtain ⟨-, -, -, hFound, -⟩ :=
    findWith_nearest sampleProject.stat hWork (Text.ofString "ext/a.tokens.json")
  rw [hFound, hStart]
  exact ⟨"/srv/site", .file [], hNearest, by decide, hAnswer⟩

end TokenLint.Config
