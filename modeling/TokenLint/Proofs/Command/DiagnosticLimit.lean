import TokenLint.Command.Check
import TokenLint.Proofs.Command.Action
import TokenLint.Proofs.Rule.Emission
import TokenLint.Proofs.Run.Pool

/-!
# Checking under a limit on diagnostics

A check fails if a dump could not be loaded or a bag holds an error. A bag has room for a limited
number of diagnostics, and those that do not fit have no part in the answer. So a check under a
small limit may pass where one under the largest limit fails:

* `checkFails_processFiles_iff`: when the results of a run make a check fail.
* `checkVerdict_eq`: nothing else makes it fail.
* `check_limit_agrees_iff`: a check under a limit and one under the largest limit give the same
  answer, except where warnings use up the room in all files that have errors.
-/

namespace TokenLint

/-! ## Results that make a check fail -/

theorem Report.errors_foldl_count (ds : List Diagnostic) (s : Report.Summary) :
    (ds.foldl Report.Summary.count s).errors = s.errors + ds.countP (·.severity = .error) := by
  induction ds generalizing s with
  | nil => rfl
  | cons d ds ih =>
      have hStep : (s.count d).errors = s.errors + if d.severity = .error then 1 else 0 := by
        unfold Report.Summary.count
        by_cases hFixable : d.fixable = true <;> by_cases hError : d.severity = .error <;>
          simp [hFixable, hError] <;> split <;> rfl
      rw [List.foldl_cons, ih, List.countP_cons, hStep]
      simp only [decide_eq_true_eq]
      omega

namespace Command

theorem reported_default (results : List (Run.FileResult DumpFileError)) :
    reported {} results = Run.diagnostics results := by
  refine (List.filterMap_congr fun d _ => ?_).trans List.filterMap_some
  show (if d.severity ≠ .warning then some d else some d) = some d
  exact ite_self (some d)

/-- A check fails if a file could not be loaded or an error was kept. -/
theorem checkFails_default_iff (results : List (Run.FileResult DumpFileError)) :
    checkFails {} results = true ↔
      (∃ r ∈ results, r.error.isSome = true) ∨
        ∃ r ∈ results, ∃ d ∈ r.bag.items.toList, d.severity = .error := by
  have hErrors : 0 < (Report.summarize (Run.diagnostics results)).errors ↔
      ∃ r ∈ results, ∃ d ∈ r.bag.items.toList, d.severity = .error := by
    rw [Report.summarize, Report.errors_foldl_count, Nat.zero_add, List.countP_pos_iff]
    simp only [Run.diagnostics, List.mem_flatMap, decide_eq_true_eq]
    constructor
    · rintro ⟨d, ⟨r, hr, hd⟩, hError⟩
      exact ⟨r, hr, d, hd, hError⟩
    · rintro ⟨r, hr, d, hd, hError⟩
      exact ⟨d, ⟨r, hr, hd⟩, hError⟩
  rw [checkFails, reported_default, Bool.or_eq_true, decide_eq_true_eq, hErrors, List.any_eq_true]

/-- The dumps that could be loaded, as the rule sees them. -/
def loadedViews (disk : Disk) (base : Text) (paths : List Text) : List RuleView :=
  let l := Run.Loading.ofPaths disk base paths
  l.jobs.filterMap fun job => match job.loaded with
    | .ok id => some { Run.baseView l.files id with rule := ObjectManager.name }
    | .error _ => none

/-- Some dump could not be loaded. -/
def SomeUnreadable (disk : Disk) (base : Text) (paths : List Text) : Prop :=
  ∃ job ∈ (Run.Loading.ofPaths disk base paths).jobs, ∃ e, job.loaded = .error e

theorem mem_loadedViews {disk : Disk} {base : Text} {paths : List Text} {v : RuleView} :
    v ∈ loadedViews disk base paths ↔
      ∃ job ∈ (Run.Loading.ofPaths disk base paths).jobs, ∃ id, job.loaded = .ok id ∧
        v = { Run.baseView (Run.Loading.ofPaths disk base paths).files id with
          rule := ObjectManager.name } := by
  simp only [loadedViews, List.mem_filterMap]
  refine exists_congr fun job => and_congr_right fun _ => ?_
  cases hLoaded : job.loaded with
  | error e => simp
  | ok id => simp [eq_comm]

/-- The bag of a loaded dump holds an error if the warnings leave room for one. -/
theorem exists_error_resultOf_iff {plan : Run.Plan} {checker : Text → Option Text}
    (hRules : plan.rules = ObjectManager.registry checker) {job : Run.Job} {id : UInt32}
    (hLoaded : job.loaded = .ok id) :
    (∃ d ∈ (Run.resultOf plan job).bag.items.toList, d.severity = .error) ↔
      ∃ p, (ObjectManager.reachedName? checker (Run.baseView plan.files id).tokens p).isSome = true ∧
        ObjectManager.warningCount
          { Run.baseView plan.files id with rule := ObjectManager.name } p < Run.room plan.max := by
  have hFindings : Run.findingsOf plan id = ObjectManager.emitted checker
      { Run.baseView plan.files id with rule := ObjectManager.name } := by
    rw [Run.findingsOf, hRules, ObjectManager.findings_eq_flatMap]
    rfl
  simp only [Run.resultOf, hLoaded, Run.fileResult, Run.collect_items,
    (Diagnostic.sort_perm _).mem_iff, hFindings]
  exact ObjectManager.exists_error_kept_iff

/-- When a check under a limit fails. -/
theorem checkFails_processFiles_iff (s : Settings) (m : Int) (disk : Disk) (base : Text)
    (paths : List Text) :
    checkFails {} (Run.processFiles (.ofPaths s.rules m s.jobs disk base paths)).results = true ↔
      SomeUnreadable disk base paths ∨
        ObjectManager.LegacyWithin s.classes.replacement? (loadedViews disk base paths)
          (Run.room m) := by
  rw [Run.processFiles_ofPaths, checkFails_default_iff]
  have hUnreadable : (∃ r ∈ (Run.Loading.ofPaths disk base paths).jobs.map
      (Run.resultOf (.ofPaths s.rules m s.jobs disk base paths)), r.error.isSome = true) ↔
        SomeUnreadable disk base paths := by
    simp only [List.mem_map, exists_exists_and_eq_and, SomeUnreadable]
    refine exists_congr fun job => and_congr_right fun _ => ?_
    cases hLoaded : job.loaded <;> simp [Run.resultOf, hLoaded, Run.fileResult]
  have hErrors : (∃ r ∈ (Run.Loading.ofPaths disk base paths).jobs.map
      (Run.resultOf (.ofPaths s.rules m s.jobs disk base paths)),
        ∃ d ∈ r.bag.items.toList, d.severity = .error) ↔
          ObjectManager.LegacyWithin s.classes.replacement? (loadedViews disk base paths)
            (Run.room m) := by
    simp only [List.mem_map, exists_exists_and_eq_and, ObjectManager.LegacyWithin,
      mem_loadedViews]
    constructor
    · rintro ⟨job, hJob, d, hd, hError⟩
      cases hLoaded : job.loaded with
      | error e => simp [Run.resultOf, hLoaded, Bag.ofCapacity] at hd
      | ok id =>
          obtain ⟨p, hp⟩ := (exists_error_resultOf_iff rfl hLoaded).mp ⟨d, hd, hError⟩
          exact ⟨_, ⟨job, hJob, id, hLoaded, rfl⟩, p, hp⟩
    · rintro ⟨v, ⟨job, hJob, id, hLoaded, rfl⟩, p, hp⟩
      exact ⟨job, hJob, (exists_error_resultOf_iff rfl hLoaded).mpr ⟨p, hp⟩⟩
  rw [hUnreadable, hErrors]

/-! ## The command -/

/-- How a check of a target without severity flags ends. -/
def checkVerdict (s : Settings) (options : Report.Options) (target : Text) (c : Console) :
    Except Failure Unit :=
  ((checkTarget s {} options target).run.run c).1

/-- A check ends with problems if its results say so; until then nothing can fail. -/
theorem checkVerdict_eq {s : Settings} {options : Report.Options} {target : Text}
    {c : Console} {base : Text} {paths : List Text}
    (hTargets : c.disk.targets target = .ok (base, paths)) :
    checkVerdict s options target c =
      if checkFails {} (Run.processFiles (.ofPaths s.rules s.maxDiagnostics s.jobs c.disk base
        paths)).results then .error .problemsFound else .ok () := by
  obtain ⟨c', hRules⟩ := run_runRules s base paths c
  rw [checkVerdict, checkTarget, run_bind_ok (run_targetsOf hTargets)]
  dsimp only
  rw [run_bind_ok hRules, run_bind_ok (run_warn _ _), run_bind_ok (run_print _ _),
    run_bind_ok (run_phase _ _ _)]
  obtain ⟨c'', hTimings⟩ := run_printTimings s.timed _
  rw [run_bind_ok hTimings]
  split <;> rfl

theorem room_natCast {m : Nat} (hm : 1 ≤ m) : Run.room m = min m 65535 := by
  have hLargest : Bag.largest = 65535 := rfl
  simp only [Run.room, Bag.ofCapacity, hLargest, Bool.or_eq_true, decide_eq_true_eq]
  split <;> omega

/-- When a check under a limit ends with problems. -/
theorem checkVerdict_problemsFound_iff (s : Settings) (options : Report.Options) {target : Text}
    {c : Console} {base : Text} {paths : List Text} {m : Nat}
    (hTargets : c.disk.targets target = .ok (base, paths)) (hm : 1 ≤ m) :
    checkVerdict { s with maxDiagnostics := m } options target c = .error .problemsFound ↔
      SomeUnreadable c.disk base paths ∨
        ObjectManager.LegacyWithin s.classes.replacement? (loadedViews c.disk base paths)
          (min m 65535) := by
  have hVerdict : checkVerdict { s with maxDiagnostics := m } options target c =
      if checkFails {} (Run.processFiles (.ofPaths s.rules m s.jobs c.disk base paths)).results
      then .error .problemsFound else .ok () := checkVerdict_eq hTargets
  rw [← room_natCast hm, ← checkFails_processFiles_iff, hVerdict]
  cases checkFails {} (Run.processFiles (.ofPaths s.rules m s.jobs c.disk base paths)).results with
  | true => simp
  | false => simp

/-- A check under a limit ends with problems exactly when a check under the largest limit does,
except where warnings use up the room: no dump is unreadable, some have errors, and in each of
these the warnings up to the first error fill the bag. -/
theorem check_limit_agrees_iff (s : Settings) (options : Report.Options) (target : Text)
    (c : Console) (base : Text) (paths : List Text) (m : Nat)
    (hTargets : c.disk.targets target = .ok (base, paths)) (hm : 1 ≤ m)
    (hAll : ∀ v ∈ loadedViews c.disk base paths,
      (Run.distinct (ObjectManager.emitted s.classes.replacement? v)).length ≤ 65535) :
    (checkVerdict { s with maxDiagnostics := m } options target c = .error .problemsFound ↔
        checkVerdict { s with maxDiagnostics := 65535 } options target c =
          .error .problemsFound) ↔
      SomeUnreadable c.disk base paths ∨
        ¬ ObjectManager.HasLegacy s.classes.replacement? (loadedViews c.disk base paths) ∨
        ObjectManager.LegacyWithin s.classes.replacement? (loadedViews c.disk base paths) m := by
  have hLargest := @checkVerdict_problemsFound_iff s options target c base paths 65535 hTargets
    (by decide)
  rw [Nat.min_self] at hLargest
  rw [checkVerdict_problemsFound_iff s options hTargets hm]
  refine (iff_congr Iff.rfl hLargest).trans ?_
  -- under the largest limit there is room for an error in each dump that has one
  have hLegacy := @ObjectManager.HasLegacy.within s.classes.replacement? _ 65535 hAll
  have hLimit : ObjectManager.LegacyWithin s.classes.replacement? (loadedViews c.disk base paths)
      (min m 65535) ↔
        ObjectManager.LegacyWithin s.classes.replacement? (loadedViews c.disk base paths) m := by
    refine ⟨fun h => h.mono (Nat.min_le_left _ _), fun h => ?_⟩
    rcases Nat.le_total m 65535 with hSmall | hLarge
    · rwa [Nat.min_eq_left hSmall]
    · rw [Nat.min_eq_right hLarge]
      exact hLegacy h.hasLegacy
  have hLarge := @ObjectManager.LegacyWithin.hasLegacy s.classes.replacement?
    (loadedViews c.disk base paths) 65535
  have hKept := @ObjectManager.LegacyWithin.hasLegacy s.classes.replacement?
    (loadedViews c.disk base paths) m
  rw [hLimit]
  tauto

/-- A dump of one call of `create` with the name of a class of the past. -/
def blindedDisk : Disk :=
  { entries := [("/a.tokens.json",
      .file "[[\"T_STRING\",\"create\"],\"(\",[\"T_CONSTANT_ENCAPSED_STRING\",\"'A'\"]]")] }

/-- Its tokens. -/
def blindedTokens : Stream :=
  [{ kind := .identifier, name := "T_STRING", content := "create", line := 1, column := 1 },
    { kind := .openParenthesis, content := "(", line := 1, column := 7 },
    { kind := .stringLiteral, name := "T_CONSTANT_ENCAPSED_STRING", content := "'A'"
      line := 1, column := 8 }]

/-- Settings in which that class has another name now. -/
def blindedSettings : Settings := { classes := .ofPairs [("A", "B")] }

/-- A single dump that can be read. -/
theorem loading_singleton {disk : Disk} (base : Text) {path : Text} {dump : Dump}
    (h : disk.readDump path = .ok dump) :
    (Run.Loading.ofPaths disk base [path]).jobs = [⟨path, .ok 0⟩] ∧
      ∃ v, loadedViews disk base [path] = [v] ∧ v.tokens = dump.tokens := by
  have hLoading : Run.Loading.ofPaths disk base [path] =
      { files := FileSet.add { baseDir := base, workDir := disk.workDir } path dump.path
          dump.tokens {}
        jobs := [⟨path, .ok 0⟩] } := by
    simp only [Run.Loading.ofPaths, List.foldl_cons, List.foldl_nil, Run.Loading.add, FileSet.load,
      h, Except.map]
    rfl
  rw [loadedViews, hLoading]
  exact ⟨rfl, _, rfl, rfl⟩

theorem readDump_blinded :
    blindedDisk.readDump "a.tokens.json" = .ok { tokens := blindedTokens } := by
  decide +kernel

/-- The warning about the call fills a bag for one diagnostic, and the check passes. -/
theorem check_limit_agrees_iff_blinded :
    ¬ (checkVerdict { blindedSettings with maxDiagnostics := 1 } {} "a.tokens.json"
          { disk := blindedDisk } = .error .problemsFound ↔
        checkVerdict { blindedSettings with maxDiagnostics := 65535 } {} "a.tokens.json"
          { disk := blindedDisk } = .error .problemsFound) := by
  have hTargets : blindedDisk.targets "a.tokens.json" = .ok (Text.ofString ".",
      [Text.ofString "a.tokens.json"]) := by decide +kernel
  obtain ⟨hJobs, v, hViews, hTokens⟩ := loading_singleton "." readDump_blinded
  have hName : ObjectManager.reachedName? blindedSettings.classes.replacement? blindedTokens 0 =
      some (2, Text.ofString "B") := by decide +kernel
  have hDeprecated : ObjectManager.IsDeprecated v.tokens 0 := by
    rw [hTokens]
    decide
  have hAll : ∀ w ∈ loadedViews blindedDisk "." [Text.ofString "a.tokens.json"],
      (Run.distinct (ObjectManager.emitted blindedSettings.classes.replacement? w)).length ≤
        65535 := by
    intro w hw
    rw [hViews, List.mem_singleton] at hw
    have hLength := ObjectManager.length_distinct_emitted_le
      blindedSettings.classes.replacement? w
    have hThree : w.tokens.length = 3 := by rw [hw, hTokens]; rfl
    omega
  rintro hAgree
  rcases (check_limit_agrees_iff blindedSettings {} "a.tokens.json" { disk := blindedDisk } "."
    ["a.tokens.json"] 1 hTargets (Nat.le_refl 1) hAll).mp hAgree with
    ⟨job, hJob, e, hError⟩ | hClean | ⟨w, hw, p, -, hRoom⟩
  · rw [hJobs, List.mem_singleton] at hJob
    rw [hJob] at hError
    cases hError
  · refine hClean ⟨v, by rw [hViews]; exact List.mem_singleton_self v, 0, ?_⟩
    rw [hTokens, hName]
    rfl
  · rw [hViews, List.mem_singleton] at hw
    have hFull := @ObjectManager.warningCount_pos v 0 p hDeprecated (Nat.zero_le p)
    rw [hw] at hRoom
    omega

end Command

end TokenLint
