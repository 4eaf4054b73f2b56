import TokenLint.Proofs.Rule.Relocation
import TokenLint.Proofs.Run.Loading

/-!
# Files processed together and alone

Files of a list are processed by workers that take turns in any order, and files that cannot be
loaded shift the numbers of those after them. A file still gets the result that it has alone:

* `baseView_loaded`: rules see a file of a list as they see it alone, but for its number.
* `results_eq_alone`: the results of a run are those of runs over single files.
-/

namespace TokenLint.ObjectManager

/-- A file set that holds a single dump, shown relative to a directory of its own. -/
def onlyFile (home path : Text) (dump : Dump) : FileSet :=
  FileSet.add { baseDir := home } path dump.path dump.tokens {}

/-- The bag of a dump that is processed alone. -/
def bagAlone (s : Settings) (max : Int) (home path : Text) (dump : Dump) : Bag :=
  (Run.processFile (.ofList [some (rule s)]) max (onlyFile home path dump) 0 fun _ => false).bag

theorem get?_onlyFile (home path : Text) (dump : Dump) :
    (onlyFile home path dump).get? 0 = some (Run.sourceFile 0 path dump) := rfl

/-- Rules see a file of a list as they see it alone, but for its number. -/
theorem baseView_loaded {fs : FileSet} {file : UInt32} {path : Text} {dump : Dump} (home : Text)
    (hFile : fs.get? file = some (Run.sourceFile file path dump)) :
    Run.baseView fs file = { Run.baseView (onlyFile home path dump) 0 with file := file } := by
  simp only [Run.baseView, FileSet.pathOf, hFile, get?_onlyFile]
  rfl

theorem relocatable_of_mem_forKind (s : Settings) (k : Kind) :
    ∀ r ∈ Registry.forKind (.ofList [some (rule s)]) k, r.Relocatable := by
  intro r hr
  rw [Registry.forKind_ofList] at hr
  have hRule : r ∈ [rule s] := (List.mem_filter.mp hr).1
  rw [List.mem_singleton.mp hRule]
  exact relocatable_rule s

/-- The bag of a file of a list is the one it has alone, moved to the file. -/
theorem bag_resultOf {s : Settings} {plan : Run.Plan}
    (hRules : plan.rules = .ofList [some (rule s)]) {job : Run.Job} {file : UInt32}
    (hLoaded : job.loaded = .ok file) {path : Text} {dump : Dump}
    (hFile : plan.files.get? file = some (Run.sourceFile file path dump)) (home : Text) :
    (Run.resultOf plan job).bag = (bagAlone s plan.max home path dump).relocate file := by
  have hView := baseView_loaded home hFile
  have hBase : (Run.baseView (onlyFile home path dump) 0).file = 0 := rfl
  have hKinds := relocatable_of_mem_forKind s
  rw [bagAlone, Run.bag_processFile_eq_collect, ← Run.collect_relocate,
    ← Run.findingsFrom_relocate hKinds hBase, ← hView]
  · simp only [Run.resultOf, hLoaded, Run.fileResult, Run.findingsOf, hRules, hView]
  · exact fun d => Run.file_of_mem_findingsFrom hKinds hBase

/-- A run over files gives each file the result it has alone, whatever the order in which the
workers take turns and however many may be busy. If no worker is left out for ever, all are done
some time. Then nothing has been cancelled and there is a result for each path, in order. A file that
could not be loaded has the reason and an empty bag. Another one has the bag that its dump has alone,
in which the number of the file is put in the place of 0: the number of files before it that could be
loaded. -/
theorem results_eq_alone (s : Settings) (max limit : Int) (disk : Disk) (baseDir home : Text)
    (paths : List Text) :
    let plan := Run.Plan.ofPaths (.ofList [some (rule s)]) max limit disk baseDir paths
    (∀ turn, Run.Fair paths.length turn → ∃ n, (Run.Pool.after plan turn n).isOver = true) ∧
      ∀ schedule, ((Run.Pool.start plan).run plan schedule).isOver = true →
        let outcome := Run.Outcome.ofPool plan ((Run.Pool.start plan).run plan schedule)
        outcome.cancelled = false ∧ outcome.results.length = paths.length ∧
          ∀ (i : Nat) (path : Text), paths[i]? = some path →
            ∃ r, outcome.results[i]? = some r ∧ r.path = path ∧
              match disk.readDump path with
              | .error e => r.error = some e ∧ r.bag = Bag.ofCapacity max
              | .ok dump => r.error = none ∧
                  ∀ file : UInt32, file.toNat = Run.loadedBefore disk paths i →
                    r.file = file ∧ r.bag = (bagAlone s max home path dump).relocate file := by
  intro plan
  refine ⟨fun turn => Run.exists_isOver_ofPaths, ?_⟩
  intro schedule hOver outcome
  obtain ⟨hResults, hCancelled⟩ := Run.outcome_of_isOver rfl hOver
  have hLength : outcome.results.length = paths.length := by
    rw [hResults, List.length_map]
    exact Run.Loading.length_jobs_ofPaths disk baseDir paths
  refine ⟨hCancelled, hLength, fun i path hPath => ?_⟩
  refine ⟨_, Run.getElem?_results_ofPaths hOver hPath, ?_⟩
  cases hRead : disk.readDump path with
  | error e => exact ⟨rfl, rfl, rfl⟩
  | ok dump =>
      refine ⟨rfl, rfl, fun file hNumber => ?_⟩
      -- the number that the file was given when it was loaded
      have hId : (Run.loadedBefore disk paths i).toUInt32 = file := by
        rw [← hNumber]
        exact UInt32.ofNat_toNat
      have hFile : plan.files.get? file = some (Run.sourceFile file path dump) := by
        have hAt := Run.Loading.files_ofPaths disk baseDir hPath hRead
        rwa [hId, ← hNumber] at hAt
      rw [hId]
      exact ⟨rfl, @bag_resultOf s plan rfl ⟨path, .ok file⟩ file rfl path dump hFile home⟩

/-- A dump without tokens, an empty file, and a dump of one call of `create` with the name of a class
of the past. -/
def mixedDisk : Disk :=
  { entries := [("/a.tokens.json", .file "[]"), ("/b.tokens.json", .file ""),
      ("/c.tokens.json", .file
        "[[\"T_STRING\",\"create\"],\"(\",[\"T_CONSTANT_ENCAPSED_STRING\",\"'A'\"]]")] }

/-- The dump of the call. -/
def callDump : Dump :=
  { tokens :=
      [{ kind := .identifier, name := "T_STRING", content := "create", line := 1, column := 1 },
        { kind := .openParenthesis, content := "(", line := 1, column := 7 },
        { kind := .stringLiteral, name := "T_CONSTANT_ENCAPSED_STRING", content := "'A'"
          line := 1, column := 8 }] }

/-- Settings in which that class has another name now. -/
def mixedSettings : Settings :=
  { replacement? := some fun name => if name = Text.ofString "A" then some "B" else none }

/-- Three workers take turns. The empty file has no number, so the warning and the error of the last
file stand in file 1. -/
theorem results_eq_alone_mixedDisk :
    let paths : List Text := ["a.tokens.json", "b.tokens.json", "c.tokens.json"]
    let plan := Run.Plan.ofPaths (.ofList [some (rule mixedSettings)]) 9 2 mixedDisk "." paths
    ∃ n, let outcome := Run.Outcome.ofPool plan (Run.Pool.after plan (· % 3) n)
      outcome.results.length = 3 ∧
        (∃ r, outcome.results[1]? = some r ∧ r.error = some (.dump "b.tokens.json" .emptyInput)) ∧
        ∃ r, outcome.results[2]? = some r ∧ r.bag.items.toList.map (·.primary) = [⟨1, 0⟩, ⟨1, 2⟩] := by
  intro paths plan
  have hFirst : mixedDisk.readDump "a.tokens.json" = .ok {} := by
    with_unfolding_all rfl
  have hEmpty : mixedDisk.readDump "b.tokens.json" = .error (.dump "b.tokens.json" .emptyInput) := by
    with_unfolding_all rfl
  have hCall : mixedDisk.readDump "c.tokens.json" = .ok callDump := by
    with_unfolding_all rfl
  have hBefore : Run.loadedBefore mixedDisk paths 2 = 1 := by
    simp [Run.loadedBefore, Run.loads, paths, hFirst, hEmpty, Except.isOk, Except.toBool]
  have hFair : Run.Fair paths.length (· % 3) := by
    intro w hw n
    have hThree : paths.length = 3 := rfl
    have hTurn : (3 * n + w) % 3 = w := by omega
    exact ⟨3 * n + w, by omega, hTurn⟩
  obtain ⟨hEnds, hRun⟩ := results_eq_alone mixedSettings 9 2 mixedDisk "." [] paths
  obtain ⟨n, hOver⟩ := hEnds _ hFair
  obtain ⟨-, hLength, hAt⟩ := hRun _ hOver
  refine ⟨n, hLength, ?_, ?_⟩
  · obtain ⟨r, hr, -, hResult⟩ := hAt 1 _ rfl
    rw [hEmpty] at hResult
    exact ⟨r, hr, hResult.1⟩
  · obtain ⟨r, hr, -, hResult⟩ := hAt 2 _ rfl
    rw [hCall] at hResult
    have hView : Run.baseView (onlyFile [] "c.tokens.json" callDump) 0 =
        { path := "c.tokens.json", tokens := callDump.tokens } := rfl
    refine ⟨r, hr, ?_⟩
    rw [(hResult.2 1 hBefore.symm).2, bagAlone, Run.bag_processFile_eq_collect, hView,
      Bag.relocate, Array.toList_map, Run.collect_items,
      Diagnostic.sort_of_pairwise (by decide +kernel)]
    decide +kernel

end TokenLint.ObjectManager
