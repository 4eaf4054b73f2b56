import Mathlib.Tactic.Common
import TokenLint.Proofs.Run.Collect
import TokenLint.Run.Pool

/-!
# Workers

A run over many files is a pool of workers that take steps in an order nobody controls. As long
as the run is not cancelled, what a worker knows depends on its own file only:

* `Pool.Sound.step`, `Pool.Sound.run`: under every schedule, a worker has gone through a part of
  the tokens of its file and has found what the rules find there, or has the result of its file.
* `Pool.Sound.results_eq`: when all workers are done, there is the result of every file, in order.
* `Pool.isOver_run_inOrder`: workers that come up one after the other are all done in the end.
* `outcome_of_isOver`, `processFiles_results`: the results of a run.
-/

namespace TokenLint.Run

/-- The bag of a file collects what the rules find in its tokens, up to where it is cancelled. -/
theorem bag_processFile_eq_collect (rules : Registry) (max : Int) (fs : FileSet) (id : UInt32)
    (cancelled : Nat → Bool) :
    (processFile rules max fs id cancelled).bag =
      collect max (findingsFrom rules (baseView fs id) cancelled 0 (baseView fs id).tokens) := by
  unfold processFile baseView
  cases hFile : fs.get? id with
  | none => simp [collect_eq, findingsFrom, distinct, firstBy, Diagnostic.sort, room, Bag.ofCapacity]
  | some f => rfl

/-- What the rules find in a file. -/
def findingsOf (plan : Plan) (id : UInt32) : List Diagnostic :=
  findingsFrom plan.rules (baseView plan.files id) (fun _ => false) 0 (baseView plan.files id).tokens

/-- The result for a file. -/
def resultOf (plan : Plan) (job : Job) : FileResult DumpFileError :=
  match job.loaded with
  | .error e => { path := job.path, bag := Bag.ofCapacity plan.max, error := some e }
  | .ok id => fileResult plan.max job.path (baseView plan.files id) (findingsOf plan id)

/-- The number of tokens of a file. -/
def tokenCount (plan : Plan) (job : Job) : Nat :=
  match job.loaded with
  | .ok id => (baseView plan.files id).tokens.length
  | .error _ => 0

/-- What a worker knows when it has got to a stage. -/
def Stage.Holds (plan : Plan) (job : Job) : Stage → Prop
  | .waiting => True
  | .scanning id next left found =>
    job.loaded = .ok id ∧
      found.reverse ++ findingsFrom plan.rules (baseView plan.files id) (fun _ => false) next left =
        findingsOf plan id
  | .finished r => r = resultOf plan job
  | .stopped => False

/-- The number of steps a worker still needs. -/
def Stage.cost (plan : Plan) (job : Job) : Stage → Nat
  | .waiting => tokenCount plan job + 2
  | .scanning _ _ left _ => left.length + 1
  | .finished _ | .stopped => 0

theorem Stage.isOver_of_cost_eq_zero {plan : Plan} {job : Job} {s : Stage}
    (h : s.cost plan job = 0) : s.isOver = true := by
  cases s with
  | waiting => simp [Stage.cost] at h
  | scanning => simp [Stage.cost] at h
  | finished => rfl
  | stopped => rfl

namespace Pool

/-- Every worker knows what its stage says. -/
structure Sound (plan : Plan) (p : Pool) : Prop where
  length : p.stages.length = plan.jobs.length
  holds : ∀ (i : Nat) (s : Stage) (job : Job),
    p.stages[i]? = some s → plan.jobs[i]? = some job → s.Holds plan job

section Steps

variable {plan : Plan} {p : Pool} {worker : Nat} {job : Job} {s : Stage}

theorem step_eq (hStage : p.stages[worker]? = some s) (hJob : plan.jobs[worker]? = some job) :
    (p.step plan worker).stages = p.stages.set worker (p.advance plan worker job s).1 := by
  simp only [step, hStage, hJob]

theorem length_step : (p.step plan worker).stages.length = p.stages.length := by
  unfold step
  split
  · simp
  · rfl

theorem length_run (schedule : List Nat) :
    (p.run plan schedule).stages.length = p.stages.length := by
  induction schedule generalizing p with
  | nil => rfl
  | cons worker schedule ih => exact ih.trans length_step

theorem getElem?_step_of_ne {i : Nat} (h : i ≠ worker) :
    (p.step plan worker).stages[i]? = p.stages[i]? := by
  unfold step
  split
  · exact List.getElem?_set_ne (Ne.symm h)
  · rfl

theorem getElem?_step_self (hStage : p.stages[worker]? = some s)
    (hJob : plan.jobs[worker]? = some job) :
    (p.step plan worker).stages[worker]? = some (p.advance plan worker job s).1 := by
  rw [step_eq hStage hJob, List.getElem?_set_self]
  exact (List.getElem?_eq_some_iff.mp hStage).1

theorem not_cancelled (hNever : plan.cancelAt = none) : p.cancelled plan = false := by
  simp [cancelled, hNever]

/-- What a worker knows after its next step, if the run is not cancelled. -/
theorem holds_advance (hNever : plan.cancelAt = none) (h : s.Holds plan job) :
    (p.advance plan worker job s).1.Holds plan job := by
  cases s with
  | waiting =>
      by_cases hBegin : p.mayBegin plan worker = true
      · simp only [advance, hBegin, not_cancelled hNever, Bool.not_true, Bool.false_eq_true,
          if_false]
        cases hLoaded : job.loaded with
        | error e => simp [Stage.Holds, resultOf, hLoaded]
        | ok id => exact ⟨hLoaded, rfl⟩
      · simp [advance, hBegin, Stage.Holds]
  | scanning id next left found =>
      obtain ⟨hLoaded, hFound⟩ := h
      cases left with
      | nil =>
          rw [findingsFrom, List.append_nil] at hFound
          simp only [advance, Stage.Holds, resultOf, hLoaded, hFound]
      | cons t rest =>
          simp only [advance, not_cancelled hNever, Bool.false_eq_true, if_false, Stage.Holds]
          refine ⟨hLoaded, ?_⟩
          rw [← hFound]
          simp [findingsFrom]
  | finished r => exact h
  | stopped => exact h

/-- A worker that may begin, or has begun, needs a step less after its next one. -/
theorem cost_advance (hBegin : p.mayBegin plan worker = true) :
    (p.advance plan worker job s).1.cost plan job ≤ s.cost plan job - 1 := by
  cases s with
  | waiting =>
      simp only [advance, hBegin, Bool.not_true, Bool.false_eq_true, if_false]
      split
      · simp [Stage.cost]
      · cases hLoaded : job.loaded with
        | error e => simp [Stage.cost]
        | ok id => simp [Stage.cost, tokenCount, hLoaded]
  | scanning id next left found =>
      cases left with
      | nil => simp [advance, Stage.cost]
      | cons t rest =>
          simp only [advance]
          split <;> simp [Stage.cost]
  | finished r => simp [advance, Stage.cost]
  | stopped => simp [advance, Stage.cost]

end Steps

/-! ## Schedules -/

section Schedules

variable {plan : Plan}

theorem sound_start (plan : Plan) : Sound plan (start plan) where
  length := by simp [start]
  holds := by
    intro i s job hStage _
    have hWaiting : s = .waiting := by
      obtain ⟨_, -, hEq⟩ := List.mem_map.mp (List.mem_of_getElem? hStage)
      exact hEq.symm
    rw [hWaiting]
    trivial

theorem Sound.step (hNever : plan.cancelAt = none) {p : Pool} (h : Sound plan p) (worker : Nat) :
    Sound plan (p.step plan worker) where
  length := length_step.trans h.length
  holds := by
    intro i s job hStage hJob
    -- a step changes what one worker knows, and no other
    by_cases hi : i = worker
    · subst hi
      have hBound : i < p.stages.length := by
        rw [← @length_step plan p i]
        exact (List.getElem?_eq_some_iff.mp hStage).1
      have hOld := List.getElem?_eq_getElem hBound
      rw [getElem?_step_self hOld hJob] at hStage
      rw [← Option.some.inj hStage]
      exact holds_advance hNever (h.holds i _ job hOld hJob)
    · rw [getElem?_step_of_ne hi] at hStage
      exact h.holds i s job hStage hJob

/-- No schedule makes a worker know anything else. -/
theorem Sound.run (hNever : plan.cancelAt = none) {p : Pool} (h : Sound plan p)
    (schedule : List Nat) : Sound plan (p.run plan schedule) := by
  induction schedule generalizing p with
  | nil => exact h
  | cons worker schedule ih => exact ih (h.step hNever worker)

/-- When all workers are done, there is the result of every file, in order. -/
theorem Sound.results_eq {p : Pool} (h : Sound plan p) (hOver : p.isOver = true) :
    p.stages = plan.jobs.map fun job => .finished (resultOf plan job) := by
  apply List.ext_getElem?
  intro i
  rw [List.getElem?_map]
  cases hJob : plan.jobs[i]? with
  | none =>
      rw [Option.map_none, List.getElem?_eq_none_iff, h.length, ← List.getElem?_eq_none_iff]
      exact hJob
  | some job =>
      have hi : i < p.stages.length := by
        rw [h.length]
        exact (List.getElem?_eq_some_iff.mp hJob).1
      have hStage := List.getElem?_eq_getElem hi
      have hHolds := h.holds i _ job hStage hJob
      have hDone : p.stages[i].isOver = true :=
        List.all_eq_true.mp hOver _ (List.getElem_mem hi)
      rw [hStage]
      cases hs : p.stages[i] with
      | waiting => simp [hs, Stage.isOver] at hDone
      | scanning => simp [hs, Stage.isOver] at hDone
      | stopped => simp [hs, Stage.Holds] at hHolds
      | finished r =>
          rw [hs] at hHolds
          rw [Option.map_some, show r = resultOf plan job from hHolds]

/-! ## One worker after the other -/

/-- A pool in which the first workers are done and the others have not begun. -/
structure DoneUpTo (plan : Plan) (n : Nat) (p : Pool) : Prop where
  done : ∀ s ∈ p.stages.take n, s.isOver = true
  waiting : p.stages.drop n = (plan.jobs.drop n).map fun _ => .waiting

theorem doneUpTo_start (plan : Plan) : DoneUpTo plan 0 (start plan) :=
  ⟨by simp, by simp [start]⟩

theorem mayBegin_of_done {p : Pool} {worker : Nat} (hLimit : 0 < plan.limit)
    (hDone : ∀ s ∈ p.stages.take worker, s.isOver = true) : p.mayBegin plan worker = true := by
  have hNone : (p.stages.take worker).filter (fun s => !s.isOver) = [] := by simpa using hDone
  simp [mayBegin, hNone, hLimit]

variable (hLimit : 0 < plan.limit)
include hLimit

/-- As long as those before it are done, a worker comes to its end in as many steps as it needs. -/
theorem run_replicate {worker : Nat} {job : Job} (hJob : plan.jobs[worker]? = some job) (n : Nat)
    {p : Pool} {s : Stage} (hStage : p.stages[worker]? = some s)
    (hDone : ∀ s ∈ p.stages.take worker, s.isOver = true) :
    ∃ s', (p.run plan (List.replicate n worker)).stages = p.stages.set worker s' ∧
      s'.cost plan job ≤ s.cost plan job - n := by
  induction n generalizing p s with
  | zero =>
      obtain ⟨hBound, rfl⟩ := List.getElem?_eq_some_iff.mp hStage
      exact ⟨_, (List.set_getElem_self hBound).symm, Nat.le_refl _⟩
  | succ n ih =>
      -- the workers before stay done, so that the worker may begin at each of its turns
      have hBegin := mayBegin_of_done hLimit hDone
      have hCost := @cost_advance plan p worker job s hBegin
      have hNext := step_eq hStage hJob
      have hBefore : (p.step plan worker).stages.take worker = p.stages.take worker := by
        rw [hNext, List.take_set_of_le (Nat.le_refl _)]
      obtain ⟨s', hRun, hLess⟩ := ih (getElem?_step_self hStage hJob) (hBefore ▸ hDone)
      refine ⟨s', ?_, by omega⟩
      rw [List.replicate_succ]
      refine hRun.trans ?_
      rw [hNext, List.set_set]

/-- The turns of a worker bring it from waiting to its end, and leave the others alone. -/
theorem DoneUpTo.next {n : Nat} {job : Job} (hJob : plan.jobs[n]? = some job) {p : Pool}
    (h : DoneUpTo plan n p) :
    DoneUpTo plan (n + 1) (p.run plan (List.replicate (tokenCount plan job + 2) n)) := by
  obtain ⟨hn, hAt⟩ := List.getElem?_eq_some_iff.mp hJob
  have hStage : p.stages[n]? = some .waiting := by
    have hHead : p.stages[n]? = ((plan.jobs.drop n).map fun _ => Stage.waiting)[0]? := by
      rw [← h.waiting, List.getElem?_drop, Nat.add_zero]
    rw [hHead, List.getElem?_map, List.getElem?_drop, Nat.add_zero, hJob, Option.map_some]
  obtain ⟨s', hRun, hCost⟩ := run_replicate hLimit hJob (tokenCount plan job + 2) hStage h.done
  have hOver : s'.isOver = true := by
    refine @Stage.isOver_of_cost_eq_zero plan job s' ?_
    simpa [Stage.cost] using hCost
  constructor
  · rw [hRun, List.take_add_one, List.take_set_of_le (Nat.le_refl n)]
    intro s hs
    rcases List.mem_append.mp hs with hBefore | hHere
    · exact h.done s hBefore
    · rw [List.getElem?_set_self (List.getElem?_eq_some_iff.mp hStage).1] at hHere
      rw [List.mem_singleton.mp hHere]
      exact hOver
  · rw [hRun, List.drop_set_of_lt (by omega), ← List.drop_drop, h.waiting, ← List.map_drop,
      List.drop_drop]

theorem DoneUpTo.isOver_run {n : Nat} {js : List Job} (hjs : plan.jobs.drop n = js) {p : Pool}
    (h : DoneUpTo plan n p) :
    (p.run plan ((js.zipIdx n).flatMap fun q =>
      List.replicate (tokenCount plan q.1 + 2) q.2)).isOver = true := by
  induction js generalizing n p with
  | nil =>
      have hNone : p.stages.drop n = [] := by rw [h.waiting, hjs, List.map_nil]
      have hAll : p.stages.take n = p.stages := by
        rw [← List.append_nil (p.stages.take n), ← hNone, List.take_append_drop]
      refine List.all_eq_true.mpr fun s hs => h.done s ?_
      rw [hAll]
      exact hs
  | cons job js ih =>
      have hJob : plan.jobs[n]? = some job := by
        rw [← Nat.add_zero n, ← List.getElem?_drop, hjs, List.getElem?_cons_zero]
      have hRest : plan.jobs.drop (n + 1) = js := by
        rw [← List.drop_drop, hjs, List.drop_one, List.tail_cons]
      rw [List.zipIdx_cons, List.flatMap_cons, run, List.foldl_append]
      exact ih hRest (h.next hLimit hJob)

theorem isOver_run_inOrder : ((start plan).run plan (inOrder plan)).isOver = true :=
  (doneUpTo_start plan).isOver_run hLimit rfl

end Schedules

end Pool

/-- Under every schedule that brings all workers to their end, a run that is not cancelled gives the
results of its files, in order. -/
theorem outcome_of_isOver {plan : Plan} (hNever : plan.cancelAt = none) {schedule : List Nat}
    (hOver : ((Pool.start plan).run plan schedule).isOver = true) :
    let outcome := Outcome.ofPool plan ((Pool.start plan).run plan schedule)
    outcome.results = plan.jobs.map (resultOf plan) ∧ outcome.cancelled = false := by
  have hStages := ((Pool.sound_start plan).run hNever schedule).results_eq hOver
  constructor
  · simp only [Outcome.ofPool, hStages, List.filterMap_map]
    exact congrFun List.filterMap_eq_map' plan.jobs
  · simp [Outcome.ofPool, hStages, Stage.isStopped]

/-- A run that is not cancelled gives the results of its files, in order. -/
theorem processFiles_results {plan : Plan} (hNever : plan.cancelAt = none) (hLimit : 0 < plan.limit) :
    (processFiles plan).results = plan.jobs.map (resultOf plan) :=
  (outcome_of_isOver hNever (Pool.isOver_run_inOrder hLimit)).1

theorem Plan.limit_ofPaths_pos (rules : Registry) (max limit : Int) (disk : Disk) (baseDir : Text)
    {paths : List Text} (hSome : paths ≠ []) :
    0 < (Plan.ofPaths rules max limit disk baseDir paths).limit := by
  have hLength := List.length_pos_iff.mpr hSome
  simp only [Plan.ofPaths]
  split <;> omega

/-- A run over paths, whatever the limit on busy workers is. -/
theorem processFiles_ofPaths (rules : Registry) (max limit : Int) (disk : Disk) (baseDir : Text)
    (paths : List Text) :
    (processFiles (.ofPaths rules max limit disk baseDir paths)).results =
      (Loading.ofPaths disk baseDir paths).jobs.map
        (resultOf (.ofPaths rules max limit disk baseDir paths)) := by
  cases paths with
  | nil => rfl
  | cons path paths =>
      exact processFiles_results rfl (Plan.limit_ofPaths_pos rules max limit disk baseDir (by simp))

end TokenLint.Run
