import TokenLint.Proofs.Run.Pool
import TokenLint.Proofs.Run.Reference

/-!
# Runs that are cancelled

A run may be cancelled at any time. From then on no worker begins, and a worker that goes through
the tokens of a file breaks off with what it has found so far. Only the workers that have not begun
make the run fail:

* `findingsFrom_cancelled`: a file that is broken off is one that ends there.
* `advance_cancelledAt`: before it is cancelled, a run goes as if it were not to be cancelled.
* `stages_of_isOver`: after that, every worker ends where it stands.
* `success_is_complete_iff`: when a run that does not fail has the bags of a run that is not
  cancelled.
-/

namespace TokenLint.Run

/-- A plan in which the run is cancelled at a time. -/
def Plan.cancelledAt (plan : Plan) (t : Nat) : Plan := { plan with cancelAt := some t }

/-- The stage in which a worker ends that is at a stage when the run is cancelled. -/
def Stage.closed (plan : Plan) (job : Job) : Stage → Stage
  | .waiting => .stopped
  | .scanning id _ _ found =>
    .finished (fileResult plan.max job.path (baseView plan.files id) found.reverse)
  | s => s

/-- A worker that is at this stage does not miss anything if it breaks off: the tokens that are left
add nothing to the bag of the file. -/
def Stage.MissesNothing (plan : Plan) : Stage → Prop
  | .scanning id next _ _ =>
    (processFile plan.rules plan.max plan.files id fun i => next ≤ i).bag =
      (processFile plan.rules plan.max plan.files id fun _ => false).bag
  | _ => True

/-- A worker has found what there is to find in the tokens it has gone through. -/
def Stage.Scanned (plan : Plan) : Stage → Prop
  | .scanning id next left found =>
    left = (baseView plan.files id).tokens.drop next ∧
      found.reverse = findingsFrom plan.rules (baseView plan.files id) (fun _ => false) 0
        ((baseView plan.files id).tokens.take next)
  | _ => True

/-- The results without an error have the bags that the results of another run have. -/
def Outcome.AgreesWith (o full : Outcome) : Prop :=
  ∀ (i : Nat) (r r' : FileResult DumpFileError), o.results[i]? = some r →
    full.results[i]? = some r' → r.error = none → r.bag = r'.bag

theorem Stage.closed_of_isOver {plan : Plan} {job : Job} {s : Stage} (h : s.isOver = true) :
    s.closed plan job = s := by
  cases s with
  | waiting => simp [Stage.isOver] at h
  | scanning => simp [Stage.isOver] at h
  | finished r => rfl
  | stopped => rfl

/-! ## Files that are broken off -/

/-- A file that is broken off before a token is one that ends there. -/
theorem findingsFrom_cancelled (rules : Registry) (base : RuleView) (n i : Nat) (s : Stream) :
    findingsFrom rules base (fun j => n ≤ j) i s =
      findingsFrom rules base (fun _ => false) i (s.take (n - i)) := by
  induction s generalizing i with
  | nil => simp [findingsFrom]
  | cons t s ih =>
      rw [findingsFrom]
      by_cases h : n ≤ i
      · have hNone : n - i = 0 := by omega
        simp [h, hNone, findingsFrom]
      · have hSome : n - i = n - (i + 1) + 1 := by omega
        rw [hSome, List.take_succ_cons, findingsFrom, ih]
        simp [h]

theorem findingsFrom_append (rules : Registry) (base : RuleView) (i : Nat) (s s' : Stream) :
    findingsFrom rules base (fun _ => false) i (s ++ s') =
      findingsFrom rules base (fun _ => false) i s ++
        findingsFrom rules base (fun _ => false) (i + s.length) s' := by
  rw [findingsFrom_eq_flatMap, findingsFrom_eq_flatMap, findingsFrom_eq_flatMap,
    List.zipIdx_append, List.flatMap_append]

namespace Pool

variable {plan : Plan} {t : Nat} {p : Pool}

theorem scanned_advance {worker : Nat} {job : Job} {s : Stage} (h : s.Scanned plan) :
    (p.advance plan worker job s).1.Scanned plan := by
  cases s with
  | waiting =>
      simp only [advance]
      split
      · trivial
      split
      · trivial
      cases job.loaded with
      | error e => trivial
      | ok id => exact ⟨rfl, rfl⟩
  | scanning id next left found =>
      obtain ⟨hLeft, hFound⟩ := h
      cases left with
      | nil => trivial
      | cons token rest =>
          simp only [advance]
          split
          · trivial
          have hNext : next < (baseView plan.files id).tokens.length := by
            have hLength := congrArg List.length hLeft
            rw [List.length_drop, List.length_cons] at hLength
            omega
          rw [List.drop_eq_getElem_cons hNext] at hLeft
          obtain ⟨hToken, hRest⟩ := List.cons.inj hLeft
          refine ⟨hRest, ?_⟩
          rw [List.reverse_append, List.reverse_reverse, hFound, List.take_succ_eq_append_getElem hNext,
            findingsFrom_append, List.length_take_of_le (Nat.le_of_lt hNext), ← hToken]
          simp [findingsFrom]
  | finished r => trivial
  | stopped => trivial

theorem scanned_run (schedule : List Nat) (h : ∀ s ∈ p.stages, s.Scanned plan) :
    ∀ s ∈ (p.run plan schedule).stages, s.Scanned plan := by
  induction schedule generalizing p with
  | nil => exact h
  | cons worker schedule ih =>
      refine ih fun s hs => ?_
      unfold step at hs
      split at hs
      case h_1 stage job hStage _ =>
        rcases List.mem_or_eq_of_mem_set hs with hOther | rfl
        · exact h s hOther
        · exact scanned_advance (h stage (List.mem_of_getElem? hStage))
      case h_2 => exact h s hs

@[simp] theorem now_step (worker : Nat) : (p.step plan worker).now = p.now + 1 := by
  unfold step
  split <;> rfl

@[simp] theorem now_run (schedule : List Nat) :
    (p.run plan schedule).now = p.now + schedule.length := by
  induction schedule generalizing p with
  | nil => rfl
  | cons worker schedule ih =>
      refine ih.trans ?_
      rw [now_step, List.length_cons]
      omega

/-! ## Before -/

section Before

variable (hNever : plan.cancelAt = none)
include hNever

theorem advance_cancelledAt (hNow : p.now < t) (worker : Nat) (job : Job) (s : Stage) :
    p.advance (plan.cancelledAt t) worker job s = p.advance plan worker job s := by
  have hLater : p.cancelled (plan.cancelledAt t) = false := by
    simp [cancelled, Plan.cancelledAt, hNow]
  cases s with
  | waiting => simp only [advance, hLater, not_cancelled hNever]; rfl
  | scanning id next left found =>
      cases left with
      | nil => rfl
      | cons token rest => simp only [advance, hLater, not_cancelled hNever]; rfl
  | finished r => rfl
  | stopped => rfl

theorem run_cancelledAt {schedule : List Nat} (hNow : p.now + schedule.length ≤ t) :
    p.run (plan.cancelledAt t) schedule = p.run plan schedule := by
  induction schedule generalizing p with
  | nil => rfl
  | cons worker schedule ih =>
      rw [List.length_cons] at hNow
      have hStep : p.step (plan.cancelledAt t) worker = p.step plan worker := by
        unfold step
        simp only [advance_cancelledAt hNever (show p.now < t by omega)]
        rfl
      have hRest := @ih (p.step plan worker) (by rw [now_step]; omega)
      simpa only [run, List.foldl_cons, hStep] using hRest

end Before

/-! ## After -/

/-- The stages in which the workers end if the run is cancelled now. -/
def closing (plan : Plan) (p : Pool) : List Stage :=
  List.zipWith (Stage.closed plan) plan.jobs p.stages

theorem closed_advance (hCancelled : p.cancelled plan = true) (worker : Nat) (job : Job)
    (s : Stage) : (p.advance plan worker job s).1.closed plan job = s.closed plan job := by
  cases s with
  | waiting =>
      simp only [advance, hCancelled]
      split
      · rfl
      · rfl
  | scanning id next left found =>
      cases left with
      | nil => rfl
      | cons token rest => simp [advance, hCancelled, Stage.closed]
  | finished r => rfl
  | stopped => rfl

/-- From then on, no step changes where the workers end. -/
theorem closing_step (hCancelled : p.cancelled plan = true) (worker : Nat) :
    (p.step plan worker).closing plan = p.closing plan := by
  refine List.ext_getElem? fun i => ?_
  rw [closing, closing, List.getElem?_zipWith, List.getElem?_zipWith]
  by_cases hi : i = worker
  · subst hi
    cases hJob : plan.jobs[i]? with
    | none => rfl
    | some job =>
        cases hStage : p.stages[i]? with
        | none => simp [step, hStage]
        | some s =>
            rw [getElem?_step_self hStage hJob]
            exact congrArg some (closed_advance hCancelled i job s)
  · rw [getElem?_step_of_ne hi]

theorem closing_run (hCancelled : p.cancelled plan = true) (schedule : List Nat) :
    (p.run plan schedule).closing plan = p.closing plan := by
  induction schedule generalizing p with
  | nil => rfl
  | cons worker schedule ih =>
      have hStill : (p.step plan worker).cancelled plan = true := by
        unfold cancelled at hCancelled ⊢
        rw [now_step]
        split at hCancelled
        · rw [decide_eq_true_eq] at hCancelled ⊢
          omega
        · cases hCancelled
      exact (ih hStill).trans (closing_step hCancelled worker)

theorem closing_of_isOver (hLength : p.stages.length = plan.jobs.length) (hOver : p.isOver = true) :
    p.closing plan = p.stages := by
  refine List.ext_getElem? fun i => ?_
  rw [closing, List.getElem?_zipWith]
  cases hStage : p.stages[i]? with
  | none => cases plan.jobs[i]? <;> rfl
  | some s =>
      have hi : i < plan.jobs.length := hLength ▸ (List.getElem?_eq_some_iff.mp hStage).1
      rw [List.getElem?_eq_getElem hi]
      refine congrArg some (Stage.closed_of_isOver ?_)
      exact List.all_eq_true.mp hOver s (List.mem_of_getElem? hStage)

/-- The pool at the moment when the run is cancelled, or at the end if that comes first. -/
def untilCancelled (plan : Plan) (t : Nat) (schedule : List Nat) : Pool :=
  (start plan).run plan (schedule.take t)

theorem scanned_untilCancelled (plan : Plan) (t : Nat) (schedule : List Nat) :
    ∀ s ∈ (untilCancelled plan t schedule).stages, s.Scanned plan := by
  refine scanned_run _ fun s hs => ?_
  obtain ⟨job, -, rfl⟩ := List.mem_map.mp hs
  trivial

/-- Every worker ends where it stands when the run is cancelled. -/
theorem stages_of_isOver (hNever : plan.cancelAt = none) {schedule : List Nat}
    (hOver : ((start plan).run (plan.cancelledAt t) schedule).isOver = true) :
    ((start plan).run (plan.cancelledAt t) schedule).stages =
      (untilCancelled plan t schedule).closing plan := by
  have hLength : ((start plan).run (plan.cancelledAt t) schedule).stages.length =
      (plan.cancelledAt t).jobs.length := by
    rw [length_run, start, List.length_map]
    rfl
  have hUntil : (start plan).run (plan.cancelledAt t) (schedule.take t) =
      untilCancelled plan t schedule := by
    have hNow : (start plan).now = 0 := rfl
    refine run_cancelledAt hNever ?_
    rw [hNow, Nat.zero_add]
    exact List.length_take_le t schedule
  have hSplit : (start plan).run (plan.cancelledAt t) schedule =
      (untilCancelled plan t schedule).run (plan.cancelledAt t) (schedule.drop t) := by
    rw [← hUntil, run, run, run, ← List.foldl_append, List.take_append_drop]
  rw [← closing_of_isOver hLength hOver, hSplit]
  -- the turns that are left, if any, come up in a run that is cancelled
  by_cases hEnd : schedule.length ≤ t
  · rw [List.drop_of_length_le hEnd]
    rfl
  · refine closing_run ?_ _
    rw [untilCancelled, cancelled, Plan.cancelledAt]
    simp [start]
    omega

/-- Where a worker ends that has begun, and when its bag is the one of a run that is not cancelled. -/
theorem exists_closed_eq {job : Job} {s : Stage} (hHolds : s.Holds plan job)
    (hScanned : s.Scanned plan) (hBegun : s ≠ .waiting) :
    ∃ r, s.closed plan job = .finished r ∧
      ((r.error = none → r.bag = (resultOf plan job).bag) ↔ s.MissesNothing plan) := by
  cases s with
  | waiting => exact absurd rfl hBegun
  | scanning id next left found =>
      refine ⟨_, rfl, ?_⟩
      simp only [fileResult, Stage.MissesNothing, resultOf, hHolds.1, true_implies,
        bag_processFile_eq_collect, findingsFrom_cancelled, Nat.sub_zero, ← hScanned.2]
      rfl
  | finished r => exact ⟨r, rfl, by simp [Stage.MissesNothing, show r = resultOf plan job from hHolds]⟩
  | stopped => exact hHolds.elim

end Pool

theorem getElem?_filterMap_result {stages : List Stage}
    (hAll : ∀ s ∈ stages, ∃ r, s = .finished r) (i : Nat) :
    (stages.filterMap Stage.result?)[i]? = stages[i]?.bind Stage.result? := by
  induction stages generalizing i with
  | nil => rfl
  | cons s stages ih =>
      obtain ⟨r, rfl⟩ := hAll s List.mem_cons_self
      have hHead : Stage.result? (.finished r) = some r := rfl
      rw [List.filterMap_cons_some hHead]
      cases i with
      | zero => rfl
      | succ i => exact ih (fun s hs => hAll s (List.mem_cons_of_mem _ hs)) i

section Outcome

variable {plan : Plan} {t : Nat} {schedule schedule' : List Nat} (hNever : plan.cancelAt = none)
  (hOver : ((Pool.start plan).run (plan.cancelledAt t) schedule).isOver = true)
include hNever hOver

/-- A worker that is at a stage when the run is cancelled, and where it ends. -/
theorem exists_stage_of_mem {s' : Stage}
    (h : s' ∈ ((Pool.start plan).run (plan.cancelledAt t) schedule).stages) :
    ∃ s ∈ (Pool.untilCancelled plan t schedule).stages, ∃ job, s.Holds plan job ∧
      s' = s.closed plan job := by
  have hSound : Pool.Sound plan (Pool.untilCancelled plan t schedule) :=
    (Pool.sound_start plan).run hNever _
  rw [Pool.stages_of_isOver hNever hOver] at h
  obtain ⟨i, hi⟩ := List.mem_iff_getElem?.mp h
  obtain ⟨job, s, hJob, hStage, rfl⟩ := List.getElem?_zipWith_eq_some.mp hi
  exact ⟨s, List.mem_of_getElem? hStage, job, hSound.holds i s job hStage hJob, rfl⟩

theorem exists_job_of_stage {i : Nat} {s : Stage}
    (hStage : (Pool.untilCancelled plan t schedule).stages[i]? = some s) :
    ∃ job, plan.jobs[i]? = some job ∧ s.Holds plan job ∧
      ((Pool.start plan).run (plan.cancelledAt t) schedule).stages[i]? =
        some (s.closed plan job) := by
  have hSound : Pool.Sound plan (Pool.untilCancelled plan t schedule) :=
    (Pool.sound_start plan).run hNever _
  have hi : i < plan.jobs.length := hSound.length ▸ (List.getElem?_eq_some_iff.mp hStage).1
  have hJob := List.getElem?_eq_getElem hi
  refine ⟨_, hJob, hSound.holds i s _ hStage hJob, ?_⟩
  rw [Pool.stages_of_isOver hNever hOver, Pool.closing, List.getElem?_zipWith, hJob, hStage]

/-- A run fails exactly if some worker has not begun when it is cancelled. -/
theorem cancelled_iff :
    (Outcome.ofPool (plan.cancelledAt t)
      ((Pool.start plan).run (plan.cancelledAt t) schedule)).cancelled = true ↔
        Stage.waiting ∈ (Pool.untilCancelled plan t schedule).stages := by
  rw [Outcome.ofPool, List.any_eq_true]
  constructor
  · rintro ⟨s', hs', hStopped⟩
    obtain ⟨s, hs, job, hHolds, rfl⟩ := exists_stage_of_mem hNever hOver hs'
    cases s with
    | waiting => exact hs
    | scanning => cases hStopped
    | finished => cases hStopped
    | stopped => exact hHolds.elim
  · intro hWaiting
    obtain ⟨i, hStage⟩ := List.mem_iff_getElem?.mp hWaiting
    obtain ⟨job, -, -, hEnd⟩ := exists_job_of_stage hNever hOver hStage
    exact ⟨_, List.mem_of_getElem? hEnd, rfl⟩

/-- The results of a run that does not fail, beside those of a run that is not cancelled. -/
theorem agreesWith_iff (hOver' : ((Pool.start plan).run plan schedule').isOver = true)
    (hBegun : Stage.waiting ∉ (Pool.untilCancelled plan t schedule).stages) :
    (Outcome.ofPool (plan.cancelledAt t)
      ((Pool.start plan).run (plan.cancelledAt t) schedule)).AgreesWith
        (Outcome.ofPool plan ((Pool.start plan).run plan schedule')) ↔
      ∀ s ∈ (Pool.untilCancelled plan t schedule).stages, s.MissesNothing plan := by
  obtain ⟨hFull, -⟩ := outcome_of_isOver hNever hOver'
  have hFinished : ∀ s' ∈ ((Pool.start plan).run (plan.cancelledAt t) schedule).stages,
      ∃ r, s' = .finished r := by
    intro s' hs'
    obtain ⟨s, hs, job, hHolds, rfl⟩ := exists_stage_of_mem hNever hOver hs'
    obtain ⟨r, hr, -⟩ := Pool.exists_closed_eq hHolds
      (Pool.scanned_untilCancelled plan t schedule s hs) fun h => hBegun (h ▸ hs)
    exact ⟨r, hr⟩
  -- the results of a file in both runs
  have hBoth : ∀ (i : Nat) (s : Stage),
      (Pool.untilCancelled plan t schedule).stages[i]? = some s →
        ∃ r r', (Outcome.ofPool (plan.cancelledAt t)
            ((Pool.start plan).run (plan.cancelledAt t) schedule)).results[i]? = some r ∧
          (Outcome.ofPool plan ((Pool.start plan).run plan schedule')).results[i]? = some r' ∧
            ((r.error = none → r.bag = r'.bag) ↔ s.MissesNothing plan) := by
    intro i s hStage
    obtain ⟨job, hJob, hHolds, hEnd⟩ := exists_job_of_stage hNever hOver hStage
    have hMem := List.mem_of_getElem? hStage
    obtain ⟨r, hr, hIff⟩ := Pool.exists_closed_eq hHolds
      (Pool.scanned_untilCancelled plan t schedule s hMem) fun h => hBegun (h ▸ hMem)
    refine ⟨r, resultOf plan job, ?_, ?_, hIff⟩
    · rw [Outcome.ofPool, getElem?_filterMap_result hFinished, hEnd, hr]
      rfl
    · rw [hFull, List.getElem?_map, hJob]
      rfl
  constructor
  · intro hAgree s hs
    obtain ⟨i, hStage⟩ := List.mem_iff_getElem?.mp hs
    obtain ⟨r, r', hr, hr', hIff⟩ := hBoth i s hStage
    exact hIff.mp (hAgree i r r' hr hr')
  · intro hAll i r r' hr hr'
    have hi : i < (Pool.untilCancelled plan t schedule).stages.length := by
      have hBound := (List.getElem?_eq_some_iff.mp hr').1
      rw [hFull, List.length_map] at hBound
      rw [Pool.untilCancelled, Pool.length_run, Pool.start, List.length_map]
      exact hBound
    obtain ⟨q, q', hq, hq', hIff⟩ := hBoth i _ (List.getElem?_eq_getElem hi)
    obtain rfl := Option.some.inj (hq.symm.trans hr)
    obtain rfl := Option.some.inj (hq'.symm.trans hr')
    exact hIff.mpr (hAll _ (List.getElem_mem hi))

end Outcome

/-- A run that is cancelled at some time fails exactly if some worker has not begun by then. If it
does not fail, the results without an error have the bags of a run that is not cancelled exactly if
no worker that goes through the tokens of a file at that time misses anything. A worker that does
breaks off, and nothing tells its bag from a whole one. -/
theorem success_is_complete_iff (plan : Plan) (t : Nat) (schedule schedule' : List Nat)
    (hNever : plan.cancelAt = none)
    (hOver : ((Pool.start plan).run (plan.cancelledAt t) schedule).isOver = true)
    (hOver' : ((Pool.start plan).run plan schedule').isOver = true) :
    let outcome := Outcome.ofPool (plan.cancelledAt t)
      ((Pool.start plan).run (plan.cancelledAt t) schedule)
    let full := Outcome.ofPool plan ((Pool.start plan).run plan schedule')
    let stages := (Pool.untilCancelled plan t schedule).stages
    (outcome.cancelled = true ↔ Stage.waiting ∈ stages) ∧
      ((outcome.cancelled = false → outcome.AgreesWith full) ↔
        Stage.waiting ∈ stages ∨ ∀ s ∈ stages, s.MissesNothing plan) := by
  intro outcome full stages
  have hFails : outcome.cancelled = true ↔ Stage.waiting ∈ stages := cancelled_iff hNever hOver
  refine ⟨hFails, ?_⟩
  by_cases hWaiting : Stage.waiting ∈ stages
  · rw [hFails.mpr hWaiting]
    simp [hWaiting]
  · have hSuccess : outcome.cancelled = false := by
      rw [← Bool.not_eq_true, hFails]
      exact hWaiting
    have hIff := agreesWith_iff hNever hOver hOver' hWaiting
    simpa only [hSuccess, true_implies, hWaiting, false_or] using hIff

/-- A single file with two names. -/
def twoNamesPlan : Plan :=
  { rules := .ofList crashingRules, max := 9, files := twoNames, jobs := [⟨"a", .ok 0⟩], limit := 1 }

/-- A run over it is cancelled when its worker has begun and not yet seen a token. The run does not
fail, and four diagnostics are missing. -/
theorem success_is_complete_iff_twoNames :
    let outcome := Outcome.ofPool (twoNamesPlan.cancelledAt 1)
      ((Pool.start twoNamesPlan).run (twoNamesPlan.cancelledAt 1) [0, 0])
    outcome.cancelled = false ∧ ¬ outcome.AgreesWith (processFiles twoNamesPlan) := by
  intro outcome
  have hOver : ((Pool.start twoNamesPlan).run (twoNamesPlan.cancelledAt 1) [0, 0]).isOver = true := by
    decide +kernel
  have hOver' := @Pool.isOver_run_inOrder twoNamesPlan (by decide)
  have hStages : (Pool.untilCancelled twoNamesPlan 1 [0, 0]).stages =
      [.scanning 0 0 (List.replicate 2 { kind := .identifier }) []] := by
    with_unfolding_all rfl
  obtain ⟨hFails, hComplete⟩ := success_is_complete_iff twoNamesPlan 1 [0, 0] (inOrder twoNamesPlan)
    rfl hOver hOver'
  rw [hStages] at hFails hComplete
  have hSuccess : outcome.cancelled = false := by
    rw [← Bool.not_eq_true, hFails]
    simp
  refine ⟨hSuccess, fun hAgree => ?_⟩
  rcases hComplete.mp fun _ => hAgree with hWaiting | hAll
  · simp at hWaiting
  · have hSame : (processFile (.ofList crashingRules) 9 twoNames 0 fun i => 0 ≤ i).bag =
        (processFile (.ofList crashingRules) 9 twoNames 0 fun _ => false).bag :=
      hAll _ (List.mem_singleton_self _)
    have hNone : (processFile (.ofList crashingRules) 9 twoNames 0 fun i => 0 ≤ i).bag.size = 0 := by
      rw [bag_processFile_eq_collect, size_collect]
      decide +kernel
    rw [hSame, size_bag_crashingRules] at hNone
    cases hNone

end TokenLint.Run
