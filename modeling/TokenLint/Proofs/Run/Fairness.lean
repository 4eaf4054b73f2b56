import Mathlib.Algebra.Order.BigOperators.Group.Finset
import TokenLint.Proofs.Run.Pool

/-!
# Fair schedules

Nobody controls the order in which workers come up. It is only known that no worker is left out
for ever. Then a run comes to its end, whether or not it is cancelled. What is left to do never
grows, and the first worker that is not done has room to go on:

* `costAt_step_le`: no step gives any worker more to do.
* `exists_work_lt`: as long as there is work, there is less of it some time later.
* `exists_isOver`: all workers are done some time.
-/

namespace TokenLint.Run

/-- Turns in which each of a number of workers comes up again and again. -/
def Fair (workers : Nat) (turn : Nat → Nat) : Prop :=
  ∀ w < workers, ∀ n, ∃ m, n ≤ m ∧ turn m = w

namespace Pool

variable {plan : Plan}

/-- The number of steps a worker still needs. -/
def costAt (plan : Plan) (p : Pool) (i : Nat) : Nat :=
  match p.stages[i]?, plan.jobs[i]? with
  | some s, some job => s.cost plan job
  | _, _ => 0

/-- The number of steps all workers still need. -/
def work (plan : Plan) (p : Pool) : Nat := ∑ i ∈ Finset.range plan.jobs.length, p.costAt plan i

/-- The pool after a number of turns. -/
def after (plan : Plan) (turn : Nat → Nat) (n : Nat) : Pool :=
  (start plan).run plan ((List.range n).map turn)

theorem after_succ (turn : Nat → Nat) (n : Nat) :
    after plan turn (n + 1) = (after plan turn n).step plan (turn n) := by
  simp [after, run, List.range_succ]

theorem length_stages_after (turn : Nat → Nat) (n : Nat) :
    (after plan turn n).stages.length = plan.jobs.length := by
  rw [after, length_run, start, List.length_map]

/-! ## What a step leaves to do -/

section Steps

variable {p : Pool}

theorem costAt_eq {i : Nat} {s : Stage} {job : Job} (hStage : p.stages[i]? = some s)
    (hJob : plan.jobs[i]? = some job) : p.costAt plan i = s.cost plan job := by
  rw [costAt, hStage, hJob]

theorem cost_advance_le {worker : Nat} {job : Job} {s : Stage} :
    (p.advance plan worker job s).1.cost plan job ≤ s.cost plan job := by
  by_cases hBegin : p.mayBegin plan worker = true
  · exact Nat.le_trans (cost_advance hBegin) (Nat.sub_le _ _)
  · cases s with
    | waiting => simp [advance, hBegin]
    | scanning id next left found =>
        cases left with
        | nil => simp [advance, Stage.cost]
        | cons t rest =>
            simp only [advance]
            split <;> simp [Stage.cost]
    | finished r => simp [advance]
    | stopped => simp [advance]

/-- What a step does to the worker that takes it: nothing, if there is no such worker. -/
theorem costAt_step_self (worker : Nat) :
    (p.step plan worker).costAt plan worker = p.costAt plan worker ∨
      ∃ s job, p.stages[worker]? = some s ∧ plan.jobs[worker]? = some job ∧
        (p.step plan worker).costAt plan worker =
          (p.advance plan worker job s).1.cost plan job := by
  cases hStage : p.stages[worker]? with
  | none => exact Or.inl (by simp [costAt, step, hStage])
  | some s =>
      cases hJob : plan.jobs[worker]? with
      | none => exact Or.inl (by simp [costAt, hJob])
      | some job => exact Or.inr ⟨s, job, rfl, rfl, costAt_eq (getElem?_step_self hStage hJob) hJob⟩

/-- No step gives any worker more to do. -/
theorem costAt_step_le (worker i : Nat) :
    (p.step plan worker).costAt plan i ≤ p.costAt plan i := by
  by_cases hi : i = worker
  · subst hi
    rcases @costAt_step_self plan p i with hSame | ⟨s, job, hStage, hJob, hNext⟩
    · exact Nat.le_of_eq hSame
    · rw [hNext, costAt_eq hStage hJob]
      exact cost_advance_le
  · rw [costAt, getElem?_step_of_ne hi]
    exact Nat.le_refl _

/-- A worker that may begin, or has begun, has less to do after its turn. -/
theorem costAt_step_lt {worker : Nat} (hBegin : p.mayBegin plan worker = true)
    (hLeft : 0 < p.costAt plan worker) :
    (p.step plan worker).costAt plan worker < p.costAt plan worker := by
  cases hStage : p.stages[worker]? with
  | none => simp [costAt, hStage] at hLeft
  | some s =>
      cases hJob : plan.jobs[worker]? with
      | none => simp [costAt, hJob] at hLeft
      | some job =>
          have hNext := @cost_advance plan p worker job s hBegin
          rw [costAt_eq (getElem?_step_self hStage hJob) hJob]
          rw [costAt_eq hStage hJob] at hLeft ⊢
          omega

theorem isOver_of_costAt_eq_zero (hLength : p.stages.length = plan.jobs.length) {i : Nat}
    {s : Stage} (hStage : p.stages[i]? = some s) (hCost : p.costAt plan i = 0) :
    s.isOver = true := by
  have hi : i < plan.jobs.length := hLength ▸ (List.getElem?_eq_some_iff.mp hStage).1
  rw [costAt_eq hStage (List.getElem?_eq_getElem hi)] at hCost
  exact Stage.isOver_of_cost_eq_zero hCost

end Steps

/-! ## Turns -/

section Turns

variable {turn : Nat → Nat}

theorem costAt_after_le {n m : Nat} (h : n ≤ m) (i : Nat) :
    (after plan turn m).costAt plan i ≤ (after plan turn n).costAt plan i := by
  induction h with
  | refl => exact Nat.le_refl _
  | step _ ih =>
      rw [after_succ]
      exact Nat.le_trans (costAt_step_le _ i) ih

/-- As long as there is work, there is less of it some time later. -/
theorem exists_work_lt (hFair : Fair plan.jobs.length turn) (hLimit : 0 < plan.limit) {n : Nat}
    (hWork : 0 < (after plan turn n).work plan) :
    ∃ m, (after plan turn m).work plan < (after plan turn n).work plan := by
  -- the first worker that is not done; those before it stay done
  have hSome : ∃ i, i < plan.jobs.length ∧ 0 < (after plan turn n).costAt plan i := by
    obtain ⟨i, hi, hLeft⟩ := Finset.exists_ne_zero_of_sum_ne_zero (Nat.ne_of_gt hWork)
    exact ⟨i, Finset.mem_range.mp hi, Nat.pos_of_ne_zero hLeft⟩
  obtain ⟨hi, hLeft⟩ := Nat.find_spec hSome
  have hBefore : ∀ j < Nat.find hSome, (after plan turn n).costAt plan j = 0 := by
    intro j hj
    have hNone := Nat.find_min hSome hj
    omega
  generalize Nat.find hSome = i at hi hLeft hBefore
  obtain ⟨m, hnm, hTurn⟩ := hFair i hi n
  have hBegin : (after plan turn m).mayBegin plan i = true := by
    refine mayBegin_of_done hLimit fun s hs => ?_
    obtain ⟨j, hj⟩ := List.mem_iff_getElem?.mp hs
    rw [List.getElem?_take] at hj
    split at hj
    case isTrue hji =>
      have hDone := @costAt_after_le plan turn n m hnm j
      rw [hBefore j hji, Nat.le_zero] at hDone
      exact isOver_of_costAt_eq_zero (length_stages_after turn m) hj hDone
    case isFalse => cases hj
  -- the worker has less to do when it has come up again
  have hLess : (after plan turn (m + 1)).costAt plan i < (after plan turn n).costAt plan i := by
    have hUntil := @costAt_after_le plan turn n m hnm i
    have hThen := @costAt_after_le plan turn m (m + 1) (Nat.le_succ m) i
    rcases Nat.eq_zero_or_pos ((after plan turn m).costAt plan i) with hZero | hPos
    · omega
    · have hStep := costAt_step_lt hBegin hPos
      rw [after_succ, hTurn]
      omega
  refine ⟨m + 1, Finset.sum_lt_sum (fun j _ => ?_) ⟨i, Finset.mem_range.mpr hi, hLess⟩⟩
  exact costAt_after_le (Nat.le_succ_of_le hnm) j

theorem isOver_of_work_eq_zero {n : Nat} (h : (after plan turn n).work plan = 0) :
    (after plan turn n).isOver = true := by
  refine List.all_eq_true.mpr fun s hs => ?_
  obtain ⟨i, hStage⟩ := List.mem_iff_getElem?.mp hs
  have hLength := @length_stages_after plan turn n
  have hi : i < plan.jobs.length := hLength ▸ (List.getElem?_eq_some_iff.mp hStage).1
  exact isOver_of_costAt_eq_zero hLength hStage
    (Finset.sum_eq_zero_iff.mp h i (Finset.mem_range.mpr hi))

/-- If no worker is left out for ever, all are done some time. -/
theorem exists_isOver (hFair : Fair plan.jobs.length turn)
    (hLimit : 0 < plan.limit) : ∃ n, (after plan turn n).isOver = true := by
  suffices hAll : ∀ k n, (after plan turn n).work plan = k →
      ∃ m, (after plan turn m).isOver = true from hAll _ 0 rfl
  intro k
  induction k using Nat.strong_induction_on with
  | h k ih =>
      intro n hWork
      rcases Nat.eq_zero_or_pos k with hZero | hPos
      · exact ⟨n, isOver_of_work_eq_zero (hWork.trans hZero)⟩
      · obtain ⟨m, hLess⟩ := exists_work_lt hFair hLimit (hWork ▸ hPos)
        exact ih _ (hWork ▸ hLess) m rfl

end Turns

end Pool

end TokenLint.Run
