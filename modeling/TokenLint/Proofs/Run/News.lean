import TokenLint.Proofs.Run.Pool
import TokenLint.Proofs.Table

/-!
# The news of a run

A run begins with the news that its files are queued. Then news come from the workers, in whatever
order the workers come up: about each file either that it could not be loaded, or that the work on
it begins and that it is done. So these news are an interleaving of the news from the workers.

* `Interleaving.perm`, `Interleaving.filter_eq`: what is in an interleaving.
* `Pool.pending_advance`: what a worker does next gives the news that come next from it.
* `Pool.emits_run`: under every schedule, the news of a run are such an interleaving.
* `Emits.filter_eq`, `Emits.perm`: the news about a file, and all news, in any interleaving.
-/

namespace TokenLint.Run

/-! ## Interleavings -/

/-- The elements of several rows, taken in any order that respects the order of each row. -/
inductive Interleaving {α : Type} : List (List α) → List α → Prop
  | done {rows : List (List α)} (h : ∀ row ∈ rows, row = []) : Interleaving rows []
  | next {rows : List (List α)} {i : Nat} {x : α} {row xs : List α}
      (hRow : rows[i]? = some (x :: row)) (rest : Interleaving (rows.set i row) xs) :
      Interleaving rows (x :: xs)

namespace Interleaving

variable {α β : Type} {rows : List (List α)} {xs ys : List α}

/-- Several elements of one row come first. -/
theorem append {i : Nat} {row : List α} (hRow : rows[i]? = some (ys ++ row))
    (h : Interleaving (rows.set i row) xs) : Interleaving rows (ys ++ xs) := by
  induction ys generalizing rows with
  | nil =>
      obtain ⟨hi, hEq⟩ := List.getElem?_eq_some_iff.mp hRow
      rw [List.nil_append] at hEq
      rwa [← hEq, List.set_getElem_self] at h
  | cons y ys ih =>
      have hi := (List.getElem?_eq_some_iff.mp hRow).1
      refine .next hRow (ih ?_ ?_)
      · exact List.getElem?_set_self hi
      · rwa [List.set_set]

theorem perm (h : Interleaving rows xs) : xs.Perm rows.flatten := by
  induction h with
  | done hNone => rw [List.flatten_eq_nil_iff.mpr hNone]
  | @next rows i x row xs hRow _ ih =>
      obtain ⟨hi, hEq⟩ := List.getElem?_eq_some_iff.mp hRow
      refine (ih.cons x).trans ?_
      rw [List.set_eq_take_append_cons_drop, if_pos hi]
      have hSplit : rows = rows.take i ++ (x :: row) :: rows.drop (i + 1) := by
        rw [← hEq, List.getElem_cons_drop, List.take_append_drop]
      conv_rhs => rw [hSplit]
      simp only [List.flatten_append, List.flatten_cons, List.cons_append]
      exact List.perm_middle.symm

/-- The elements of a row have the key of this row. -/
def Owned (keys : List β) (key : α → β) (rows : List (List α)) : Prop :=
  ∀ (i : Nat) (row : List α), rows[i]? = some row → ∀ x ∈ row, keys[i]? = some (key x)

theorem Owned.tail {keys : List β} {key : α → β} (h : Owned keys key rows) {i : Nat} {x : α}
    {row : List α} (hRow : rows[i]? = some (x :: row)) : Owned keys key (rows.set i row) := by
  intro j row' hRow' y hy
  by_cases hij : i = j
  · subst hij
    rw [List.getElem?_set_self (List.getElem?_eq_some_iff.mp hRow).1, Option.some.injEq] at hRow'
    exact h i _ hRow y (List.mem_cons_of_mem x (hRow' ▸ hy))
  · rw [List.getElem?_set_ne hij] at hRow'
    exact h j row' hRow' y hy

/-- If each row has a key of its own, the elements with the key of a row are this row. -/
theorem filter_eq [DecidableEq β] (h : Interleaving rows xs) {key : α → β} {keys : List β}
    (hOwned : Owned keys key rows) (hDistinct : keys.Nodup) {i : Nat} {k : β} {row : List α}
    (hKey : keys[i]? = some k) (hRow : rows[i]? = some row) :
    xs.filter (fun x => key x = k) = row := by
  induction h generalizing row with
  | done hNone => rw [hNone row (List.mem_of_getElem? hRow), List.filter_nil]
  | @next rows j x row' xs hHead _ ih =>
      have hHeadKey := hOwned j _ hHead x List.mem_cons_self
      by_cases hij : j = i
      · subst hij
        obtain rfl := Option.some.inj (hHead.symm.trans hRow)
        have hSame : key x = k := Option.some.inj (hHeadKey.symm.trans hKey)
        rw [List.filter_cons_of_pos (by simpa using hSame)]
        refine congrArg (x :: ·) (ih (hOwned.tail hHead) ?_)
        exact List.getElem?_set_self (List.getElem?_eq_some_iff.mp hHead).1
      · -- an element of another row has another key
        have hOther : key x ≠ k := by
          rintro rfl
          have hj := (List.getElem?_eq_some_iff.mp hHeadKey).1
          exact hij ((List.getElem?_inj hj hDistinct).mp (hHeadKey.trans hKey.symm))
        rw [List.filter_cons_of_neg (by simpa using hOther)]
        exact ih (hOwned.tail hHead) (by rwa [List.getElem?_set_ne hij])

end Interleaving

/-! ## The news from the workers -/

def bagSize (plan : Plan) (id : UInt32) : Nat :=
  (processFile plan.rules plan.max plan.files id fun _ => false).bag.size

def queuedNews (job : Job) : Event := { file := job.path, status := .queued }

def doneNews (plan : Plan) (job : Job) (id : UInt32) : Event :=
  { file := job.path, status := .done, diagnostics := bagSize plan id }

/-- The news about a file from its worker. -/
def newsOf (plan : Plan) (job : Job) : List Event :=
  match job.loaded with
  | .error e => [{ file := job.path, status := .error, error := some e }]
  | .ok id => [{ file := job.path, status := .working }, doneNews plan job id]

/-- All files are queued, and then their workers have news. -/
def Emits (plan : Plan) (events : List Event) : Prop :=
  ∃ later, events = plan.jobs.map queuedNews ++ later ∧
    Interleaving (plan.jobs.map (newsOf plan)) later

/-- The news still to come from a worker. -/
def Stage.pending (plan : Plan) (job : Job) : Stage → List Event
  | .waiting => newsOf plan job
  | .scanning id _ _ _ => [doneNews plan job id]
  | .finished _ | .stopped => []

theorem bag_resultOf_eq {plan : Plan} {job : Job} {id : UInt32} (hLoaded : job.loaded = .ok id) :
    (resultOf plan job).bag.size = bagSize plan id := by
  rw [bagSize, bag_processFile_eq_collect, resultOf, hLoaded]
  rfl

namespace Pool

variable {plan : Plan} {p : Pool} {worker : Nat} {job : Job} {s : Stage}

/-- The news still to come, by worker. -/
def pending (plan : Plan) (p : Pool) : List (List Event) :=
  List.zipWith (Stage.pending plan) plan.jobs p.stages

/-- What a worker does next gives the news that come next, if the run is not cancelled. -/
theorem pending_advance (hNever : plan.cancelAt = none) (h : s.Holds plan job) :
    s.pending plan job =
      (p.advance plan worker job s).2 ++ (p.advance plan worker job s).1.pending plan job := by
  cases s with
  | waiting =>
      by_cases hBegin : p.mayBegin plan worker = true
      · simp only [advance, hBegin, not_cancelled hNever, Bool.not_true, Bool.false_eq_true,
          if_false]
        cases hLoaded : job.loaded with
        | error e => simp [Stage.pending, newsOf, hLoaded]
        | ok id => simp [Stage.pending, newsOf, hLoaded]
      · simp [advance, hBegin]
  | scanning id next left found =>
      obtain ⟨hLoaded, hFound⟩ := h
      cases left with
      | nil =>
          -- no token is left, so what was found is all that comes into the bag
          rw [findingsFrom, List.append_nil] at hFound
          have hSize : (fileResult plan.max job.path (baseView plan.files id)
              found.reverse).bag.size = bagSize plan id := by
            rw [← bag_resultOf_eq hLoaded, resultOf, hLoaded, hFound]
          simp [advance, Stage.pending, doneNews, hSize]
      | cons t rest => simp [advance, not_cancelled hNever, Stage.pending]
  | finished r => rfl
  | stopped => rfl

theorem pending_start (plan : Plan) : (start plan).pending plan = plan.jobs.map (newsOf plan) := by
  rw [pending, start, List.zipWith_map_right, List.zipWith_self]
  rfl

theorem pending_of_isOver (hOver : p.isOver = true) : ∀ row ∈ p.pending plan, row = [] := by
  intro row hRow
  obtain ⟨i, hi⟩ := List.mem_iff_getElem?.mp hRow
  obtain ⟨job, s, -, hStage, rfl⟩ := List.getElem?_zipWith_eq_some.mp hi
  have hDone := List.all_eq_true.mp hOver s (List.mem_of_getElem? hStage)
  cases s with
  | waiting => cases hDone
  | scanning => cases hDone
  | finished => rfl
  | stopped => rfl

theorem getElem?_pending (hStage : p.stages[worker]? = some s)
    (hJob : plan.jobs[worker]? = some job) :
    (p.pending plan)[worker]? = some (s.pending plan job) := by
  rw [pending, List.getElem?_zipWith, hJob, hStage]

theorem pending_step (hStage : p.stages[worker]? = some s) (hJob : plan.jobs[worker]? = some job) :
    (p.step plan worker).pending plan =
      (p.pending plan).set worker ((p.advance plan worker job s).1.pending plan job) := by
  refine List.ext_getElem? fun i => ?_
  by_cases hi : worker = i
  · subst hi
    rw [getElem?_pending (getElem?_step_self hStage hJob) hJob, List.getElem?_set_self]
    exact (List.getElem?_eq_some_iff.mp (getElem?_pending hStage hJob)).1
  · rw [List.getElem?_set_ne hi, pending, pending, List.getElem?_zipWith, List.getElem?_zipWith,
      getElem?_step_of_ne (Ne.symm hi)]

/-- The news of a run are the ones that were still to come, in some order. -/
theorem Sound.interleaving_run (hNever : plan.cancelAt = none) (h : Sound plan p)
    {schedule : List Nat} (hOver : (p.run plan schedule).isOver = true) :
    ∃ later, (p.run plan schedule).events = p.events ++ later ∧
      Interleaving (p.pending plan) later := by
  induction schedule generalizing p with
  | nil => exact ⟨[], (List.append_nil _).symm, .done (pending_of_isOver hOver)⟩
  | cons worker schedule ih =>
      obtain ⟨later, hEvents, hLater⟩ := ih (h.step hNever worker) hOver
      have hRun : p.run plan (worker :: schedule) = (p.step plan worker).run plan schedule := rfl
      rw [hRun, hEvents]
      by_cases hWorker : worker < plan.jobs.length
      · obtain ⟨job, hJob⟩ : ∃ job, plan.jobs[worker]? = some job :=
          ⟨_, List.getElem?_eq_getElem hWorker⟩
        obtain ⟨s, hStage⟩ : ∃ s, p.stages[worker]? = some s :=
          ⟨_, List.getElem?_eq_getElem (by rwa [h.length])⟩
        have hNews := @pending_advance plan p worker job s hNever (h.holds worker s job hStage hJob)
        -- the step takes its news from the front of the worker's row
        refine ⟨(p.advance plan worker job s).2 ++ later, ?_, ?_⟩
        · rw [← List.append_assoc]
          simp only [Pool.step, hStage, hJob]
        · rw [pending_step hStage hJob] at hLater
          exact hLater.append (hNews ▸ getElem?_pending hStage hJob)
      · -- there is no such worker, and nothing happens
        have hIdle : p.step plan worker = { p with now := p.now + 1 } := by
          have hNone := List.getElem?_eq_none (Nat.le_of_not_lt hWorker)
          unfold Pool.step
          split
          · rename_i hJob
            rw [hNone] at hJob
            cases hJob
          · rfl
        rw [hIdle] at hLater ⊢
        exact ⟨later, rfl, hLater⟩

/-- Under every schedule that brings all workers to their end, a run that is not cancelled has the
news of all files. -/
theorem emits_run (hNever : plan.cancelAt = none) {schedule : List Nat}
    (hOver : ((start plan).run plan schedule).isOver = true) :
    Emits plan ((start plan).run plan schedule).events := by
  obtain ⟨later, hEvents, hLater⟩ := (sound_start plan).interleaving_run hNever hOver
  rw [pending_start] at hLater
  exact ⟨later, hEvents, hLater⟩

end Pool

/-! ## The news about a file -/

section Emits

variable {plan : Plan} {events : List Event}

theorem file_of_mem_newsOf {job : Job} {e : Event} (h : e ∈ newsOf plan job) :
    e.file = job.path := by
  unfold newsOf at h
  cases hLoaded : job.loaded with
  | error x =>
      rw [hLoaded] at h
      rw [List.mem_singleton.mp h]
  | ok id =>
      rw [hLoaded] at h
      rcases List.mem_pair.mp h with rfl | rfl <;> rfl

theorem owned_newsOf (plan : Plan) : Interleaving.Owned (plan.jobs.map Job.path)
    (fun e : Event => e.file) (plan.jobs.map (newsOf plan)) := by
  intro i row hRow e he
  rw [List.getElem?_map] at hRow ⊢
  obtain ⟨job, hJob, rfl⟩ := Option.map_eq_some_iff.mp hRow
  rw [hJob, Option.map_some]
  exact congrArg some (file_of_mem_newsOf he).symm

/-- If no path stands twice, the news about a file are that it is queued and those from its
worker. -/
theorem Emits.filter_eq (h : Emits plan events) (hDistinct : (plan.jobs.map Job.path).Nodup)
    {job : Job} (hJob : job ∈ plan.jobs) :
    events.filter (fun e => e.file = job.path) = queuedNews job :: newsOf plan job := by
  obtain ⟨later, rfl, hLater⟩ := h
  obtain ⟨i, hi⟩ := List.mem_iff_getElem?.mp hJob
  have hQueued : (plan.jobs.map queuedNews).filter (fun e => e.file = job.path) =
      [queuedNews job] := by
    rw [List.filter_map]
    exact congrArg (List.map queuedNews)
      (Table.filter_eq_singleton_of_nodup_map hDistinct hJob)
  have hAt : ∀ {α : Type} (f : Job → α), (plan.jobs.map f)[i]? = some (f job) := fun f => by
    rw [List.getElem?_map, hi, Option.map_some]
  rw [List.filter_append, hQueued, hLater.filter_eq (owned_newsOf plan) hDistinct (hAt _) (hAt _)]
  rfl

theorem Emits.perm (h : Emits plan events) :
    events.Perm (plan.jobs.map queuedNews ++ plan.jobs.flatMap (newsOf plan)) := by
  obtain ⟨later, rfl, hLater⟩ := h
  exact hLater.perm.append_left _

theorem Emits.file_mem (h : Emits plan events) {e : Event} (he : e ∈ events) :
    e.file ∈ plan.jobs.map Job.path := by
  rcases List.mem_append.mp (h.perm.mem_iff.mp he) with hQueued | hNews
  · obtain ⟨job, hJob, rfl⟩ := List.mem_map.mp hQueued
    exact List.mem_map.mpr ⟨job, hJob, rfl⟩
  · obtain ⟨job, hJob, hNews⟩ := List.mem_flatMap.mp hNews
    exact List.mem_map.mpr ⟨job, hJob, (file_of_mem_newsOf hNews).symm⟩

end Emits

end TokenLint.Run
