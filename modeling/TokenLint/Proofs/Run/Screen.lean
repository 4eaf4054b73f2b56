import Mathlib.Algebra.BigOperators.Group.List.Basic
import Mathlib.Algebra.Ring.Int.Defs
import Mathlib.Order.Monotone.Defs
import TokenLint.Proofs.Progress
import TokenLint.Proofs.Run.News
import TokenLint.Proofs.Run.Reference

/-!
# The screen during a run

The screen shows the files of a run and is told its news. If no path stands twice, what it shows
about a file depends only on the news about this file, and these come in a fixed order. So the work
on a file is shown as done from its last news on, and the counts are right in whatever order the
workers come up.

* `items_shown`: what the screen shows about a file.
* `finished_itemAfter_iff`: when the work on a file is shown as done.
* `finished_shown_mono`: the number of these files only grows.
* `progress_of_interleaving`: the counts during a run and in the end.
-/

namespace TokenLint.Run

open Progress

/-- The screen after news. -/
def shown (plan : Plan) (title : Text) (events : List Event) : Screen :=
  (Screen.ofFiles title (plan.jobs.map Job.path)).after (events.map (·.toProgressEvent))

/-- What the screen shows about a file after news about it. -/
def itemAfter (job : Job) (news : List Event) : Item :=
  Item.after { path := job.path } (news.map (·.toProgressEvent))

/-- What the screen shows about a file in the end. -/
def finalItem (plan : Plan) (job : Job) : Item :=
  match job.loaded with
  | .error _ => { path := job.path, status := .error }
  | .ok id => { path := job.path, status := .done, diagnostics := bagSize plan id }

/-! ## A file -/

section File

variable {plan : Plan} {job : Job}

theorem itemAfter_newsOf :
    itemAfter job (queuedNews job :: newsOf plan job) = finalItem plan job := by
  unfold newsOf finalItem
  cases job.loaded <;> rfl

theorem finished_finalItem : (finalItem plan job).status.finished = true := by
  unfold finalItem
  cases job.loaded <;> rfl

/-- The work on a file is shown as done when all news about it have come. -/
theorem finished_itemAfter_iff {news : List Event}
    (h : news <+: queuedNews job :: newsOf plan job) :
    (itemAfter job news).status.finished = true ↔ news = queuedNews job :: newsOf plan job := by
  refine ⟨fun hFinished => ?_, fun hAll => ?_⟩
  · -- any news but the last one show a status that is not the end
    rcases List.prefix_cons_iff.mp h with rfl | ⟨news, rfl, hPrefix⟩
    · cases hFinished
    · refine congrArg _ ?_
      cases hLoaded : job.loaded with
      | error e =>
          simp only [newsOf, hLoaded] at hPrefix ⊢
          rcases List.prefix_cons_iff.mp hPrefix with rfl | ⟨rest, rfl, hRest⟩
          · cases hFinished
          · rw [List.prefix_nil.mp hRest]
      | ok id =>
          simp only [newsOf, hLoaded] at hPrefix ⊢
          rcases List.prefix_cons_iff.mp hPrefix with rfl | ⟨rest, rfl, hRest⟩
          · cases hFinished
          · rcases List.prefix_cons_iff.mp hRest with rfl | ⟨last, rfl, hLast⟩
            · cases hFinished
            · rw [List.prefix_nil.mp hLast]
  · rw [hAll, itemAfter_newsOf, finished_finalItem]

end File

/-! ## All files -/

section Files

variable {plan : Plan} {title : Text} {events : List Event}

theorem paths_ofFiles (title : Text) (paths : List Text) :
    (Screen.ofFiles title paths).paths = paths := by
  rw [Screen.paths, Screen.ofFiles, List.map_map]
  exact List.map_id paths

theorem items_shown (hDistinct : (plan.jobs.map Job.path).Nodup) (events : List Event) :
    (shown plan title events).items =
      plan.jobs.map fun job => itemAfter job (events.filter (fun e => e.file = job.path)) := by
  rw [shown, Screen.items_after (by rwa [paths_ofFiles]), Screen.ofFiles, List.map_map,
    List.map_map]
  refine List.map_congr_left fun job _ => ?_
  rw [itemAfter, Function.comp_apply, Function.comp_apply, List.filter_map]
  rfl

theorem finished_shown (hDistinct : (plan.jobs.map Job.path).Nodup) (events : List Event) :
    (shown plan title events).finished =
      plan.jobs.countP fun job =>
        (itemAfter job (events.filter (fun e => e.file = job.path))).status.finished := by
  rw [Screen.finished, items_shown hDistinct, ← List.countP_eq_length_filter, List.countP_map]
  rfl

theorem finished_shown_le (hDistinct : (plan.jobs.map Job.path).Nodup) (events : List Event) :
    (shown plan title events).finished ≤ plan.jobs.length := by
  rw [finished_shown hDistinct]
  exact List.countP_le_length

/-- What is shown as done stays so. -/
theorem finished_shown_mono (hDistinct : (plan.jobs.map Job.path).Nodup) (h : Emits plan events) :
    Monotone fun n => (shown plan title (events.take n)).finished := by
  intro m n hmn
  simp only [finished_shown hDistinct]
  refine List.countP_mono_left fun job hJob hFinished => ?_
  have hNews := h.filter_eq hDistinct hJob
  have hPrefix : ∀ k, (events.take k).filter (fun e => e.file = job.path) <+:
      queuedNews job :: newsOf plan job := by
    intro k
    have hTake := List.take_prefix k events
    exact hNews ▸ hTake.filter _
  have hAll := (finished_itemAfter_iff (hPrefix m)).mp hFinished
  rw [finished_itemAfter_iff (hPrefix n)]
  -- all news have come after `m` of them, and `n` are no fewer
  refine (hPrefix n).eq_of_length_le ?_
  rw [← hAll]
  exact ((List.take_prefix_take_left hmn).filter _).length_le

theorem items_shown_of_emits (hDistinct : (plan.jobs.map Job.path).Nodup) (h : Emits plan events) :
    (shown plan title events).items = plan.jobs.map (finalItem plan) := by
  rw [items_shown hDistinct]
  refine List.map_congr_left fun job hJob => ?_
  rw [h.filter_eq hDistinct hJob, itemAfter_newsOf]

theorem finished_shown_of_emits (hDistinct : (plan.jobs.map Job.path).Nodup)
    (h : Emits plan events) : (shown plan title events).finished = plan.jobs.length := by
  rw [Screen.finished, items_shown_of_emits hDistinct h, List.filter_eq_self.mpr, List.length_map]
  intro item hItem
  obtain ⟨job, -, rfl⟩ := List.mem_map.mp hItem
  exact finished_finalItem

/-! ## The number of problems -/

def loadedIds (jobs : List Job) : List UInt32 := jobs.filterMap (·.loaded.toOption)

/-- The problems of which a list of news tells. -/
def problemsIn (events : List Event) : Int :=
  ((events.filter (·.status = .done)).map (·.diagnostics)).sum

theorem problemsIn_append (xs ys : List Event) :
    problemsIn (xs ++ ys) = problemsIn xs + problemsIn ys := by
  rw [problemsIn, List.filter_append, List.map_append, List.sum_append]
  rfl

theorem problemsIn_perm {xs ys : List Event} (h : xs.Perm ys) : problemsIn xs = problemsIn ys :=
  ((h.filter _).map _).sum_eq

theorem problemsIn_queuedNews (jobs : List Job) : problemsIn (jobs.map queuedNews) = 0 := by
  have hNone : (jobs.map queuedNews).filter (·.status = .done) = [] := by
    rw [List.filter_eq_nil_iff]
    intro e he hDone
    obtain ⟨job, -, rfl⟩ := List.mem_map.mp he
    cases of_decide_eq_true hDone
  rw [problemsIn, hNone]
  rfl

theorem problemsIn_newsOf (plan : Plan) (jobs : List Job) :
    problemsIn (jobs.flatMap (newsOf plan)) =
      ((loadedIds jobs).map fun id => (bagSize plan id : Int)).sum := by
  induction jobs with
  | nil => rfl
  | cons job jobs ih =>
      rw [List.flatMap_cons, problemsIn_append, ih]
      unfold loadedIds newsOf
      rw [List.filterMap_cons]
      cases job.loaded with
      | error e => exact Int.zero_add _
      | ok id =>
          refine congrArg (· + _) ?_
          exact Int.add_zero _

theorem problems_shown_of_emits (hDistinct : (plan.jobs.map Job.path).Nodup)
    (h : Emits plan events) :
    (shown plan title events).problems =
      ((loadedIds plan.jobs).map fun id => (bagSize plan id : Int)).sum := by
  have hKnown : ∀ e ∈ events.map (·.toProgressEvent),
      e.file ∈ (Screen.ofFiles title (plan.jobs.map Job.path)).paths := by
    intro e he
    obtain ⟨news, hNews, rfl⟩ := List.mem_map.mp he
    rw [paths_ofFiles]
    exact h.file_mem hNews
  have hCount : (shown plan title events).problems = problemsIn events := by
    rw [shown, Screen.problems_after (by rwa [paths_ofFiles]) hKnown, problemsIn, List.filter_map,
      List.map_map]
    exact Int.zero_add _
  rw [hCount, problemsIn_perm h.perm, problemsIn_append, problemsIn_queuedNews, Int.zero_add,
    problemsIn_newsOf]

end Files

/-- Under every schedule, the news of a run that is not cancelled are that all files are queued and
then, in some order, those from the workers. In whatever order, if no path stands twice: while the
screen is told them one after the other, the number of files whose work is shown as done never falls
and never passes the number of files, and in the end every file is shown with what became of it, all
are done, and the problems are those of the files that could be loaded. -/
theorem progress_of_interleaving (plan : Plan) (title : Text)
    (hDistinct : (plan.jobs.map Job.path).Nodup) :
    (∀ schedule : List Nat, plan.cancelAt = none →
      ((Pool.start plan).run plan schedule).isOver = true →
        Emits plan ((Pool.start plan).run plan schedule).events) ∧
    ∀ events : List Event, Emits plan events →
      Monotone (fun n => (shown plan title (events.take n)).finished) ∧
      (∀ n, (shown plan title (events.take n)).finished ≤ plan.jobs.length) ∧
      (shown plan title events).items = plan.jobs.map (finalItem plan) ∧
      (shown plan title events).finished = plan.jobs.length ∧
      (shown plan title events).problems =
        ((loadedIds plan.jobs).map fun id => (bagSize plan id : Int)).sum := by
  refine ⟨fun schedule hNever hOver => Pool.emits_run hNever hOver, fun events h => ?_⟩
  exact ⟨finished_shown_mono hDistinct h, fun n => finished_shown_le hDistinct _,
    items_shown_of_emits hDistinct h, finished_shown_of_emits hDistinct h,
    problems_shown_of_emits hDistinct h⟩

/-- A file with two names, and a path that leads to no dump. -/
def mixedPlan : Plan :=
  { rules := .ofList crashingRules, max := 9, files := twoNames
    jobs := [⟨"a", .ok 0⟩, ⟨"b", .error (.notDump "b")⟩], limit := 2 }

/-- The worker of the second path comes up first. In the end the screen shows four problems in the
first file, and an error at the second path. -/
theorem progress_of_interleaving_mixedPlan :
    let screen := shown mixedPlan "t" ((Pool.start mixedPlan).run mixedPlan [1, 0, 0, 0, 0]).events
    screen.finished = 2 ∧ screen.problems = 4 ∧
      screen.items = [{ path := "a", status := .done, diagnostics := 4 },
        { path := "b", status := .error }] := by
  intro screen
  obtain ⟨hEmits, hScreen⟩ := progress_of_interleaving mixedPlan "t" (by decide)
  have hOver : ((Pool.start mixedPlan).run mixedPlan [1, 0, 0, 0, 0]).isOver = true := by
    decide +kernel
  obtain ⟨-, -, hItems, hFinished, hProblems⟩ := hScreen _ (hEmits [1, 0, 0, 0, 0] rfl hOver)
  have hFour : bagSize mixedPlan 0 = 4 := size_bag_crashingRules
  have hIds : loadedIds mixedPlan.jobs = [0] := rfl
  have hFinal : mixedPlan.jobs.map (finalItem mixedPlan) =
      [{ path := "a", status := .done, diagnostics := bagSize mixedPlan 0 },
        { path := "b", status := .error }] := rfl
  rw [hIds, List.map_singleton, List.sum_singleton, hFour] at hProblems
  rw [hFinal, hFour] at hItems
  exact ⟨hFinished, hProblems, hItems⟩

end TokenLint.Run
