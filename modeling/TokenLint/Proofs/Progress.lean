import Mathlib.Algebra.Ring.Int.Defs
import Mathlib.Data.List.Nodup
import TokenLint.Progress
import TokenLint.Proofs.Token.Search

/-!
# What the screen has seen

The screen takes events one after the other, from whatever file they come. If no two files have the
same path, the item of a file has seen the events about this file and no others, in their order, and
the number of problems adds up over all of them.

* `Screen.update_event`: what an event changes.
* `Screen.items_after`: an item after events.
* `Screen.problems_after`: the number of problems after events.
-/

namespace TokenLint.Progress

/-- The paths of the items. -/
def Screen.paths (s : Screen) : List Text := s.items.map (·.path)

/-- The item after events about its file. -/
def Item.after (i : Item) (es : List ProgressEvent) : Item := es.foldl Item.update i

/-- The screen after events. -/
def Screen.after (s : Screen) (es : List ProgressEvent) : Screen :=
  es.foldl (fun s e => s.update (.event e)) s

theorem Screen.after_cons (s : Screen) (e : ProgressEvent) (es : List ProgressEvent) :
    s.after (e :: es) = (s.update (.event e)).after es := rfl

/-! ## One event -/

/-- Where no path stands twice, the last item with a path is the only one. -/
theorem updateLast_of_mem {e : ProgressEvent} {items : List Item}
    (hDistinct : (items.map (·.path)).Nodup) (h : e.file ∈ items.map (·.path)) :
    updateLast e items = some (items.map fun i => if i.path = e.file then i.update e else i) := by
  obtain ⟨j, hj, hPath⟩ := List.mem_iff_getElem.mp h
  rw [List.length_map] at hj
  rw [List.getElem_map] at hPath
  have hOnly : ∀ k (hk : k < items.length), items[k].path = e.file ↔ j = k := by
    intro k hk
    have hSame := @List.Nodup.getElem_inj_iff _ _ hDistinct k (by simpa using hk) j
      (by simpa using hj)
    rw [List.getElem_map, List.getElem_map, hPath] at hSame
    rw [hSame, eq_comm]
  -- a search from the end can only stop at the one item with this path
  have hFind : (items.reverse.findIdx? (·.path = e.file)).map (items.length - 1 - ·) = some j := by
    rw [Stream.findIdx?_reverse_eq_some_iff]
    refine ⟨hj, decide_eq_true hPath, fun k hk hjk => decide_eq_false ?_⟩
    rw [hOnly k hk]
    exact Nat.ne_of_lt hjk
  have hUpdate : updateLast e items =
      ((items.reverse.findIdx? (·.path = e.file)).map (items.length - 1 - ·)).map fun k =>
        items.modify k (·.update e) := by
    rw [Option.map_map]
    rfl
  rw [hUpdate, hFind, Option.map_some]
  refine congrArg some (List.ext_getElem (by simp) fun k hk hk' => ?_)
  rw [List.length_modify] at hk
  rw [List.getElem_modify, List.getElem_map]
  simp only [hOnly k hk]

theorem updateLast_of_notMem {e : ProgressEvent} {items : List Item}
    (h : e.file ∉ items.map (·.path)) : updateLast e items = none := by
  have hNone : items.reverse.findIdx? (·.path = e.file) = none := by
    rw [List.findIdx?_eq_none_iff]
    intro i hi
    refine decide_eq_false fun hPath => h ?_
    exact List.mem_map.mpr ⟨i, List.mem_reverse.mp hi, hPath⟩
  rw [updateLast, hNone, Option.map_none]

namespace Screen

variable {s : Screen}

/-- An event changes the item of its file, and adds to the problems when the work is done. -/
theorem update_event (hDistinct : s.paths.Nodup) {e : ProgressEvent} (h : e.file ∈ s.paths) :
    s.update (.event e) =
      { s with
        items := s.items.map fun i => if i.path = e.file then i.update e else i
        problems := if e.status = .done then s.problems + e.diagnostics else s.problems } := by
  simp only [update, updateLast_of_mem hDistinct h]

/-- An event about an unknown file changes nothing. -/
theorem update_event_of_notMem {e : ProgressEvent} (h : e.file ∉ s.paths) :
    s.update (.event e) = s := by
  simp only [update, updateLast_of_notMem h]

theorem items_update_event (hDistinct : s.paths.Nodup) (e : ProgressEvent) :
    (s.update (.event e)).items =
      s.items.map fun i => if i.path = e.file then i.update e else i := by
  by_cases h : e.file ∈ s.paths
  · rw [update_event hDistinct h]
  · rw [update_event_of_notMem h, List.map_congr_left, List.map_id]
    intro i hi
    exact if_neg fun hPath => h (List.mem_map.mpr ⟨i, hi, hPath⟩)

theorem paths_update_event (hDistinct : s.paths.Nodup) (e : ProgressEvent) :
    (s.update (.event e)).paths = s.paths := by
  rw [paths, items_update_event hDistinct, List.map_map, paths]
  refine List.map_congr_left fun i _ => ?_
  rw [Function.comp_apply]
  split <;> rfl

/-! ## Many events -/

/-- An item has seen the events about its file. -/
theorem items_after (hDistinct : s.paths.Nodup) (es : List ProgressEvent) :
    (s.after es).items = s.items.map fun i => i.after (es.filter (·.file = i.path)) := by
  induction es generalizing s with
  | nil => simp [after, Item.after]
  | cons e es ih =>
      have hNext : (s.update (.event e)).paths.Nodup := by rwa [paths_update_event hDistinct]
      rw [after_cons, ih hNext, items_update_event hDistinct, List.map_map]
      refine List.map_congr_left fun i _ => ?_
      rw [Function.comp_apply]
      by_cases hPath : i.path = e.file
      · rw [if_pos hPath, List.filter_cons_of_pos (by simp [hPath])]
        rfl
      · rw [if_neg hPath, List.filter_cons_of_neg (by simpa using Ne.symm hPath)]

/-- Problems are counted when the work on a file is done. -/
theorem problems_after (hDistinct : s.paths.Nodup) {es : List ProgressEvent}
    (hKnown : ∀ e ∈ es, e.file ∈ s.paths) :
    (s.after es).problems =
      s.problems + ((es.filter (·.status = .done)).map (·.diagnostics)).sum := by
  induction es generalizing s with
  | nil => simp [after]
  | cons e es ih =>
      obtain ⟨hFirst, hRest⟩ := List.forall_mem_cons.mp hKnown
      have hPaths := paths_update_event hDistinct e
      rw [after_cons, ih (hPaths ▸ hDistinct) (hPaths ▸ hRest), update_event hDistinct hFirst]
      by_cases hDone : e.status = .done
      · rw [List.filter_cons_of_pos (by simpa using hDone), List.map_cons, List.sum_cons]
        simp only [hDone, if_true]
        omega
      · rw [List.filter_cons_of_neg (by simpa using hDone)]
        simp only [hDone, if_false]

end Screen

end TokenLint.Progress
