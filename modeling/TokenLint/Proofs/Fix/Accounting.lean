import Mathlib.Algebra.BigOperators.Group.List.Lemmas
import Mathlib.Algebra.GroupWithZero.Nat
import TokenLint.Proofs.Fix.Frame

/-!
# The books of applying fixes

There is a problem exactly if no fix was applied, and then nothing has changed. Otherwise the list
of changes has one entry for each file that an applied fix edits, in the order of paths, and edits
are counted once by file and once by fix: both sums are the same.

* `sum_countP_filesOf`: counting edits file by file counts all of them.
* `apply_accounts`: the problem, the list of changes and the two sums.
-/

namespace TokenLint.Fixing

/-! ## The list of changes -/

theorem changesOf_pairwise (fs : FileSet) (w : Workspace) :
    (changesOf fs w).Pairwise fun a b => a.path ≤ b.path :=
  Sorting.pairwise_mergeSort_text FileChange.path _

theorem filesOf_nil : filesOf [] = [] := by
  simp [filesOf]

/-- Each edit is in one file, so counting by file counts all edits. -/
theorem sum_countP_filesOf (edits : List TokenEdit) :
    ((filesOf edits).map fun file => edits.countP (·.pos.file = file)).sum = edits.length := by
  have hPerm : (filesOf edits).Perm (edits.map (·.pos.file)).dedup := by
    rw [List.perm_ext_iff_of_nodup (nodup_filesOf edits) (List.nodup_dedup _)]
    intro file
    rw [mem_filesOf, List.mem_dedup, List.mem_map]
  have hCount : ∀ file, edits.countP (·.pos.file = file) = (edits.map (·.pos.file)).count file := by
    intro file
    rw [List.count, List.countP_map]
    rfl
  calc ((filesOf edits).map fun file => edits.countP (·.pos.file = file)).sum
      = ((edits.map (·.pos.file)).dedup.map fun file => (edits.map (·.pos.file)).count file).sum := by
        simp only [hCount]
        exact (hPerm.map _).sum_eq
    _ = edits.length := by
        rw [List.sum_map_count_dedup_eq_length, List.length_map]

theorem length_editsOf (cs : List Candidate) :
    (editsOf cs).length = (cs.map fun c => c.plan.edits.length).sum := by
  rw [editsOf, List.length_flatMap]

/-! ## Applying fixes -/

/-- The list of changes belongs to the applied fixes. -/
theorem changes_apply_perm (fs : FileSet) (ds : List Diagnostic) (r : Request) :
    (apply fs ds r).2.1.changes.Perm ((filesOf (editsOf (appliedOf fs ds r))).map
      (changeIn fs (editsOf (appliedOf fs ds r)))) :=
  (applySelected_eq fs _).2.2

theorem changes_apply_pairwise (fs : FileSet) (ds : List Diagnostic) (r : Request) :
    (apply fs ds r).2.1.changes.Pairwise fun a b => a.path ≤ b.path :=
  changesOf_pairwise fs _

/-- Whatever is asked for, there is a problem if and only if no fix is applied, and then all files
are as before and no change is listed. Else the changes are in the order of paths, one for each
file that an applied fix edits, with the number of edits of applied fixes in this file. These
numbers have the same sum as the numbers of edits that are recorded with the applied fixes. -/
theorem apply_accounts (fs : FileSet) (ds : List Diagnostic) (r : Request) :
    (apply fs ds r).2.1.applied = (appliedOf fs ds r).map (recordOf fs) ∧
      ((apply fs ds r).2.2 = some .noFixes ↔ (apply fs ds r).2.1.applied = []) ∧
      ((apply fs ds r).2.1.applied = [] →
        (apply fs ds r).1 = fs ∧ (apply fs ds r).2.1.changes = []) ∧
      ((apply fs ds r).2.1.applied ≠ [] →
        (apply fs ds r).2.2 = none ∧
        (apply fs ds r).2.1.changes.Pairwise (fun a b => a.path ≤ b.path) ∧
        ((apply fs ds r).2.1.changes.map (·.file)).Nodup ∧
        (∀ file, file ∈ (apply fs ds r).2.1.changes.map (·.file) ↔
          ∃ c ∈ appliedOf fs ds r, ∃ e ∈ c.plan.edits, e.pos.file = file) ∧
        (∀ x ∈ (apply fs ds r).2.1.changes, x.path = fs.pathOf x.file .auto ∧
          x.editCount = (editsOf (appliedOf fs ds r)).countP (·.pos.file = x.file)) ∧
        ((apply fs ds r).2.1.changes.map (·.editCount)).sum =
          ((apply fs ds r).2.1.applied.map (·.editCount)).sum) := by
  obtain ⟨hFiles, hApplied, -, hProblem⟩ := apply_eq fs ds r
  have hChanges := changes_apply_perm fs ds r
  have hNone : (apply fs ds r).2.1.applied = [] ↔ appliedOf fs ds r = [] := by
    rw [hApplied, List.map_eq_nil_iff]
  refine ⟨hApplied, ?_, ?_, ?_⟩
  · rw [hNone, hProblem]
    cases appliedOf fs ds r <;> simp
  · intro hEmpty
    rw [hNone] at hEmpty
    rw [hEmpty, editsOf_nil] at hFiles hChanges
    rw [filesOf_nil] at hChanges
    exact ⟨hFiles.trans (filesAfter_nil fs), hChanges.eq_nil⟩
  · intro hSome
    have hKeys : ((apply fs ds r).2.1.changes.map (·.file)).Perm
        (filesOf (editsOf (appliedOf fs ds r))) := by
      refine (hChanges.map _).trans (List.Perm.of_eq ?_)
      rw [List.map_map]
      exact List.map_id _
    refine ⟨?_, changes_apply_pairwise fs ds r, hKeys.nodup_iff.mpr (nodup_filesOf _), ?_, ?_, ?_⟩
    · rw [hProblem, if_neg]
      rw [List.isEmpty_iff]
      exact mt hNone.mpr hSome
    · intro file
      rw [hKeys.mem_iff, mem_filesOf, ← edited_iff, edited_editsOf_iff]
    · intro x hx
      obtain ⟨file, -, rfl⟩ := List.mem_map.mp (hChanges.mem_iff.mp hx)
      exact ⟨rfl, rfl⟩
    · calc ((apply fs ds r).2.1.changes.map (·.editCount)).sum
          = (editsOf (appliedOf fs ds r)).length := by
            rw [(hChanges.map _).sum_eq, List.map_map]
            exact sum_countP_filesOf _
        _ = ((apply fs ds r).2.1.applied.map (·.editCount)).sum := by
            rw [hApplied, List.map_map, length_editsOf]
            rfl

/-- Of three fixes the second one is rejected in its second file. The other two edit both files,
with three edits in all. -/
theorem apply_accounts_twoFiles :
    let ds := [offering ⟨0, 0⟩ "first" [⟨⟨0, 0⟩, "one", "x"⟩, ⟨⟨1, 0⟩, "two", []⟩],
      offering ⟨0, 1⟩ "second" [⟨⟨0, 1⟩, "three", []⟩, ⟨⟨1, 0⟩, "four", []⟩],
      offering ⟨1, 0⟩ "third" [⟨⟨0, 1⟩, "five", "y"⟩]]
    (apply twoFiles ds { mode := .all }).2.1.applied.map (·.id) = ["first", "third"] ∧
      ((apply twoFiles ds { mode := .all }).2.1.changes.map (·.editCount)).sum =
        ((apply twoFiles ds { mode := .all }).2.1.applied.map (·.editCount)).sum := by
  intro ds
  obtain ⟨hRecords, -, -, hAccounts⟩ := apply_accounts twoFiles ds { mode := .all }
  have hApplied : (apply twoFiles ds { mode := .all }).2.1.applied.map (·.id) =
      ["first", "third"] := by
    rw [hRecords, appliedOf_of_pairwise (by decide +kernel)]
    decide +kernel
  have hSome : (apply twoFiles ds { mode := .all }).2.1.applied ≠ [] := by
    intro hNone
    rw [hNone] at hApplied
    cases hApplied
  exact ⟨hApplied, (hAccounts hSome).2.2.2.2.2⟩

end TokenLint.Fixing
