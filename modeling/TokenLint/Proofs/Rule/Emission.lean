import Mathlib.Data.Nat.Find
import TokenLint.Proofs.Rule.ObjectManager

/-!
# The order in which reports are made

The bag of a file takes reports in the order in which they are made, as long as there is room. The
object manager rule makes them for one call after the other, the warning and then the error. So
the first error of a file is kept if the warnings made before it leave room:

* `emitted_eq_append`: up to the first call that leads to a class name of the past, the rule makes
  nothing but warnings.
* `exists_error_kept_iff`: an error is kept if and only if some call leads to a class name of the
  past and the warnings up to that call leave room.
* `HasLegacy.within`: where there is room for all reports, errors are kept.
-/

namespace TokenLint

/-! ## Errors among the first reports -/

namespace Run

theorem length_distinct_le_append (xs ys : List Diagnostic) :
    (distinct xs).length ≤ (distinct (xs ++ ys)).length := by
  obtain ⟨seen, hEq, -⟩ := @firstBy_append _ _ _ Diagnostic.key [] xs ys
  rw [distinct, distinct, hEq, List.length_append]
  exact Nat.le_add_right _ _

/-- The first error is kept if the different reports before it leave room. -/
theorem exists_error_take_iff {before rest : List Diagnostic} {e : Diagnostic} {room : Nat}
    (hBefore : ∀ d ∈ before, d.severity ≠ .error) (he : e.severity = .error) :
    (∃ d ∈ (distinct (before ++ e :: rest)).take room, d.severity = .error) ↔
      (distinct before).length < room := by
  obtain ⟨seen, hEq, hSeen⟩ := @firstBy_append _ _ _ Diagnostic.key [] before (e :: rest)
  have hNew : e.key ∉ seen := by
    rw [hSeen, List.mem_map]
    rintro (h | ⟨d, hd, hKey⟩)
    · cases h
    · exact hBefore d hd ((congrArg Diagnostic.Key.severity hKey).trans he)
  have hNone : ∀ d ∈ distinct before, d.severity ≠ .error :=
    fun d hd => hBefore d ((firstBy_sublist [] before).subset hd)
  rw [distinct, hEq, firstBy, if_neg hNew, List.take_append]
  constructor
  · rintro ⟨d, hd, hError⟩
    by_contra hFull
    have hZero : room - (firstBy Diagnostic.key [] before).length = 0 := Nat.sub_eq_zero_of_le
      (Nat.le_of_not_lt hFull)
    rw [hZero, List.take_zero, List.append_nil] at hd
    exact hNone d (List.mem_of_mem_take hd) hError
  · intro hRoom
    obtain ⟨n, hn⟩ : ∃ n, room - (firstBy Diagnostic.key [] before).length = n + 1 :=
      ⟨_, (Nat.succ_pred_eq_of_pos (Nat.sub_pos_of_lt hRoom)).symm⟩
    refine ⟨e, List.mem_append_right _ ?_, he⟩
    rw [hn, List.take_succ_cons]
    exact List.mem_cons_self

end Run

namespace ObjectManager

section Limit

variable (checker : Text → Option Text) (v : RuleView)

/-- The warnings made up to a call. -/
def warningsUpTo (p : Nat) : List Diagnostic :=
  (List.range (p + 1)).flatMap fun i =>
    if IsDeprecated v.tokens i then [createWarning v i] else []

/-- The number of different ones among them. -/
def warningCount (p : Nat) : Nat := (Run.distinct (warningsUpTo v p)).length

/-- In one of several files a call leads to a class name of the past. -/
def HasLegacy (views : List RuleView) : Prop :=
  ∃ v ∈ views, ∃ p, (reachedName? checker v.tokens p).isSome = true

/-- In one of several files a call leads to a class name of the past, and the warnings up to it
leave room. -/
def LegacyWithin (views : List RuleView) (room : Nat) : Prop :=
  ∃ v ∈ views, ∃ p, (reachedName? checker v.tokens p).isSome = true ∧ warningCount v p < room

/-- What the rule says about the tokens of a file, in order. -/
def emitted : List Diagnostic :=
  (List.range v.tokens.length).flatMap fun i =>
    (process { replacement? := some checker } v i).diagnostics

end Limit

variable {checker : Text → Option Text} {v : RuleView}

theorem severity_of_mem_warningsUpTo {p : Nat} {d : Diagnostic} (h : d ∈ warningsUpTo v p) :
    d.severity ≠ .error := by
  obtain ⟨i, -, hd⟩ := List.mem_flatMap.mp h
  split at hd
  · rw [List.mem_singleton.mp hd]
    have hWarning : (createWarning v i).severity = .warning := rfl
    rw [hWarning]
    decide
  · cases hd

theorem lt_length_of_reachedName? {s : Stream} {p j : Nat} {newName : Text}
    (h : reachedName? checker s p = some (j, newName)) : p < s.length :=
  Stream.lt_length_of_isFunctionCall (reachedName?_eq_some_iff.mp h).1.1

/-- Up to the first call that leads to a name of the past, only warnings are made. -/
theorem emitted_eq_append {p j : Nat} {newName : Text}
    (hReached : reachedName? checker v.tokens p = some (j, newName))
    (hFirst : ∀ i < p, reachedName? checker v.tokens i = none) :
    ∃ rest, emitted checker v = warningsUpTo v p ++ legacyError v j newName :: rest := by
  have hp := lt_length_of_reachedName? hReached
  obtain ⟨n, hn⟩ : ∃ n, v.tokens.length = p + 1 + n := ⟨_, (Nat.add_sub_of_le hp).symm⟩
  have hBefore : (List.range p).flatMap (fun i =>
      (process { replacement? := some checker } v i).diagnostics) =
        (List.range p).flatMap fun i => if IsDeprecated v.tokens i then [createWarning v i] else [] := by
    refine List.flatMap_congr fun i hi => ?_
    rw [process_eq, hFirst i (List.mem_range.mp hi)]
    simp
  refine ⟨((List.range n).map (p + 1 + ·)).flatMap fun i =>
    (process { replacement? := some checker } v i).diagnostics, ?_⟩
  rw [emitted, hn, List.range_add, List.flatMap_append, List.range_succ, List.flatMap_append,
    hBefore, warningsUpTo, List.range_succ, List.flatMap_append]
  simp [process_eq, hReached]

theorem warningCount_mono {p q : Nat} (h : p ≤ q) : warningCount v p ≤ warningCount v q := by
  obtain ⟨n, rfl⟩ := Nat.exists_eq_add_of_le h
  have hSplit : List.range (p + n + 1) = List.range (p + 1) ++ (List.range n).map (p + 1 + ·) := by
    rw [← List.range_add]
    congr 1
    omega
  rw [warningCount, warningCount, warningsUpTo, warningsUpTo, hSplit, List.flatMap_append]
  exact Run.length_distinct_le_append _ _

/-- An error stands among the first reports if and only if some call leads to a class name of the
past, and there are fewer warnings up to it. -/
theorem exists_error_kept_iff {room : Nat} :
    (∃ d ∈ (Run.distinct (emitted checker v)).take room, d.severity = .error) ↔
      ∃ p, (reachedName? checker v.tokens p).isSome = true ∧ warningCount v p < room := by
  by_cases hAny : ∃ p, (reachedName? checker v.tokens p).isSome = true
  · -- all depends on the first such call
    obtain ⟨⟨j, newName⟩, hReached⟩ := Option.isSome_iff_exists.mp (Nat.find_spec hAny)
    have hFirst : ∀ i < Nat.find hAny, reachedName? checker v.tokens i = none := by
      intro i hi
      simpa using Nat.find_min hAny hi
    obtain ⟨rest, hEmitted⟩ := emitted_eq_append hReached hFirst
    rw [hEmitted, Run.exists_error_take_iff (fun d hd => severity_of_mem_warningsUpTo hd) rfl]
    constructor
    · intro hRoom
      exact ⟨Nat.find hAny, Nat.find_spec hAny, hRoom⟩
    · rintro ⟨p, hp, hRoom⟩
      exact Nat.lt_of_le_of_lt (warningCount_mono (Nat.find_min' hAny hp)) hRoom
  · constructor
    · rintro ⟨d, hd, hError⟩
      have hMem : d ∈ emitted checker v :=
        (firstBy_sublist [] _).subset (List.mem_of_mem_take hd)
      obtain ⟨i, -, hi⟩ := List.mem_flatMap.mp hMem
      rcases mem_process_iff.mp hi with ⟨-, rfl⟩ | ⟨j, newName, hReached, -⟩
      · cases hError
      · exact absurd ⟨i, by rw [hReached]; rfl⟩ hAny
    · rintro ⟨p, hp, -⟩
      exact absurd ⟨p, hp⟩ hAny

/-- Where there is room for all reports, there is room for an error. -/
theorem exists_warningCount_lt {room : Nat} (hRoom : (Run.distinct (emitted checker v)).length ≤ room)
    {p : Nat} (hp : (reachedName? checker v.tokens p).isSome = true) :
    ∃ q, (reachedName? checker v.tokens q).isSome = true ∧ warningCount v q < room := by
  obtain ⟨⟨j, newName⟩, hReached⟩ := Option.isSome_iff_exists.mp hp
  have hMem : legacyError v j newName ∈ emitted checker v := by
    refine List.mem_flatMap.mpr ⟨p, List.mem_range.mpr (lt_length_of_reachedName? hReached), ?_⟩
    exact mem_process_iff.mpr (Or.inr ⟨j, newName, hReached, rfl⟩)
  obtain ⟨d, hd, hKey⟩ := exists_mem_firstBy hMem (@List.not_mem_nil _ (legacyError v j newName).key)
  have hError : d.severity = .error := congrArg Diagnostic.Key.severity hKey
  refine exists_error_kept_iff.mp ⟨d, ?_, hError⟩
  rw [List.take_of_length_le hRoom]
  exact hd

/-- There are at most two reports for each token. -/
theorem length_distinct_emitted_le (checker : Text → Option Text) (v : RuleView) :
    (Run.distinct (emitted checker v)).length ≤ v.tokens.length * 2 := by
  have hTwo : ∀ i, (process { replacement? := some checker } v i).diagnostics.length ≤ 2 := by
    intro i
    rw [process_eq]
    by_cases h : IsDeprecated v.tokens i <;> cases reachedName? checker v.tokens i <;> simp [h]
  have hAll : ∀ is : List Nat, (is.flatMap fun i =>
      (process { replacement? := some checker } v i).diagnostics).length ≤ is.length * 2 := by
    intro is
    induction is with
    | nil => exact Nat.le_refl 0
    | cons i is ih =>
        have hHead := hTwo i
        rw [List.flatMap_cons, List.length_append, List.length_cons]
        omega
  refine Nat.le_trans (firstBy_sublist [] _).length_le ?_
  have hEmitted := hAll (List.range v.tokens.length)
  rwa [List.length_range] at hEmitted

theorem warningCount_pos {i p : Nat} (h : IsDeprecated v.tokens i) (hi : i ≤ p) :
    0 < warningCount v p := by
  have hMem : createWarning v i ∈ warningsUpTo v p := by
    refine List.mem_flatMap.mpr ⟨i, List.mem_range.mpr (Nat.lt_succ_of_le hi), ?_⟩
    rw [if_pos h]
    exact List.mem_singleton_self _
  obtain ⟨d, hd, -⟩ := exists_mem_firstBy hMem (@List.not_mem_nil _ (createWarning v i).key)
  exact List.length_pos_of_mem hd

theorem LegacyWithin.hasLegacy {views : List RuleView} {room : Nat}
    (h : LegacyWithin checker views room) : HasLegacy checker views := by
  obtain ⟨v, hv, p, hp, -⟩ := h
  exact ⟨v, hv, p, hp⟩

theorem LegacyWithin.mono {views : List RuleView} {room room' : Nat} (hRoom : room ≤ room')
    (h : LegacyWithin checker views room) : LegacyWithin checker views room' := by
  obtain ⟨v, hv, p, hp, hLt⟩ := h
  exact ⟨v, hv, p, hp, Nat.lt_of_lt_of_le hLt hRoom⟩

theorem HasLegacy.within {views : List RuleView} {room : Nat}
    (hRoom : ∀ v ∈ views, (Run.distinct (emitted checker v)).length ≤ room)
    (h : HasLegacy checker views) : LegacyWithin checker views room := by
  obtain ⟨v, hv, p, hp⟩ := h
  exact ⟨v, hv, exists_warningCount_lt (hRoom v hv) hp⟩

end ObjectManager

end TokenLint
