import Mathlib.Data.List.Perm.Basic
import TokenLint.Text

/-!
# Sorting is stable

What a predicate selects keeps its order when it is in order already, as elements are that the order
does not tell apart. And a list in order is known by its parts of elements that are not told apart,
so two ways to sort agree if they agree on these parts. Texts are sorted in byte order.

* `filter_mergeSort`, `mergeSort_eq_self`: what is in order stays as it is.
* `eq_of_ties`: lists in order with the same ties are equal.
* `pairwise_mergeSort_text`: sorting by a text.
* `Ranks.byKey`: comparing by one key after another.
* `Ranks.map_mergeSort_of_perm`: up to ties, the order does not depend on the one before.
-/

namespace TokenLint.Sorting

variable {α : Type}

/-- Sorting keeps a part that is in order. -/
theorem filter_mergeSort {le : α → α → Bool}
    (hTrans : ∀ a b c, le a b = true → le b c = true → le a c = true)
    (hTotal : ∀ a b, (le a b || le b a) = true) {p : α → Bool} {xs : List α}
    (h : (xs.filter p).Pairwise fun a b => le a b = true) :
    (xs.mergeSort le).filter p = xs.filter p := by
  have hKept : (xs.filter p).Sublist (xs.mergeSort le) :=
    List.sublist_mergeSort hTrans hTotal h List.filter_sublist
  have hSub := hKept.filter p
  rw [List.filter_filter] at hSub
  simp only [Bool.and_self] at hSub
  exact (hSub.eq_of_length ((List.mergeSort_perm xs le).filter p).length_eq.symm).symm

/-- What is in order stays as it is, ties included. -/
theorem mergeSort_eq_self {before : α → α → Bool} {xs : List α}
    (h : xs.Pairwise fun a b => before b a = false) :
    (xs.mergeSort fun a b => !before b a) = xs :=
  List.mergeSort_of_pairwise (h.imp fun hBefore => by rw [hBefore]; rfl)

/-- Sorting by a text puts the texts in byte order. -/
theorem pairwise_mergeSort_text (key : α → Text) (xs : List α) :
    (xs.mergeSort fun a b => Text.le (key a) (key b)).Pairwise fun a b => key a ≤ key b := by
  have hTrans : ∀ a b c, Text.le (key a) (key b) = true → Text.le (key b) (key c) = true →
      Text.le (key a) (key c) = true := by
    intro a b c hab hbc
    simp only [Text.le, decide_eq_true_eq] at hab hbc ⊢
    exact List.le_trans hab hbc
  have hTotal : ∀ a b, (Text.le (key a) (key b) || Text.le (key b) (key a)) = true := by
    intro a b
    simp only [Text.le, Bool.or_eq_true, decide_eq_true_eq]
    exact List.le_total (key a) (key b)
  refine (List.pairwise_mergeSort hTrans hTotal xs).imp fun h => ?_
  simpa only [Text.le, decide_eq_true_eq] using h

section Ties

variable {le tied : α → α → Prop} [DecidableRel tied]

theorem mem_iff_of_ties (hSelf : ∀ a, tied a a) {ys zs : List α}
    (hTies : ∀ a, ys.filter (tied a ·) = zs.filter (tied a ·)) (a : α) : a ∈ ys ↔ a ∈ zs := by
  have hIff : a ∈ ys.filter (tied a ·) ↔ a ∈ zs.filter (tied a ·) := by rw [hTies]
  simpa [List.mem_filter, hSelf a] using hIff

theorem le_of_mem_cons (hRefl : ∀ a, le a a) {a b : α} {xs : List α} (h : (a :: xs).Pairwise le)
    (hb : b ∈ a :: xs) : le a b := by
  rcases List.mem_cons.mp hb with rfl | hb
  · exact hRefl b
  · exact List.rel_of_pairwise_cons h hb

/-- A list that is in order is known by its parts of elements that are not told apart. -/
theorem eq_of_ties (hRefl : ∀ a, le a a) (hSelf : ∀ a, tied a a)
    (hTied : ∀ a b, le a b → le b a → tied a b) {ys zs : List α} (hys : ys.Pairwise le)
    (hzs : zs.Pairwise le) (hTies : ∀ a, ys.filter (tied a ·) = zs.filter (tied a ·)) :
    ys = zs := by
  induction ys generalizing zs with
  | nil =>
      refine (List.eq_nil_iff_forall_not_mem.mpr fun z hz => ?_).symm
      exact List.not_mem_nil ((mem_iff_of_ties hSelf hTies z).mpr hz)
  | cons y ys ih =>
      have hMem := mem_iff_of_ties hSelf hTies
      cases zs with
      | nil => exact absurd ((hMem y).mp List.mem_cons_self) List.not_mem_nil
      | cons z zs =>
          -- the first elements are not told apart, so each is the first of its part
          have hyz : tied y z := hTied y z
            (le_of_mem_cons hRefl hys ((hMem z).mpr List.mem_cons_self))
            (le_of_mem_cons hRefl hzs ((hMem y).mp List.mem_cons_self))
          have hFirst := hTies y
          simp only [List.filter_cons, hSelf y, hyz, decide_true, if_true] at hFirst
          obtain ⟨rfl, -⟩ := List.cons.inj hFirst
          refine congrArg (y :: ·) (ih hys.of_cons hzs.of_cons fun a => ?_)
          have hRest := hTies a
          by_cases ha : tied a y
          · simp only [List.filter_cons, ha, decide_true, if_true] at hRest
            exact (List.cons.inj hRest).2
          · simpa [ha] using hRest

end Ties

/-! ## Comparing by several keys -/

/-- The comparison puts elements in a row, but for those that are tied. -/
structure Ranks (before : α → α → Bool) (tied : α → α → Prop) : Prop where
  trans : ∀ {a b c : α}, before b a = false → before c b = false → before c a = false
  total : ∀ a b : α, before b a = false ∨ before a b = false
  tied_of : ∀ {a b : α}, before b a = false → before a b = false → tied a b

/-- Where nothing is compared, everything is tied. -/
theorem ranks_false : Ranks (fun _ _ : α => false) fun _ _ => True :=
  ⟨fun _ _ => rfl, fun _ _ => Or.inl rfl, fun _ _ => trivial⟩

/-- Compared by a key, and in another way where the keys are the same. -/
def byKey {κ : Type} [DecidableEq κ] [LT κ] [DecidableLT κ] (key : α → κ) (next : α → α → Bool)
    (a b : α) : Bool :=
  if key a ≠ key b then key a < key b else next a b

section Keys

variable {κ : Type} [DecidableEq κ] [LT κ] [DecidableLT κ] [LE κ] [Std.IsLinearOrder κ]
  [Std.LawfulOrderLT κ] {key : α → κ} {next : α → α → Bool} {tied : α → α → Prop} {a b : α}

theorem byKey_eq_false_iff :
    byKey key next b a = false ↔ key a < key b ∨ key a = key b ∧ next b a = false := by
  unfold byKey
  by_cases hKey : key b = key a
  · have hIrrefl : ¬ key a < key a := Std.lt_irrefl
    simp [hKey, hIrrefl]
  · have hApart : ¬ key b < key a ↔ key a < key b := by
      rw [Std.not_lt]
      exact ⟨fun h => Std.lt_of_le_of_ne h fun hEq => hKey hEq.symm, Std.le_of_lt⟩
    simp [hKey, Ne.symm hKey, hApart]

theorem Ranks.byKey (h : Ranks next tied) (key : α → κ) :
    Ranks (byKey key next) fun a b => key a = key b ∧ tied a b where
  trans {a b c} hab hbc := by
    rw [byKey_eq_false_iff] at hab hbc ⊢
    rcases hab with hab | ⟨hab, hNext⟩
    · rcases hbc with hbc | ⟨hbc, -⟩
      · exact Or.inl (Std.lt_trans hab hbc)
      · exact Or.inl (hbc ▸ hab)
    · rcases hbc with hbc | ⟨hbc, hNext'⟩
      · exact Or.inl (hab ▸ hbc)
      · exact Or.inr ⟨hab.trans hbc, h.trans hNext hNext'⟩
  total a b := by
    rw [byKey_eq_false_iff, byKey_eq_false_iff]
    rcases Std.lt_trichotomy (key a) (key b) with hKey | hKey | hKey
    · exact Or.inl (Or.inl hKey)
    · rcases h.total a b with hNext | hNext
      · exact Or.inl (Or.inr ⟨hKey, hNext⟩)
      · exact Or.inr (Or.inr ⟨hKey.symm, hNext⟩)
    · exact Or.inr (Or.inl hKey)
  tied_of {a b} hab hba := by
    rw [byKey_eq_false_iff] at hab hba
    rcases hab with hab | ⟨hab, hNext⟩
    · rcases hba with hba | ⟨hba, -⟩
      · exact absurd (Std.lt_trans hab hba) Std.lt_irrefl
      · exact absurd (hba ▸ hab) Std.lt_irrefl
    · rcases hba with hba | ⟨-, hNext'⟩
      · exact absurd (hab ▸ hba) Std.lt_irrefl
      · exact ⟨hab, h.tied_of hNext hNext'⟩

end Keys

namespace Ranks

variable {before : α → α → Bool} {tied : α → α → Prop}

theorem inOrder_trans (h : Ranks before tied) (a b c : α) (hab : (!before b a) = true)
    (hbc : (!before c b) = true) : (!before c a) = true := by
  rw [Bool.not_eq_true'] at hab hbc ⊢
  exact h.trans hab hbc

theorem inOrder_total (h : Ranks before tied) (a b : α) :
    ((!before b a) || (!before a b)) = true := by
  simpa using h.total a b

theorem pairwise_mergeSort (h : Ranks before tied) (xs : List α) :
    (xs.mergeSort fun a b => !before b a).Pairwise fun a b => before b a = false := by
  refine (List.pairwise_mergeSort h.inOrder_trans h.inOrder_total xs).imp fun hab => ?_
  simpa using hab

/-- Elements that are tied stay as they were. -/
theorem filter_mergeSort (h : Ranks before tied) {p : α → Bool} {xs : List α}
    (hTies : ∀ a ∈ xs.filter p, ∀ b ∈ xs.filter p, before b a = false) :
    (xs.mergeSort fun a b => !before b a).filter p = xs.filter p := by
  refine Sorting.filter_mergeSort h.inOrder_trans h.inOrder_total ?_
  refine List.pairwise_of_forall_mem_list fun a ha b hb => ?_
  rw [hTies a ha b hb]
  rfl

/-- What ties have in common comes in one order, whatever the order was before. -/
theorem map_mergeSort_of_perm (h : Ranks before tied) {common : α → α}
    (hBefore : ∀ a b, before (common a) (common b) = before a b) {xs ys : List α}
    (hPerm : xs.Perm ys) (hTied : ∀ a ∈ xs, ∀ b ∈ xs, tied a b → common a = common b) :
    (xs.mergeSort fun a b => !before b a).map common =
      (ys.mergeSort fun a b => !before b a).map common := by
  have hxs := List.mergeSort_perm xs fun a b => !before b a
  have hys := List.mergeSort_perm ys fun a b => !before b a
  have hSorted : ∀ zs : List α, ((zs.mergeSort fun a b => !before b a).map common).Pairwise
      fun a b => before b a = false := by
    intro zs
    rw [List.pairwise_map]
    simpa only [hBefore] using h.pairwise_mergeSort zs
  refine List.Perm.eq_of_pairwise ?_ (hSorted xs) (hSorted ys)
    ((hxs.trans (hPerm.trans hys.symm)).map common)
  intro p q hp hq hpq hqp
  obtain ⟨a, ha, rfl⟩ := List.mem_map.mp hp
  obtain ⟨b, hb, rfl⟩ := List.mem_map.mp hq
  rw [hBefore] at hpq hqp
  exact hTied a (hxs.mem_iff.mp ha) b (hPerm.mem_iff.mpr (hys.mem_iff.mp hb)) (h.tied_of hpq hqp)

/-- Elements in order, none of them tied, are the sorted ones. -/
theorem mergeSort_eq_of_perm (h : Ranks before tied) {xs ys : List α} (hPerm : xs.Perm ys)
    (hOrder : ys.Pairwise fun a b => before b a = false)
    (hUntied : ∀ a ∈ ys, ∀ b ∈ ys, tied a b → a = b) :
    (xs.mergeSort fun a b => !before b a) = ys := by
  have hSame : (xs.mergeSort fun a b => !before b a).Perm ys :=
    (List.mergeSort_perm xs _).trans hPerm
  refine hSame.eq_of_pairwise (fun a b ha hb hab hba => ?_) (h.pairwise_mergeSort xs) hOrder
  exact hUntied a (hSame.mem_iff.mp ha) b hb (h.tied_of hab hba)

end Ranks

end TokenLint.Sorting
