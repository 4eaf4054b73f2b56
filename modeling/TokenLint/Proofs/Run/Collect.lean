import Mathlib.Data.List.Induction
import Mathlib.Data.List.Nodup
import TokenLint.Proofs.Sorting
import TokenLint.Run.File

/-!
# Collecting reports

Reports pass a filter that remembers keys, go into a bag as long as there is room, and are
sorted in the end. Here is what comes of it:

* `collect_items`: the bag holds the first reports of each key, as many as there is room for,
  sorted;
* `collect_dropped`: what did not fit is counted, each key once;
* `sort_pairwise`, `sort_perm`: sorting orders by file, token, severity and code and loses
  nothing.
-/

namespace TokenLint

theorem flatMap_filter {α β : Type} (p : α → Bool) (f : α → List β) (xs : List α) :
    (xs.filter p).flatMap f = xs.flatMap fun x => if p x then f x else [] := by
  induction xs with
  | nil => rfl
  | cons x xs ih => cases h : p x <;> simp [h, ih]

/-! ## The first element of each key -/

/-- The elements whose key is neither in `seen` nor that of an earlier element. -/
def firstBy {α β : Type} [DecidableEq β] (key : α → β) (seen : List β) : List α → List α
  | [] => []
  | x :: rest =>
    if key x ∈ seen then firstBy key seen rest else x :: firstBy key (key x :: seen) rest

section FirstBy

variable {α β : Type} [DecidableEq β] {key : α → β}

theorem firstBy_sublist (seen : List β) (xs : List α) : (firstBy key seen xs).Sublist xs := by
  induction xs generalizing seen with
  | nil => exact List.Sublist.slnil
  | cons x xs ih =>
      rw [firstBy]
      split
      · exact (ih seen).cons x
      · exact (ih _).cons_cons x

theorem not_mem_seen_of_mem_firstBy {seen : List β} {xs : List α} {y : α}
    (h : y ∈ firstBy key seen xs) : key y ∉ seen := by
  induction xs generalizing seen with
  | nil => simp [firstBy] at h
  | cons x xs ih =>
      rw [firstBy] at h
      split at h
      · exact ih h
      · rename_i hNew
        rcases List.mem_cons.mp h with rfl | h
        · exact hNew
        · exact fun hy => ih h (List.mem_cons_of_mem _ hy)

/-- No two elements that are kept have the same key. -/
theorem nodup_map_firstBy (seen : List β) (xs : List α) :
    ((firstBy key seen xs).map key).Nodup := by
  induction xs generalizing seen with
  | nil => exact List.nodup_nil
  | cons x xs ih =>
      rw [firstBy]
      split
      · exact ih seen
      · rw [List.map_cons, List.nodup_cons]
        refine ⟨fun hMem => ?_, ih _⟩
        obtain ⟨y, hy, hKey⟩ := List.mem_map.mp hMem
        exact not_mem_seen_of_mem_firstBy hy (hKey ▸ List.mem_cons_self)

/-- The elements of a first list are chosen without regard to what comes after it. -/
theorem firstBy_append (seen : List β) (xs ys : List α) :
    ∃ seen', firstBy key seen (xs ++ ys) = firstBy key seen xs ++ firstBy key seen' ys ∧
      ∀ k, k ∈ seen' ↔ k ∈ seen ∨ k ∈ xs.map key := by
  induction xs generalizing seen with
  | nil => exact ⟨seen, rfl, by simp⟩
  | cons x xs ih =>
      rw [List.cons_append, firstBy, firstBy]
      by_cases hSeen : key x ∈ seen
      · obtain ⟨seen', hEq, hMem⟩ := ih seen
        rw [if_pos hSeen, if_pos hSeen]
        refine ⟨seen', hEq, fun k => ?_⟩
        rw [hMem, List.map_cons, List.mem_cons]
        constructor
        · rintro (h | h)
          · exact Or.inl h
          · exact Or.inr (Or.inr h)
        · rintro (h | rfl | h)
          · exact Or.inl h
          · exact Or.inl hSeen
          · exact Or.inr h
      · obtain ⟨seen', hEq, hMem⟩ := ih (key x :: seen)
        rw [if_neg hSeen, if_neg hSeen]
        refine ⟨seen', by rw [hEq, List.cons_append], fun k => ?_⟩
        rw [hMem, List.map_cons, List.mem_cons, List.mem_cons]
        tauto

theorem firstBy_concat (xs : List α) (x : α) :
    firstBy key [] (xs ++ [x]) =
      firstBy key [] xs ++ if key x ∈ xs.map key then [] else [x] := by
  obtain ⟨seen, hEq, hSeen⟩ := @firstBy_append α β _ key [] xs [x]
  have hMem : key x ∈ seen ↔ key x ∈ xs.map key := by
    rw [hSeen]
    simp
  rw [hEq, firstBy]
  simp only [hMem, firstBy]

/-- Every key that is not in `seen` is represented. -/
theorem exists_mem_firstBy {seen : List β} {xs : List α} {x : α} (hx : x ∈ xs)
    (hNew : key x ∉ seen) : ∃ y ∈ firstBy key seen xs, key y = key x := by
  induction xs generalizing seen with
  | nil => simp at hx
  | cons a xs ih =>
      rw [firstBy]
      by_cases hSame : key a = key x
      · rw [if_neg (hSame ▸ hNew)]
        exact ⟨a, List.mem_cons_self, hSame⟩
      · have hx' : x ∈ xs := by
          rcases List.mem_cons.mp hx with rfl | hx'
          · exact absurd rfl hSame
          · exact hx'
        split
        · exact ih hx' hNew
        · have hNew' : key x ∉ key a :: seen := by
            rw [List.mem_cons, not_or]
            exact ⟨fun h => hSame h.symm, hNew⟩
          obtain ⟨y, hy, hKey⟩ := ih hx' hNew'
          exact ⟨y, List.mem_cons_of_mem _ hy, hKey⟩

theorem mem_map_firstBy_iff {xs : List α} {k : β} :
    k ∈ (firstBy key [] xs).map key ↔ k ∈ xs.map key := by
  refine ⟨fun h => ((firstBy_sublist [] xs).map key).subset h, fun h => ?_⟩
  obtain ⟨x, hx, rfl⟩ := List.mem_map.mp h
  obtain ⟨y, hy, hKey⟩ := exists_mem_firstBy hx (List.not_mem_nil (a := key x))
  exact List.mem_map.mpr ⟨y, hy, hKey⟩

/-- Nothing is left out of a list without repeated keys. -/
theorem firstBy_eq_self_iff {xs : List α} : firstBy key [] xs = xs ↔ (xs.map key).Nodup := by
  refine ⟨fun h => h ▸ nodup_map_firstBy [] xs, fun h => ?_⟩
  induction xs using List.reverseRecOn with
  | nil => rfl
  | append_singleton xs x ih =>
      rw [List.map_append, List.nodup_append] at h
      have hNew : key x ∉ xs.map key := fun hx => h.2.2 _ hx (key x) (by simp) rfl
      rw [firstBy_concat, ih h.1, if_neg hNew]

/-- What is kept is the first element of its key. -/
theorem find?_of_mem_firstBy {xs : List α} {y : α} (h : y ∈ firstBy key [] xs) :
    xs.find? (fun x => key x = key y) = some y := by
  induction xs using List.reverseRecOn with
  | nil => exact absurd h List.not_mem_nil
  | append_singleton xs x ih =>
      rw [firstBy_concat, List.mem_append] at h
      rw [List.find?_append]
      rcases h with hOld | hNew
      · rw [ih hOld, Option.some_or]
      · split at hNew
        · exact absurd hNew List.not_mem_nil
        · rename_i hKey
          obtain rfl := List.mem_singleton.mp hNew
          have hNone : xs.find? (fun x => key x = key y) = none := by
            simpa [List.mem_map] using hKey
          rw [hNone, Option.none_or]
          exact List.find?_cons_of_pos (decide_eq_true rfl)

theorem nodup_firstBy (seen : List β) (xs : List α) : (firstBy key seen xs).Nodup :=
  List.Nodup.of_map key (nodup_map_firstBy seen xs)

/-- If the key determines the elements of a list, what is kept has the same elements. -/
theorem mem_firstBy_iff_of_injOn {xs : List α}
    (hInj : ∀ x ∈ xs, ∀ y ∈ xs, key x = key y → x = y) {x : α} :
    x ∈ firstBy key [] xs ↔ x ∈ xs := by
  refine ⟨fun h => (firstBy_sublist [] xs).subset h, fun hx => ?_⟩
  obtain ⟨y, hy, hKey⟩ := exists_mem_firstBy hx (List.not_mem_nil (a := key x))
  rw [← hInj y ((firstBy_sublist [] xs).subset hy) x hx hKey]
  exact hy

end FirstBy

/-! ## The order of diagnostics -/

namespace Diagnostic

/-- `a` may stand before `b`. -/
theorem before_eq_false_iff {a b : Diagnostic} :
    before b a = false ↔
      a.primary.file.toNat < b.primary.file.toNat ∨
        a.primary.file.toNat = b.primary.file.toNat ∧
          (a.primary.token.toNat < b.primary.token.toNat ∨
            a.primary.token.toNat = b.primary.token.toNat ∧
              (b.severity.rank.toNat < a.severity.rank.toNat ∨
                a.severity.rank.toNat = b.severity.rank.toNat ∧ a.code ≤ b.code)) := by
  have hSeverity : b.severity = a.severity ↔ b.severity.rank.toNat = a.severity.rank.toNat := by
    rw [UInt8.toNat_inj]
    exact ⟨fun h => h ▸ rfl, fun h => by cases hb : b.severity; cases ha : a.severity; simp_all⟩
  unfold before
  by_cases hFile : b.primary.file = a.primary.file
  · by_cases hToken : b.primary.token = a.primary.token
    · by_cases hSame : b.severity = a.severity
      · simp [hFile, hToken, hSame, List.not_lt]
      · have hRank : ¬ a.severity.rank.toNat = b.severity.rank.toNat :=
          fun h => hSame (hSeverity.mpr h.symm)
        simp only [hFile, hToken, hSame, hRank, ne_eq, not_true_eq_false, not_false_eq_true,
          if_true, if_false, false_and, true_and, or_false, decide_eq_false_iff_not,
          UInt8.lt_iff_toNat_lt]
        omega
    · have hToken' : ¬ a.primary.token.toNat = b.primary.token.toNat :=
        fun h => hToken (UInt32.toNat_inj.mp h.symm)
      simp only [hFile, hToken, hToken', ne_eq, not_true_eq_false, not_false_eq_true, if_true,
        if_false, false_and, true_and, or_false, decide_eq_false_iff_not, UInt32.lt_iff_toNat_lt]
      omega
  · have hFile' : ¬ a.primary.file.toNat = b.primary.file.toNat :=
      fun h => hFile (UInt32.toNat_inj.mp h.symm)
    simp only [hFile, hFile', ne_eq, not_false_eq_true, if_true, false_and, or_false,
      decide_eq_false_iff_not, UInt32.lt_iff_toNat_lt]
    omega

theorem not_before_trans {a b c : Diagnostic} (hab : before b a = false)
    (hbc : before c b = false) : before c a = false := by
  rw [before_eq_false_iff] at hab hbc ⊢
  rcases hab with h | ⟨h, h' | ⟨h', h'' | ⟨h'', hCode⟩⟩⟩ <;>
    rcases hbc with k | ⟨k, k' | ⟨k', k'' | ⟨k'', kCode⟩⟩⟩
  case inr.inr.inr.inr.inr.inr =>
    exact Or.inr ⟨h.trans k, Or.inr ⟨h'.trans k', Or.inr ⟨h''.trans k'', List.le_trans hCode kCode⟩⟩⟩
  all_goals omega

theorem not_before_total (a b : Diagnostic) : before b a = false ∨ before a b = false := by
  rw [before_eq_false_iff, before_eq_false_iff]
  rcases List.le_total a.code b.code with h | h
  all_goals
    simp only [h, and_true]
    omega

/-- Diagnostics that are not told apart have the same place, severity and code. -/
theorem eq_of_not_before {a b : Diagnostic} (hab : before b a = false)
    (hba : before a b = false) :
    a.primary = b.primary ∧ a.severity = b.severity ∧ a.code = b.code := by
  rw [before_eq_false_iff] at hab hba
  have hFile : a.primary.file.toNat = b.primary.file.toNat := by omega
  have hToken : a.primary.token.toNat = b.primary.token.toNat := by omega
  have hRank : a.severity.rank.toNat = b.severity.rank.toNat := by omega
  simp only [hFile, hToken, hRank, Nat.lt_irrefl, false_or, true_and] at hab hba
  refine ⟨?_, ?_, List.le_antisymm hab hba⟩
  · exact Pos.mk.injEq _ _ _ _ ▸ ⟨UInt32.toNat_inj.mp hFile, UInt32.toNat_inj.mp hToken⟩
  · exact Severity.mk.injEq _ _ ▸ UInt8.toNat_inj.mp hRank

theorem ranks_before : Sorting.Ranks before fun a b =>
    a.primary = b.primary ∧ a.severity = b.severity ∧ a.code = b.code :=
  ⟨not_before_trans, not_before_total, eq_of_not_before⟩

theorem sort_perm (ds : List Diagnostic) : (sort ds).Perm ds := List.mergeSort_perm _ _

theorem sort_of_pairwise {ds : List Diagnostic} (h : ds.Pairwise fun a b => before b a = false) :
    sort ds = ds :=
  Sorting.mergeSort_eq_self h

theorem sort_pairwise (ds : List Diagnostic) :
    (sort ds).Pairwise fun a b => before b a = false :=
  ranks_before.pairwise_mergeSort ds

end Diagnostic

/-! ## Bags and filters -/

theorem Bag.foldl_add (b : Bag) (ds : List Diagnostic) (hRoom : b.items.size ≤ b.capacity) :
    (ds.foldl Bag.add b).items.toList =
        b.items.toList ++ ds.take (b.capacity - b.items.size) ∧
      (ds.foldl Bag.add b).capacity = b.capacity ∧
      (ds.foldl Bag.add b).dropped =
        b.dropped + (ds.length - (b.capacity - b.items.size)) := by
  induction ds generalizing b with
  | nil => simp
  | cons d ds ih =>
      rw [List.foldl_cons]
      by_cases hFull : b.items.size < b.capacity
      · have hAdd : b.add d = { b with items := b.items.push d } := by
          simp [Bag.add, Bag.hasRoom, hFull]
        have hSize : (b.items.push d).size = b.items.size + 1 := Array.size_push d
        obtain ⟨hItems, hCapacity, hDropped⟩ := ih (b.add d) (by rw [hAdd]; simp; omega)
        rw [hItems, hCapacity, hDropped, hAdd]
        -- one place of those left is taken by `d`
        obtain ⟨n, hn⟩ : ∃ n, b.capacity - b.items.size = n + 1 :=
          ⟨b.capacity - b.items.size - 1, by omega⟩
        have hn' : b.capacity - (b.items.push d).size = n := by omega
        refine ⟨?_, rfl, ?_⟩
        · rw [hn, hn', List.take_succ_cons, Array.toList_push, List.append_assoc]
          rfl
        · simp only [hn, hn', List.length_cons]
          omega
      · have hAdd : b.add d = { b with dropped := b.dropped + 1 } := by
          simp [Bag.add, Bag.hasRoom, hFull]
        obtain ⟨hItems, hCapacity, hDropped⟩ := ih (b.add d) (by rw [hAdd]; exact hRoom)
        have hNone : b.capacity - b.items.size = 0 := by omega
        rw [hItems, hCapacity, hDropped, hAdd]
        refine ⟨by simp [hNone], rfl, ?_⟩
        simp only [hNone, List.length_cons]
        omega

/-- A filter in front of a bag lets the first report of each key pass. -/
theorem Sink.foldl_report_unique (ds : List Diagnostic) (seen : List Diagnostic.Key) (b : Bag) :
    (ds.foldl Sink.report (.unique seen (.bag b))).bag? =
      some ((firstBy Diagnostic.key seen ds).foldl Bag.add b) := by
  induction ds generalizing seen b with
  | nil => rfl
  | cons d ds ih =>
      rw [List.foldl_cons, Sink.report, firstBy]
      split
      · exact ih seen b
      · exact ih (d.key :: seen) (b.add d)

/-- What a rule reports is what it says, and its crash. -/
theorem Rule.mem_findings_iff {r : Rule} {v : RuleView} {i : Nat} {d : Diagnostic} :
    d ∈ r.findings v i ↔
      d ∈ (r.process v i).diagnostics ∨
        ∃ words, (r.process v i).crash = some words ∧ d = r.crashed v i words := by
  rw [Rule.findings, List.mem_append, Option.mem_toList, Option.map_eq_some_iff]
  simp only [@eq_comm Diagnostic _ d]

namespace Run

/-- What rules report for the tokens of a run that is not cancelled, token by token. -/
theorem findingsFrom_eq_flatMap (rules : Registry) (base : RuleView) (i : Nat) (s : Stream) :
    findingsFrom rules base (fun _ => false) i s =
      (s.zipIdx i).flatMap fun p => findingsAt rules base p.1 p.2 := by
  induction s generalizing i with
  | nil => rfl
  | cons t s ih => simp [findingsFrom, ih]

/-- The reports that differ from all earlier ones. -/
def distinct (reports : List Diagnostic) : List Diagnostic := firstBy Diagnostic.key [] reports

/-- The room in the bag of a file. -/
def room (max : Int) : Nat := (Bag.ofCapacity max).capacity

theorem collect_items (max : Int) (reports : List Diagnostic) :
    (collect max reports).items.toList = Diagnostic.sort ((distinct reports).take (room max)) := by
  have hItems := (Bag.foldl_add (Bag.ofCapacity max) (distinct reports) (Nat.zero_le _)).1
  simp only [collect, Sink.foldl_report_unique, Option.getD_some, Bag.sort]
  exact congrArg Diagnostic.sort hItems

theorem collect_dropped (max : Int) (reports : List Diagnostic) :
    (collect max reports).dropped = (distinct reports).length - room max := by
  have hDropped := (Bag.foldl_add (Bag.ofCapacity max) (distinct reports) (Nat.zero_le _)).2.2
  simp only [collect, Sink.foldl_report_unique, Option.getD_some, Bag.sort]
  exact hDropped.trans (Nat.zero_add _)

/-- A bag is known by the different reports and the room. -/
theorem collect_eq (max : Int) (reports : List Diagnostic) :
    collect max reports =
      { items := (Diagnostic.sort ((distinct reports).take (room max))).toArray
        capacity := room max, dropped := (distinct reports).length - room max } := by
  have hCapacity := (Bag.foldl_add (Bag.ofCapacity max) (distinct reports) (Nat.zero_le _)).2.1
  have hSame : (collect max reports).capacity = room max := by
    simp only [collect, Sink.foldl_report_unique, Option.getD_some, Bag.sort]
    exact hCapacity
  rw [← collect_items, ← collect_dropped, ← hSame, Array.toArray_toList]

theorem size_collect (max : Int) (reports : List Diagnostic) :
    (collect max reports).size = min (room max) (distinct reports).length := by
  rw [Bag.size, ← Array.length_toList, collect_items, (Diagnostic.sort_perm _).length_eq,
    List.length_take]

/-- Where nothing is dropped, the bag holds all reports that differ from earlier ones. -/
theorem collect_items_of_dropped_eq_zero {max : Int} {reports : List Diagnostic}
    (h : (collect max reports).dropped = 0) :
    (collect max reports).items.toList = Diagnostic.sort (distinct reports) := by
  rw [collect_dropped] at h
  rw [collect_items, List.take_of_length_le (by omega)]

end Run

end TokenLint
