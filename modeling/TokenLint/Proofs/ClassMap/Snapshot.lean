import TokenLint.Proofs.Table
import TokenLint.Proofs.Text.Trim

/-!
# Class maps made of their own pairs

The pairs of a class map can be written down, and a class map can be made of them again. Making it
cuts the names once more, which is not always idle: a name that stood behind a backslash and a
blank keeps the blank the first time and loses it the second time.

* `Built.proper`: what every class map that can be made is like, however it was combined.
* `Proper.snapshot_pairs_perm_iff`: the pairs come back as they were if and only if no name has
  white space at its ends.
* `Proper.snapshot_alike`: in that case nothing else changes either.
-/

namespace TokenLint.ClassMap

variable {fold : Text → Text} {m m' : ClassMap}

/-- The class maps that can be made: those of pairs of names, and those combined of others. -/
inductive Built (fold : Text → Text) : ClassMap → Prop
  | ofPairs (pairs : List (Text × Text)) : Built fold (ofPairsWith fold pairs)
  | merge {m m' : ClassMap} : Built fold m → Built fold m' → Built fold (m.merge m')

/-- Every class stands under its folded name, once, and its names are not empty and without
backslashes at their ends. -/
structure Proper (fold : Text → Text) (m : ClassMap) : Prop where
  nodup : (m.entries.map Prod.fst).Nodup
  key_eq : ∀ x ∈ m.entries, x.1 = fold x.2.legacy
  legacy_bare : ∀ x ∈ m.entries, x.2.legacy ≠ [] ∧ bare x.2.legacy = x.2.legacy
  modern_bare : ∀ x ∈ m.entries, x.2.modern ≠ [] ∧ bare x.2.modern = x.2.modern

/-! ## Class maps that can be made -/

theorem proper_empty : Proper fold {} := by
  constructor <;> simp

theorem Proper.set (h : Proper fold m) (e : ClassEntry)
    (hLegacy : e.legacy ≠ [] ∧ bare e.legacy = e.legacy)
    (hModern : e.modern ≠ [] ∧ bare e.modern = e.modern) :
    Proper fold (m.set (fold e.legacy) e) where
  nodup := Table.nodup_keys_assign h.nodup _ _
  key_eq x hx := by
    rcases Table.mem_assign hx with rfl | hOld
    · rfl
    · exact h.key_eq x hOld
  legacy_bare x hx := by
    rcases Table.mem_assign hx with rfl | hOld
    · exact hLegacy
    · exact h.legacy_bare x hOld
  modern_bare x hx := by
    rcases Table.mem_assign hx with rfl | hOld
    · exact hModern
    · exact h.modern_bare x hOld

theorem Proper.addPair (h : Proper fold m) (pair : Text × Text) :
    Proper fold (m.addPair fold pair) := by
  unfold ClassMap.addPair
  simp only [Bool.or_eq_true, decide_eq_true_eq]
  split
  · exact h
  · rename_i hNames
    obtain ⟨hLegacy, hModern⟩ := not_or.mp hNames
    exact h.set ⟨normalize pair.1, normalize pair.2⟩ ⟨hLegacy, bare_normalize pair.1⟩
      ⟨hModern, bare_normalize pair.2⟩

theorem proper_ofPairsWith (pairs : List (Text × Text)) : Proper fold (ofPairsWith fold pairs) := by
  have hRun : ∀ (rest : List (Text × Text)) (m : ClassMap), Proper fold m →
      Proper fold (rest.foldl (ClassMap.addPair fold) m) := by
    intro rest
    induction rest with
    | nil => exact fun m h => h
    | cons pair rest ih => exact fun m h => ih _ (h.addPair pair)
  exact hRun _ _ proper_empty

theorem Proper.merge (h : Proper fold m) (h' : Proper fold m') : Proper fold (m.merge m') := by
  have hRun : ∀ (rest : List (Text × ClassEntry)) (out : ClassMap), Proper fold out →
      (∀ x ∈ rest, x ∈ m'.entries) →
      Proper fold (rest.foldl (fun out x => out.set x.1 x.2) out) := by
    intro rest
    induction rest with
    | nil => exact fun out hOut _ => hOut
    | cons x rest ih =>
        intro out hOut hMem
        have hx := hMem x List.mem_cons_self
        apply ih
        · dsimp only
          rw [h'.key_eq x hx]
          exact hOut.set x.2 (h'.legacy_bare x hx) (h'.modern_bare x hx)
        · exact fun y hy => hMem y (List.mem_cons_of_mem _ hy)
  exact hRun _ _ h fun x hx => hx

theorem Built.proper (h : Built fold m) : Proper fold m := by
  induction h with
  | ofPairs pairs => exact proper_ofPairsWith pairs
  | merge _ _ ih ih' => exact ih.merge ih'

/-! ## Making a class map of its own pairs -/

/-- The class map that is made of the pairs of a class map. -/
def snapshotWith (fold : Text → Text) (m : ClassMap) : ClassMap := ofPairsWith fold m.pairs

/-- The class map that is made of the pairs of a class map, under the case folding of Unicode. -/
def snapshot (m : ClassMap) : ClassMap := ofPairs m.pairs

/-- Both class maps have as many classes, and give the same answer for every name. -/
structure Alike (fold : Text → Text) (m m' : ClassMap) : Prop where
  size_eq : m.size = m'.size
  replacement_eq : ∀ name, m.replacementWith? fold name = m'.replacementWith? fold name

/-- No name of the class map has white space at its ends. -/
def NeatNames (m : ClassMap) : Prop := ∀ p ∈ m.pairs, p.1.Neat ∧ p.2.Neat

instance (m : ClassMap) : Decidable m.NeatNames :=
  inferInstanceAs (Decidable (∀ p ∈ m.pairs, _))

/-- Both names of a pair, cut as they are when a class map is made. -/
def normalizePair (p : Text × Text) : Text × Text := (normalize p.1, normalize p.2)

/-- The pair as an entry. -/
def entryOf (fold : Text → Text) (p : Text × Text) : Text × ClassEntry := (fold p.1, ⟨p.1, p.2⟩)

theorem pairs_bare (h : Proper fold m) {p : Text × Text} (hp : p ∈ m.pairs) :
    (p.1 ≠ [] ∧ bare p.1 = p.1) ∧ (p.2 ≠ [] ∧ bare p.2 = p.2) := by
  obtain ⟨x, hx, rfl⟩ := List.mem_map.mp hp
  exact ⟨h.legacy_bare x hx, h.modern_bare x hx⟩

theorem entries_eq (h : Proper fold m) : m.pairs.map (entryOf fold) = m.entries := by
  rw [ClassMap.pairs, List.map_map]
  conv => rhs; rw [← List.map_id m.entries]
  apply List.map_congr_left
  intro x hx
  exact Prod.ext (h.key_eq x hx).symm rfl

theorem Proper.nodup_pairs (h : Proper fold m) : (m.pairs.map Prod.fst).Nodup := by
  -- two classes with one name of the past would stand under one folded name
  have hKeys : m.entries.map Prod.fst = (m.pairs.map Prod.fst).map fold := by
    rw [← entries_eq h, List.map_map, List.map_map]
    rfl
  have hNodup := h.nodup
  rw [hKeys] at hNodup
  exact hNodup.of_map

theorem normalizePair_eq_self_iff (h : Proper fold m) {p : Text × Text} (hp : p ∈ m.pairs) :
    normalizePair p = p ↔ p.1.Neat ∧ p.2.Neat := by
  obtain ⟨⟨_, hLegacy⟩, ⟨_, hModern⟩⟩ := pairs_bare h hp
  rw [normalizePair, Prod.ext_iff, normalize_eq_self_iff hLegacy, normalize_eq_self_iff hModern]

/-- Every pair of a class map comes from a pair it was made of, by cutting the names. -/
theorem exists_of_mem_pairs_ofPairsWith {pairs : List (Text × Text)} {p : Text × Text}
    (hp : p ∈ (ofPairsWith fold pairs).pairs) : ∃ q ∈ pairs, normalizePair q = p := by
  have hRun : ∀ (rest : List (Text × Text)) (m : ClassMap),
      p ∈ (rest.foldl (addPair fold) m).pairs → p ∈ m.pairs ∨ ∃ q ∈ rest, normalizePair q = p := by
    intro rest
    induction rest with
    | nil => exact fun m h => Or.inl h
    | cons q rest ih =>
        intro m hMem
        rcases ih _ hMem with hAdded | ⟨q', hq', hEq⟩
        · unfold addPair at hAdded
          dsimp only at hAdded
          split at hAdded
          · exact Or.inl hAdded
          · obtain ⟨x, hx, rfl⟩ := List.mem_map.mp hAdded
            rcases Table.mem_assign hx with rfl | hOld
            · exact Or.inr ⟨q, List.mem_cons_self, rfl⟩
            · exact Or.inl (List.mem_map.mpr ⟨x, hOld, rfl⟩)
        · exact Or.inr ⟨q', List.mem_cons_of_mem _ hq', hEq⟩
  rcases hRun _ _ hp with hNone | ⟨q, hq, hEq⟩
  · cases hNone
  · exact ⟨q, List.mem_mergeSort.mp hq, hEq⟩

theorem exists_bound {α : Type} (size : α → Nat) (xs : List α) :
    ∃ bound, ∀ a ∈ xs, size a ≤ bound := by
  induction xs with
  | nil => exact ⟨0, by simp⟩
  | cons x xs ih =>
      obtain ⟨bound, hBound⟩ := ih
      refine ⟨size x + bound, ?_⟩
      intro a ha
      rcases List.mem_cons.mp ha with rfl | ha
      · omega
      · have hLe := hBound a ha
        omega

/-- Where every element is the image of another one, and images that differ are smaller, every
element is its own image. -/
theorem fixed_of_forall_exists {α : Type} (f : α → α) (size : α → Nat) {xs : List α}
    (hSmaller : ∀ a, f a ≠ a → size (f a) < size a) (hImage : ∀ a ∈ xs, ∃ b ∈ xs, f b = a) :
    ∀ a ∈ xs, f a = a := by
  obtain ⟨bound, hBound⟩ := exists_bound size xs
  intro a
  -- induction on how far the size of the element is from the bound
  induction hGap : bound - size a using Nat.strong_induction_on generalizing a with
  | _ gap ih =>
      intro ha
      obtain ⟨b, hb, hEq⟩ := hImage a ha
      by_cases hFixed : f b = b
      · rw [← hEq, hFixed, hFixed]
      · have hLt : size a < size b := hEq ▸ hSmaller b hFixed
        have hLe := hBound b hb
        exact absurd (ih _ (by omega) b rfl hb) hFixed

theorem normalizePair_smaller (p : Text × Text) (h : normalizePair p ≠ p) :
    (normalizePair p).1.length + (normalizePair p).2.length < p.1.length + p.2.length := by
  have hLegacy : (normalizePair p).1.length ≤ p.1.length := length_normalize_le p.1
  have hModern : (normalizePair p).2.length ≤ p.2.length := length_normalize_le p.2
  by_cases hEq : normalize p.1 = p.1
  · have hNe : normalize p.2 ≠ p.2 := fun hEq' => h (Prod.ext hEq hEq')
    have hLt : (normalizePair p).2.length < p.2.length := length_normalize_lt hNe
    omega
  · have hLt : (normalizePair p).1.length < p.1.length := length_normalize_lt hEq
    omega

theorem Proper.snapshot_entries_perm (h : Proper fold m) (hNeat : m.NeatNames) :
    (m.snapshotWith fold).entries.Perm m.entries := by
  let sorted := m.pairs.mergeSort fun a b => Text.le a.1 b.1
  have hPerm : sorted.Perm m.pairs := List.mergeSort_perm _ _
  have hEntries : (sorted.map (entryOf fold)).Perm m.entries := by
    rw [← entries_eq h]
    exact hPerm.map _
  have hStep : ∀ (rest : List (Text × Text)) (out : ClassMap), (∀ p ∈ rest, p ∈ m.pairs) →
      (rest.foldl (ClassMap.addPair fold) out).entries =
        (rest.map (entryOf fold)).foldl (fun table x => Table.assign table x.1 x.2) out.entries := by
    intro rest
    induction rest with
    | nil => exact fun out _ => rfl
    | cons p rest ih =>
        intro out hMem
        have hp := hMem p List.mem_cons_self
        obtain ⟨⟨hLegacy, hBareLegacy⟩, ⟨hModern, hBareModern⟩⟩ := pairs_bare h hp
        have hAdd : ClassMap.addPair fold out p = out.set (fold p.1) ⟨p.1, p.2⟩ := by
          unfold ClassMap.addPair
          rw [(normalize_eq_self_iff hBareLegacy).mpr (hNeat p hp).1,
            (normalize_eq_self_iff hBareModern).mpr (hNeat p hp).2]
          simp [hLegacy, hModern]
        rw [List.foldl_cons, hAdd, ih _ fun q hq => hMem q (List.mem_cons_of_mem _ hq)]
        rfl
  have hNodup : ((sorted.map (entryOf fold)).map Prod.fst).Nodup :=
    (hEntries.map Prod.fst).nodup_iff.mpr h.nodup
  have hFold : (m.snapshotWith fold).entries = sorted.map (entryOf fold) := by
    have hRun := hStep sorted {} fun p hp => hPerm.mem_iff.mp hp
    rw [Table.foldl_assign_of_nodup _ _ (by simpa using hNodup)] at hRun
    exact hRun
  rw [hFold]
  exact hEntries

theorem Proper.snapshot_pairs_perm_iff (h : Proper fold m) :
    (m.snapshotWith fold).pairs.Perm m.pairs ↔ m.NeatNames := by
  constructor
  · intro hPerm
    have hImage : ∀ p ∈ m.pairs, ∃ q ∈ m.pairs, normalizePair q = p := fun p hp =>
      exists_of_mem_pairs_ofPairsWith (hPerm.mem_iff.mpr hp)
    intro p hp
    exact (normalizePair_eq_self_iff h hp).mp
      (fixed_of_forall_exists normalizePair (fun p => p.1.length + p.2.length)
        normalizePair_smaller hImage p hp)
  · intro hNeat
    exact (h.snapshot_entries_perm hNeat).map _

theorem Proper.snapshot_alike (h : Proper fold m) (hNeat : m.NeatNames) :
    Alike fold (m.snapshotWith fold) m := by
  have hPerm := h.snapshot_entries_perm hNeat
  constructor
  · exact hPerm.length_eq
  · intro name
    unfold replacementWith?
    have hNodup : ((m.snapshotWith fold).entries.map Prod.fst).Nodup :=
      (proper_ofPairsWith m.pairs).nodup
    simp only [Table.lookup_perm hNodup hPerm]

end TokenLint.ClassMap
