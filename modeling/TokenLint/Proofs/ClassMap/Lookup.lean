import Mathlib.Data.Finset.Card
import TokenLint.Proofs.ClassMap.Snapshot
import TokenLint.Proofs.Sorting

/-!
# Looking names up

Pairs of names, and whole class maps, are put over each other one after the other, and what was put
last is found. For pairs this is the greatest one in byte order of those that say something about
the name. For class maps it is the last one that knows the name, in whatever order they were merged.

* `observe_foldl`: the last write is read.
* `replacementWith?_eq_some_iff`: which of several pairs wins.
* `replacementWith?_merge`: the second class map is asked first.
* `Recipe.answer?_make?`: which of many class maps answers.
* `lookup_semantics`: all this for class maps that may be missing, and their lists of pairs.
-/

namespace TokenLint.ClassMap

variable {fold : Text → Text} {m m' : ClassMap} {name : Text}

/-- Where each step writes something over what is observed, or nothing, the last write is observed
in the end. -/
theorem observe_foldl {σ α β : Type} {step : σ → α → σ} {write : α → Option β}
    (observe : σ → Option β) (h : ∀ s a, observe (step s a) = (write a).or (observe s))
    (xs : List α) (s : σ) :
    observe (xs.foldl step s) = (xs.filterMap write).getLast?.or (observe s) := by
  induction xs generalizing s with
  | nil => rfl
  | cons a xs ih =>
      rw [List.foldl_cons, ih, h]
      cases hWrite : write a with
      | none => rw [List.filterMap_cons_none hWrite, Option.none_or]
      | some b =>
          rw [List.filterMap_cons_some hWrite, List.getLast?_cons]
          cases (xs.filterMap write).getLast? <;> rfl

theorem filterMap_ite {α β : Type} (p : α → Prop) [DecidablePred p] (f : α → β) (xs : List α) :
    (xs.filterMap fun a => if p a then some (f a) else none) = (xs.filter p).map f := by
  induction xs with
  | nil => rfl
  | cons a xs ih => by_cases h : p a <;> simp [h, ih]

theorem replacementWith?_set (key : Text) (e : ClassEntry) (hName : bare name ≠ []) :
    (m.set key e).replacementWith? fold name =
      (if key = fold (bare name) then some e.modern else none).or
        (m.replacementWith? fold name) := by
  have hLookup := Table.lookup_assign m.entries key (fold (bare name)) e
  show (if bare name = [] then none else
    ((Table.assign m.entries key e).lookup (fold (bare name))).map ClassEntry.modern) = _
  rw [replacementWith?, if_neg hName, if_neg hName, hLookup]
  by_cases hKey : key = fold (bare name)
  · simp [hKey]
  · simp [hKey, Ne.symm hKey]

/-! ## Pairs of names -/

/-- The pair says something about a bare name: none of its names is empty, and the first one is the
given one but for its case. -/
def Concerns (fold : Text → Text) (n : Text) (p : Text × Text) : Prop :=
  normalize p.1 ≠ [] ∧ normalize p.2 ≠ [] ∧ fold (normalize p.1) = fold n

instance (n : Text) : DecidablePred (Concerns fold n) :=
  fun _ => inferInstanceAs (Decidable (_ ∧ _ ∧ _))

/-- The pair says something about a bare name, and of those that do it is the greatest. -/
structure Wins (fold : Text → Text) (pairs : List (Text × Text)) (n : Text) (p : Text × Text) :
    Prop where
  mem : p ∈ pairs
  concerns : Concerns fold n p
  greatest : ∀ q ∈ pairs, Concerns fold n q → q.1 ≤ p.1

theorem replacementWith?_addPair (p : Text × Text) (hName : bare name ≠ []) :
    (m.addPair fold p).replacementWith? fold name =
      (if Concerns fold (bare name) p then some (normalize p.2) else none).or
        (m.replacementWith? fold name) := by
  unfold addPair
  simp only [Bool.or_eq_true, decide_eq_true_eq]
  split
  · rename_i hEmpty
    have hNot : ¬ Concerns fold (bare name) p := fun h => hEmpty.elim h.1 h.2.1
    rw [if_neg hNot, Option.none_or]
  · rename_i hNames
    obtain ⟨hLegacy, hModern⟩ := not_or.mp hNames
    rw [replacementWith?_set _ _ hName]
    simp [Concerns, hLegacy, hModern]

theorem Wins.unique {pairs : List (Text × Text)} (hNodup : (pairs.map Prod.fst).Nodup) {n : Text}
    {p q : Text × Text} (hp : Wins fold pairs n p) (hq : Wins fold pairs n q) : p = q := by
  have hKeys : p.1 = q.1 :=
    List.le_antisymm (hq.greatest p hp.mem hp.concerns) (hp.greatest q hq.mem hq.concerns)
  exact List.inj_on_of_nodup_map hNodup hp.mem hq.mem hKeys

/-- The pairs that say something about a bare name, in byte order. -/
def about (fold : Text → Text) (n : Text) (pairs : List (Text × Text)) : List (Text × Text) :=
  (pairs.mergeSort fun a b => Text.le a.1 b.1).filter fun p => Concerns fold n p

theorem mem_about {pairs : List (Text × Text)} {n : Text} {p : Text × Text} :
    p ∈ about fold n pairs ↔ p ∈ pairs ∧ Concerns fold n p := by
  rw [about, List.mem_filter, List.mem_mergeSort, decide_eq_true_iff]

/-- The last of the pairs that say something wins. -/
theorem wins_of_getLast? {pairs : List (Text × Text)} {n : Text} {p : Text × Text}
    (h : (about fold n pairs).getLast? = some p) : Wins fold pairs n p := by
  have hOrder : (about fold n pairs).Pairwise fun a b => a.1 ≤ b.1 :=
    (Sorting.pairwise_mergeSort_text Prod.fst pairs).filter _
  obtain ⟨before, hSplit⟩ := List.getLast?_eq_some_iff.mp h
  have hp := mem_about.mp (hSplit ▸ List.mem_append_right before List.mem_cons_self)
  refine ⟨hp.1, hp.2, fun q hq hConcerns => ?_⟩
  have hMem := mem_about.mpr ⟨hq, hConcerns⟩
  rw [hSplit] at hMem hOrder
  rcases List.mem_append.mp hMem with hBefore | hLast
  · exact (List.pairwise_append.mp hOrder).2.2 q hBefore p List.mem_cons_self
  · rw [List.mem_singleton.mp hLast]
    exact List.le_refl p.1

theorem replacementWith?_ofPairsWith (pairs : List (Text × Text)) (hName : bare name ≠ []) :
    (ofPairsWith fold pairs).replacementWith? fold name =
      (about fold (bare name) pairs).getLast?.map fun p => normalize p.2 := by
  have hStart : ({} : ClassMap).replacementWith? fold name = none := by
    rw [replacementWith?, if_neg hName]
    rfl
  have hFold := observe_foldl (fun m : ClassMap => m.replacementWith? fold name)
    (fun m p => replacementWith?_addPair p hName)
    (pairs.mergeSort fun a b => Text.le a.1 b.1) {}
  rw [ofPairsWith, hFold, hStart, Option.or_none, filterMap_ite, List.getLast?_map]
  rfl

/-- The present name of a class is that of the pair that wins. -/
theorem replacementWith?_eq_some_iff {pairs : List (Text × Text)}
    (hNodup : (pairs.map Prod.fst).Nodup) (hName : bare name ≠ []) {v : Text} :
    (ofPairsWith fold pairs).replacementWith? fold name = some v ↔
      ∃ p, Wins fold pairs (bare name) p ∧ normalize p.2 = v := by
  rw [replacementWith?_ofPairsWith pairs hName, Option.map_eq_some_iff]
  constructor
  · rintro ⟨p, hp, hv⟩
    exact ⟨p, wins_of_getLast? hp, hv⟩
  · rintro ⟨p, hp, hv⟩
    have hNe := List.ne_nil_of_mem (mem_about.mpr ⟨hp.mem, hp.concerns⟩)
    obtain ⟨q, hq⟩ := Option.isSome_iff_exists.mp (List.getLast?_isSome.mpr hNe)
    obtain rfl := hp.unique hNodup (wins_of_getLast? hq)
    exact ⟨p, hq, hv⟩

theorem replacementWith?_eq_none_iff {pairs : List (Text × Text)} (hName : bare name ≠ []) :
    (ofPairsWith fold pairs).replacementWith? fold name = none ↔
      ∀ p ∈ pairs, ¬ Concerns fold (bare name) p := by
  rw [replacementWith?_ofPairsWith pairs hName, Option.map_eq_none_iff, List.getLast?_eq_none_iff,
    List.eq_nil_iff_forall_not_mem]
  simp only [mem_about, not_and]

/-! ## Merging -/

/-- The second class map is asked first. -/
theorem replacementWith?_merge (hNodup : (m'.entries.map Prod.fst).Nodup) (name : Text) :
    (m.merge m').replacementWith? fold name =
      (m'.replacementWith? fold name).or (m.replacementWith? fold name) := by
  by_cases hName : bare name = []
  · simp only [replacementWith?, hName, if_true, Option.or_none]
  · have hFold := observe_foldl (fun m : ClassMap => m.replacementWith? fold name)
      (fun m (x : Text × ClassEntry) => replacementWith?_set x.1 x.2 hName) m'.entries m
    rw [merge, hFold, filterMap_ite]
    congr 1
    rw [replacementWith?, if_neg hName]
    -- there is at most one entry for the folded name
    cases hEntry : m'.entries.lookup (fold (bare name)) with
    | none =>
        have hNone : m'.entries.filter (fun x => x.1 = fold (bare name)) = [] := by
          refine List.filter_eq_nil_iff.mpr fun x hx hKey => ?_
          refine Table.lookup_eq_none_iff.mp hEntry ?_
          exact of_decide_eq_true hKey ▸ List.mem_map_of_mem hx
        rw [hNone]
        rfl
    | some e =>
        have hMem := (Table.lookup_eq_some_iff hNodup).mp hEntry
        rw [Table.filter_eq_singleton_of_nodup_map hNodup hMem]
        rfl

/-! ## Class maps that may be missing -/

/-- The present name of a class in a class map that may be missing. -/
def answer? (fold : Text → Text) (m : Option ClassMap) (name : Text) : Option Text :=
  m.bind fun m => m.replacementWith? fold name

/-- The pairs of names in a class map that may be missing. -/
def listed (m : Option ClassMap) : List (Text × Text) := (m.map pairs).getD []

/-- The number of classes in a class map that may be missing. -/
def count (m : Option ClassMap) : Nat := (m.map size).getD 0

/-- The classes of two class maps that may be missing. -/
def combine (m other : Option ClassMap) : ClassMap := (m.getD {}).merge (other.getD {})

/-- How a class map is made: of pairs of names, or by merging two that may be missing. -/
inductive Recipe where
  | missing
  | ofPairs (pairs : List (Text × Text))
  | merge (first second : Recipe)

namespace Recipe

/-- The class map that is made. -/
def make? (fold : Text → Text) : Recipe → Option ClassMap
  | missing => none
  | ofPairs pairs => some (ofPairsWith fold pairs)
  | merge first second => some (combine (first.make? fold) (second.make? fold))

/-- The class maps that are merged, in order. -/
def parts (fold : Text → Text) : Recipe → List (Option ClassMap)
  | missing => [none]
  | ofPairs pairs => [some (ofPairsWith fold pairs)]
  | merge first second => first.parts fold ++ second.parts fold

end Recipe

theorem answer?_eq (fold : Text → Text) (m : Option ClassMap) (name : Text) :
    answer? fold m name = (m.getD {}).replacementWith? fold name := by
  cases m with
  | some m => rfl
  | none =>
      show none = if bare name = [] then none else _
      split <;> rfl

theorem Recipe.proper (fold : Text → Text) (r : Recipe) : Proper fold ((r.make? fold).getD {}) := by
  induction r with
  | missing => exact proper_empty
  | ofPairs pairs => exact proper_ofPairsWith pairs
  | merge first second ih ih' => exact ih.merge ih'

/-- Of the class maps that are merged, the last one that knows the name answers. -/
theorem Recipe.answer?_make? (fold : Text → Text) (r : Recipe) (name : Text) :
    answer? fold (r.make? fold) name =
      ((r.parts fold).filterMap fun m => answer? fold m name).getLast? := by
  induction r with
  | missing => rfl
  | ofPairs pairs =>
      rw [parts, make?]
      cases hAnswer : answer? fold (some (ofPairsWith fold pairs)) name <;> simp [hAnswer]
  | merge first second ih ih' =>
      rw [parts, List.filterMap_append, List.getLast?_append, ← ih, ← ih', answer?_eq, answer?_eq,
        answer?_eq]
      exact replacementWith?_merge (second.proper fold).nodup name

/-- The class map has as many classes as names of the past, and finds each of them. -/
structure FindsItself (fold : Text → Text) (m : Option ClassMap) : Prop where
  count_eq : count m = ((listed m).map Prod.fst).toFinset.card
  answer_eq : ∀ p ∈ listed m, answer? fold m p.1 = some p.2

theorem Proper.findsItself (h : Proper fold m) : FindsItself fold (some m) where
  count_eq := by
    show m.size = (m.pairs.map Prod.fst).toFinset.card
    rw [List.toFinset_card_of_nodup h.nodup_pairs, List.length_map, ClassMap.pairs, List.length_map]
    rfl
  answer_eq p hp := by
    obtain ⟨x, hx, rfl⟩ := List.mem_map.mp hp
    obtain ⟨hNe, hBare⟩ := h.legacy_bare x hx
    have hLookup : m.entries.lookup (fold x.2.legacy) = some x.2 :=
      (Table.lookup_eq_some_iff h.nodup).mpr (h.key_eq x hx ▸ hx)
    show m.replacementWith? fold x.2.legacy = some x.2.modern
    rw [replacementWith?, hBare, if_neg hNe, hLookup]
    rfl

theorem Recipe.findsItself (fold : Text → Text) (r : Recipe) : FindsItself fold (r.make? fold) := by
  have hProper := r.proper fold
  cases hMake : r.make? fold with
  | none => exact ⟨rfl, fun p hp => absurd hp List.not_mem_nil⟩
  | some m =>
      rw [hMake] at hProper
      exact hProper.findsItself

/-- A class map of pairs finds the present name in the greatest pair that says something about a
name. When class maps are merged, the last one that knows the name answers, so they may be merged in
any grouping and missing ones may be left out. And every class map finds the names it lists. -/
theorem lookup_semantics (fold : Text → Text) :
    (∀ pairs : List (Text × Text), (pairs.map Prod.fst).Nodup → ∀ name, bare name ≠ [] →
      (∀ v, answer? fold (some (ofPairsWith fold pairs)) name = some v ↔
        ∃ p, Wins fold pairs (bare name) p ∧ normalize p.2 = v) ∧
      (answer? fold (some (ofPairsWith fold pairs)) name = none ↔
        ∀ p ∈ pairs, ¬ Concerns fold (bare name) p)) ∧
    (∀ (r : Recipe) (name : Text), answer? fold (r.make? fold) name =
      ((r.parts fold).filterMap fun m => answer? fold m name).getLast?) ∧
    (∀ (a b c : Recipe) (name : Text),
      answer? fold (((a.merge b).merge c).make? fold) name =
        answer? fold ((a.merge (b.merge c)).make? fold) name ∧
      answer? fold ((Recipe.missing.merge a).make? fold) name = answer? fold (a.make? fold) name ∧
      answer? fold ((a.merge .missing).make? fold) name = answer? fold (a.make? fold) name) ∧
    ∀ r : Recipe, FindsItself fold (r.make? fold) := by
  refine ⟨fun pairs hNodup name hName => ?_, Recipe.answer?_make? fold, fun a b c name => ?_,
    Recipe.findsItself fold⟩
  · exact ⟨fun v => replacementWith?_eq_some_iff hNodup hName, replacementWith?_eq_none_iff hName⟩
  · simp only [Recipe.answer?_make?, Recipe.parts, List.append_assoc, List.filterMap_append]
    simp [answer?]

/-- Two spellings of one name; the third pair names nothing. -/
def spellings : List (Text × Text) := [("\\Tx_A", "Old\\A"), ("tx_a", "\\New\\A"), ("Tx_B", " ")]

/-- A missing class map, and two that know the same name. -/
def mergedRecipe : Recipe :=
  (Recipe.missing.merge (.ofPairs [("tx_b", "Old\\B")])).merge (.ofPairs [("Tx_B", "New\\B")])

theorem lookup_semantics_spellings :
    (spellings.map Prod.fst).Nodup ∧ bare "TX_A\\" ≠ [] ∧
      answer? Text.fold (some (ofPairsWith Text.fold spellings)) "TX_A\\" = some "New\\A" ∧
      (("Tx_B", "New\\B") : Text × Text) ∈ listed (mergedRecipe.make? Text.fold) ∧
      answer? Text.fold (mergedRecipe.make? Text.fold) "Tx_B" = some "New\\B" := by
  have hNodup : (spellings.map Prod.fst).Nodup := by decide
  have hName : bare "TX_A\\" ≠ [] := by decide
  have hWins : Wins Text.fold spellings (bare "TX_A\\") ("tx_a", "\\New\\A") :=
    ⟨by decide, by decide +kernel, by decide +kernel⟩
  have hListed : (("Tx_B", "New\\B") : Text × Text) ∈ listed (mergedRecipe.make? Text.fold) := by
    decide +kernel
  have hAll := lookup_semantics Text.fold
  exact ⟨hNodup, hName, ((hAll.1 spellings hNodup _ hName).1 _).mpr ⟨_, hWins, by decide +kernel⟩,
    hListed, (hAll.2.2.2 mergedRecipe).answer_eq _ hListed⟩

end TokenLint.ClassMap
