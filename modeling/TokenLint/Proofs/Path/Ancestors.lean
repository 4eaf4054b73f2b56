import Mathlib.Logic.Function.Iterate
import TokenLint.Proofs.Path

/-!
# Places and the directories above them

A place is an absolute path in its shortest form. It is told by its elements, which are plain names,
and the places above it have the first ones of these. Going up from a place by `dir` drops the last
element, until only the root is left.

* `place_absolute`: every path is a place when it is seen from a directory.
* `cleanElements_dir`: going up drops an element.
* `atOrAbove_iff`: what is above a place, by one step.
* `atOrAbove_iff_exists_iterate`: going up visits everything above a place, and nothing else.
-/

namespace TokenLint

namespace Path

variable {p q a b name : Text} {es fs done : List Text}

/-! ## Elements -/

theorem plain_of_mem_elements {e : Text} (h : e ∈ elements p) (hUp : e ≠ "..") : Plain e := by
  obtain ⟨hPiece, hKept⟩ := List.mem_filter.mp h
  rw [Bool.and_eq_true, decide_eq_true_eq, decide_eq_true_eq] at hKept
  exact ⟨Text.sep_notMem_of_mem_splitOn hPiece, hKept.1, hKept.2, hUp⟩

theorem plain_of_mem_resolve (hDone : ∀ e ∈ done, Plain e)
    (hes : ∀ e ∈ es, e ≠ ".." → Plain e) : ∀ e ∈ resolve true done es, Plain e := by
  induction es generalizing done with
  | nil =>
      intro e he
      exact hDone e (List.mem_reverse.mp he)
  | cons e es ih =>
      obtain ⟨hFirst, hRest⟩ := List.forall_mem_cons.mp hes
      unfold resolve
      split
      · cases done with
        | nil => exact ih hDone hRest
        | cons last done =>
            obtain ⟨hLast, hDone'⟩ := List.forall_mem_cons.mp hDone
            dsimp only
            rw [if_neg hLast.ne_up]
            exact ih hDone' hRest
      · exact ih (List.forall_mem_cons.mpr ⟨hFirst ‹_›, hDone⟩) hRest

theorem plain_of_mem_cleanElements (h : isAbsolute p = true) : ∀ e ∈ cleanElements p, Plain e := by
  rw [cleanElements, h]
  apply plain_of_mem_resolve
  · intro e he
    cases he
  · intro e he hUp
    exact plain_of_mem_elements he hUp

theorem resolve_of_plain (h : ∀ e ∈ es, Plain e) :
    resolve true done es = done.reverse ++ es := by
  induction es generalizing done with
  | nil =>
      rw [List.append_nil]
      rfl
  | cons e es ih =>
      obtain ⟨hFirst, hRest⟩ := List.forall_mem_cons.mp h
      unfold resolve
      rw [if_neg hFirst.ne_up, ih hRest, List.reverse_cons, List.append_assoc]
      rfl

theorem elements_ofElements (h : ∀ e ∈ es, Plain e) : elements (ofElements true es) = es := by
  by_cases hNone : es = []
  · subst hNone
    decide
  · have hSlash : elements (ofElements true es) = elements (Text.join [slash] es) := rfl
    rw [hSlash, elements, Text.splitOn_join hNone fun e he => (h e he).no_slash,
      List.filter_eq_self]
    intro e he
    simp [(h e he).ne_nil, (h e he).ne_here]

theorem cleanElements_ofElements (h : ∀ e ∈ es, Plain e) :
    cleanElements (ofElements true es) = es := by
  rw [cleanElements, elements_ofElements h]
  exact resolve_of_plain h

/-! ## Places -/

/-- An absolute path in its shortest form. -/
structure Place (p : Text) : Prop where
  absolute : isAbsolute p = true
  clean_eq : clean p = p

theorem place_ofElements (h : ∀ e ∈ es, Plain e) : Place (ofElements true es) := by
  refine ⟨rfl, ?_⟩
  rw [clean, cleanElements_ofElements h]
  rfl

theorem place_clean (h : isAbsolute p = true) : Place (clean p) := by
  rw [clean, h]
  exact place_ofElements (plain_of_mem_cleanElements h)

theorem Place.plain (h : Place p) : ∀ e ∈ cleanElements p, Plain e :=
  plain_of_mem_cleanElements h.absolute

theorem Place.eq_ofElements (h : Place p) : p = ofElements true (cleanElements p) := by
  conv_lhs => rw [← h.clean_eq, clean, h.absolute]

theorem Place.eq_of_cleanElements (hp : Place p) (hq : Place q)
    (h : cleanElements p = cleanElements q) : p = q := by
  rw [hp.eq_ofElements, hq.eq_ofElements, h]

theorem join_pair (hp : p ≠ []) (hq : q ≠ []) : join [p, q] = clean (p ++ slash :: q) := by
  have hParts : [p, q].filter (· ≠ []) = [p, q] := by simp [hp, hq]
  have hNe : [p, q].filter (· ≠ []) ≠ [] := by
    rw [hParts]
    exact List.cons_ne_nil p [q]
  rw [join_eq_clean hNe, hParts]
  simp [Text.join]

/-- Every path is a place when it is seen from a directory. -/
theorem place_absolute {cwd : Text} (hCwd : isAbsolute cwd = true) (hp : p ≠ []) :
    Place (absolute cwd p) := by
  unfold absolute
  split
  · exact place_clean ‹_›
  · have hNe : cwd ≠ [] := by
      rintro rfl
      exact absurd hCwd (by decide)
    rw [join_pair hNe hp]
    apply place_clean
    rw [isAbsolute_append hNe, hCwd]

/-! ## Going up -/

theorem dir_ofElements_concat (hfs : ∀ e ∈ fs, Plain e) (hName : Plain name) :
    dir (ofElements true (fs ++ [name])) = ofElements true fs := by
  by_cases hNone : fs = []
  · subst hNone
    exact dir_append_cons [] hName.no_slash
  · have hJoin : ofElements true (fs ++ [name]) = ofElements true fs ++ slash :: name := by
      rw [ofElements, if_pos rfl, Text.join_append_singleton [slash] hNone]
      rfl
    have hNe : ofElements true fs ≠ [] := List.cons_ne_nil _ _
    rw [hJoin, dir_append_cons _ hName.no_slash, clean_append_slash hNe]
    exact (place_ofElements hfs).clean_eq

theorem Place.dir_eq (h : Place p) : dir p = ofElements true (cleanElements p).dropLast := by
  have hPlain := h.plain
  conv_lhs => rw [h.eq_ofElements]
  rcases List.eq_nil_or_concat' (cleanElements p) with hNone | ⟨fs, name, hSome⟩
  · rw [hNone]
    decide
  · rw [hSome] at hPlain ⊢
    rw [List.dropLast_concat]
    apply dir_ofElements_concat
    · intro e he
      exact hPlain e (List.mem_append_left _ he)
    · exact hPlain name (List.mem_append_right _ (List.mem_singleton_self name))

theorem Place.plain_dropLast (h : Place p) : ∀ e ∈ (cleanElements p).dropLast, Plain e :=
  fun e he => h.plain e (List.dropLast_subset _ he)

theorem Place.dir (h : Place p) : Place (dir p) := by
  rw [h.dir_eq]
  exact place_ofElements h.plain_dropLast

theorem Place.cleanElements_dir (h : Place p) :
    cleanElements (Path.dir p) = (cleanElements p).dropLast := by
  rw [h.dir_eq, cleanElements_ofElements h.plain_dropLast]

/-! ## Above a place -/

/-- `a` is the place `p`, or a directory above it. -/
structure AtOrAbove (a p : Text) : Prop where
  place : Place a
  isPrefix : cleanElements a <+: cleanElements p

theorem Place.atOrAbove_self (h : Place p) : AtOrAbove p p := ⟨h, List.prefix_rfl⟩

theorem AtOrAbove.trans (h : AtOrAbove a b) (h' : AtOrAbove b p) : AtOrAbove a p :=
  ⟨h.place, h.isPrefix.trans h'.isPrefix⟩

theorem AtOrAbove.antisymm (h : AtOrAbove a b) (h' : AtOrAbove b a) : a = b :=
  h.place.eq_of_cleanElements h'.place
    (h.isPrefix.eq_of_length_le h'.isPrefix.length_le)

theorem Place.dir_atOrAbove (h : Place p) : AtOrAbove (Path.dir p) p :=
  ⟨h.dir, h.cleanElements_dir ▸ List.dropLast_prefix _⟩

/-- What is above a place, by one step. -/
theorem Place.atOrAbove_iff (h : Place p) : AtOrAbove a p ↔ a = p ∨ AtOrAbove a (Path.dir p) := by
  constructor
  · rintro ⟨hPlace, hPrefix⟩
    rcases List.eq_nil_or_concat' (cleanElements p) with hNone | ⟨fs, name, hSome⟩
    · left
      apply hPlace.eq_of_cleanElements h
      rw [hNone] at hPrefix ⊢
      exact List.prefix_nil.mp hPrefix
    · rw [hSome] at hPrefix
      rcases List.prefix_concat_iff.mp hPrefix with hEq | hUp
      · exact Or.inl (hPlace.eq_of_cleanElements h (hEq.trans hSome.symm))
      · refine Or.inr ⟨hPlace, ?_⟩
        rw [h.cleanElements_dir, hSome, List.dropLast_concat]
        exact hUp
  · rintro (rfl | hUp)
    · exact h.atOrAbove_self
    · exact hUp.trans h.dir_atOrAbove

theorem place_root : Place [slash] := ⟨rfl, by decide⟩

theorem root_atOrAbove (p : Text) : AtOrAbove [slash] p := ⟨place_root, List.nil_prefix⟩

/-- Only the root is its own directory. -/
theorem Place.eq_root_of_dir_eq (h : Place p) (hDir : Path.dir p = p) : p = [slash] := by
  have hLength := congrArg List.length h.cleanElements_dir
  rw [hDir, List.length_dropLast] at hLength
  apply h.eq_of_cleanElements place_root
  exact List.eq_nil_of_length_eq_zero (by omega)

theorem AtOrAbove.eq_root (h : AtOrAbove a [slash]) : a = [slash] :=
  h.antisymm (root_atOrAbove a)

/-- Going up visits everything above a place, and nothing else. -/
theorem Place.atOrAbove_iff_exists_iterate (h : Place p) :
    AtOrAbove a p ↔ ∃ n, Path.dir^[n] p = a := by
  constructor
  · intro hAbove
    -- the induction follows the elements that are left
    induction hLength : (cleanElements p).length generalizing p with
    | zero =>
        have hNone := List.eq_nil_of_length_eq_zero hLength
        have hPrefix := hAbove.isPrefix
        rw [hNone] at hPrefix
        exact ⟨0, h.eq_of_cleanElements hAbove.place (hNone.trans (List.prefix_nil.mp hPrefix).symm)⟩
    | succ n ih =>
        rcases h.atOrAbove_iff.mp hAbove with rfl | hUp
        · exact ⟨0, rfl⟩
        · obtain ⟨k, hk⟩ := ih h.dir hUp (by rw [h.cleanElements_dir, List.length_dropLast]; omega)
          exact ⟨k + 1, hk⟩
  · rintro ⟨n, rfl⟩
    induction n generalizing p with
    | zero => exact h.atOrAbove_self
    | succ n ih => exact (ih h.dir).trans h.dir_atOrAbove

end Path

end TokenLint
