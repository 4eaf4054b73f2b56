import TokenLint.Path

/-!
# Going up ends

Whoever goes from a path to its directory, and on to the directory of that, comes to a path that is
its own directory. It need not be clean, nor absolute: what stands before the last slash becomes no
longer when it is cleaned, except that nothing becomes a single dot.

* `dir_append_cons`, `dir_of_notMem`: the directory of a path, by its last slash.
* `length_clean_append_slash_le`: cleaning makes no path longer than what stands before its slash.
* `height_dir_lt`: every step up leads to a smaller height, or nowhere else.
-/

namespace TokenLint

namespace Text

theorem splitOn_ne_nil (sep : UInt8) (t : Text) : splitOn sep t ≠ [] := by
  fun_induction splitOn sep t <;> simp_all

theorem splitOn_append_cons (sep : UInt8) (t u : Text) :
    splitOn sep (t ++ sep :: u) = splitOn sep t ++ splitOn sep u := by
  induction t with
  | nil => simp [splitOn]
  | cons b t ih =>
      rw [List.cons_append, splitOn, splitOn]
      by_cases hSep : b = sep
      · rw [if_pos hSep, if_pos hSep, ih, List.cons_append]
      · rw [if_neg hSep, if_neg hSep, ih]
        cases hPieces : splitOn sep t with
        | nil => exact absurd hPieces (splitOn_ne_nil sep t)
        | cons piece pieces => rfl

end Text

namespace Path

/-! ## The length of elements -/

/-- The length of the elements, each with a slash beside it. -/
def extent : List Text → Nat
  | [] => 0
  | e :: es => e.length + 1 + extent es

theorem extent_nil : extent [] = 0 := rfl

theorem extent_cons (e : Text) (es : List Text) :
    extent (e :: es) = e.length + 1 + extent es := rfl

theorem extent_append (es fs : List Text) : extent (es ++ fs) = extent es + extent fs := by
  induction es with
  | nil => exact (Nat.zero_add _).symm
  | cons e es ih =>
      rw [List.cons_append, extent_cons, extent_cons, ih]
      omega

theorem extent_reverse (es : List Text) : extent es.reverse = extent es := by
  induction es with
  | nil => rfl
  | cons e es ih =>
      rw [List.reverse_cons, extent_append, ih, extent_cons, extent_cons, extent_nil]
      omega

theorem extent_filter_le (p : Text → Bool) (es : List Text) : extent (es.filter p) ≤ extent es := by
  induction es with
  | nil => exact Nat.le_refl _
  | cons e es ih =>
      rw [List.filter_cons, extent_cons]
      split
      · rw [extent_cons]
        omega
      · omega

theorem extent_splitOn (sep : UInt8) (t : Text) : extent (Text.splitOn sep t) = t.length + 1 := by
  fun_induction Text.splitOn sep t with
  | case1 => rfl
  | case2 rest ih =>
      rw [extent_cons, ih, List.length_nil, List.length_cons]
      omega
  | case3 b rest hSep piece pieces hPieces ih =>
      rw [hPieces, extent_cons] at ih
      rw [extent_cons, List.length_cons, List.length_cons]
      omega
  | case4 b rest hSep hPieces => exact absurd hPieces (Text.splitOn_ne_nil sep rest)

theorem extent_resolve_le (rooted : Bool) (done es : List Text) :
    extent (resolve rooted done es) ≤ extent done + extent es := by
  fun_induction resolve rooted done es with
  | case1 done =>
      rw [extent_reverse]
      exact Nat.le_add_right _ _
  | case2 | case3 | case4 | case5 | case6 =>
      simp only [extent_cons, extent_nil] at *
      omega

theorem length_join {es : List Text} (h : es ≠ []) :
    (Text.join [slash] es).length + 1 = extent es := by
  induction es with
  | nil => exact absurd rfl h
  | cons e es ih =>
      cases es with
      | nil => simp [Text.join, extent]
      | cons f es =>
          have hRest := ih (List.cons_ne_nil f es)
          rw [extent_cons, ← hRest]
          simp only [Text.join, List.length_append, List.length_singleton]
          omega

/-! ## The directory of a path -/

theorem elements_append_slash (t : Text) : elements (t ++ [slash]) = elements t := by
  have hLast : Text.splitOn slash ([] : Text) = [[]] := rfl
  rw [elements, Text.splitOn_append_cons, hLast, List.filter_append]
  exact List.append_nil _

theorem dropWhile_reverse_append {name : Text} (h : slash ∉ name) (rest : Text) :
    (name.reverse ++ rest).dropWhile (· ≠ slash) = rest.dropWhile (· ≠ slash) := by
  apply List.dropWhile_append_of_pos
  intro b hb
  rw [decide_eq_true_eq]
  rintro rfl
  exact h (List.mem_reverse.mp hb)

theorem dir_append_cons (t : Text) {name : Text} (h : slash ∉ name) :
    dir (t ++ slash :: name) = clean (t ++ [slash]) := by
  rw [dir, List.reverse_append, List.reverse_cons, List.append_assoc, dropWhile_reverse_append h]
  simp

theorem dir_of_notMem {p : Text} (h : slash ∉ p) : dir p = "." := by
  have hDrop := dropWhile_reverse_append h []
  rw [List.append_nil] at hDrop
  rw [dir, hDrop]
  rfl

theorem exists_eq_append_cons {p : Text} (h : slash ∈ p) :
    ∃ t name, p = t ++ slash :: name ∧ slash ∉ name := by
  obtain ⟨front, back, hEq, hFront⟩ := List.eq_append_cons_of_mem (List.mem_reverse.mpr h)
  refine ⟨back.reverse, front.reverse, ?_, fun hMem => hFront (List.mem_reverse.mp hMem)⟩
  rw [← List.reverse_reverse p, hEq]
  simp

theorem length_ofElements (rooted : Bool) {es : List Text} (h : es ≠ []) :
    (ofElements rooted es).length + 1 = extent es + rooted.toNat := by
  have hJoin := length_join h
  cases rooted <;> simp [ofElements, h] <;> omega

theorem extent_elements_le (t : Text) : extent (elements t) ≤ t.length + 1 := by
  rw [← extent_splitOn slash t]
  exact extent_filter_le _ _

theorem extent_elements_add_le (t : Text) :
    extent (elements t) + (isAbsolute t).toNat ≤ t.length + 1 := by
  cases t with
  | nil => decide
  | cons b t =>
      by_cases hb : b = slash
      · -- the piece before the first slash is empty, so it is no element
        subst hb
        have hElements : elements (slash :: t) = elements t := rfl
        exact Nat.succ_le_succ (hElements ▸ extent_elements_le t)
      · have hRelative : isAbsolute (b :: t) = false := by simp [isAbsolute, hb]
        rw [hRelative]
        exact extent_elements_le (b :: t)

theorem isAbsolute_append {t : Text} (h : t ≠ []) (u : Text) :
    isAbsolute (t ++ u) = isAbsolute t := by
  cases t with
  | nil => exact absurd rfl h
  | cons b t => rfl

theorem clean_append_slash {t : Text} (h : t ≠ []) : clean (t ++ [slash]) = clean t := by
  rw [clean, cleanElements, isAbsolute_append h, elements_append_slash]
  rfl

theorem length_clean_le (t : Text) : (clean t).length ≤ max 1 t.length := by
  have hElements := extent_elements_add_le t
  have hResolve : extent (cleanElements t) ≤ extent (elements t) := by
    have hLe := extent_resolve_le (isAbsolute t) [] (elements t)
    rwa [extent_nil, Nat.zero_add] at hLe
  by_cases hNone : cleanElements t = []
  · have hOne : (clean t).length = 1 := by
      rw [clean, hNone]
      cases isAbsolute t <;> rfl
    omega
  · have hLength := length_ofElements (isAbsolute t) hNone
    rw [← clean] at hLength
    omega

theorem length_clean_append_slash_le (t : Text) :
    (clean (t ++ [slash])).length ≤ max 1 t.length := by
  by_cases ht : t = []
  · subst ht
    decide
  · rw [clean_append_slash ht]
    exact length_clean_le t

/-! ## Going up -/

/-- How far up one can go at most; nothing is above a single dot. -/
def height (p : Text) : Nat := if p = "." then 0 else p.length + 1

theorem height_le (p : Text) : height p ≤ p.length + 1 := by
  unfold height
  split <;> omega

theorem height_of_mem {p : Text} (h : slash ∈ p) : height p = p.length + 1 := by
  have hNe : p ≠ "." := by
    rintro rfl
    exact absurd h (by decide)
  exact if_neg hNe

/-- Every step up leads to a smaller height, or nowhere else. -/
theorem height_dir_lt {p : Text} (h : dir p ≠ p) : height (dir p) < height p := by
  by_cases hSlash : slash ∈ p
  · obtain ⟨t, name, rfl, hName⟩ := exists_eq_append_cons hSlash
    rw [height_of_mem hSlash]
    rw [dir_append_cons t hName] at h ⊢
    have hHeight := height_le (clean (t ++ [slash]))
    have hLength := length_clean_append_slash_le t
    rw [List.length_append, List.length_cons]
    by_cases ht : t = []
    · subst ht
      have hPos : name ≠ [] := by
        rintro rfl
        exact h rfl
      have hName := List.length_pos_iff.mpr hPos
      rw [List.length_nil] at hLength ⊢
      omega
    · have hBefore := List.length_pos_iff.mpr ht
      omega
  · rw [dir_of_notMem hSlash] at h ⊢
    have hHeight : height "." = 0 := if_pos rfl
    rw [hHeight, height, if_neg (Ne.symm h)]
    exact Nat.succ_pos _

end Path

end TokenLint
