import Mathlib.Data.List.Basic
import TokenLint.Path.Height

/-!
# Names below a directory

A plain name is one that stands for itself in a path: no slash is in it, and it is not a way to say
"here" or "up". Such a name stays the last element when paths are joined and cleaned, whatever the
directory is like: `exists_before_join`.
-/

namespace TokenLint

namespace Text

variable {sep : UInt8}

theorem splitOn_of_notMem {t : Text} (h : sep ∉ t) : splitOn sep t = [t] := by
  induction t with
  | nil => rfl
  | cons b t ih =>
      have hSep : b ≠ sep := fun hEq => h (hEq ▸ List.mem_cons_self)
      rw [splitOn, if_neg hSep, ih fun hMem => h (List.mem_cons_of_mem _ hMem)]

theorem sep_notMem_of_mem_splitOn {t piece : Text} (h : piece ∈ splitOn sep t) : sep ∉ piece := by
  induction t generalizing piece with
  | nil =>
      rw [List.mem_singleton.mp h]
      exact List.not_mem_nil
  | cons b t ih =>
      rw [splitOn] at h
      split at h
      · rcases List.mem_cons.mp h with rfl | hRest
        · exact List.not_mem_nil
        · exact ih hRest
      · rename_i hSep
        cases hPieces : splitOn sep t with
        | nil => exact absurd hPieces (splitOn_ne_nil sep t)
        | cons first pieces =>
            rw [hPieces] at h ih
            rcases List.mem_cons.mp h with rfl | hRest
            · intro hMem
              rcases List.mem_cons.mp hMem with hEq | hMem
              · exact hSep hEq.symm
              · exact ih List.mem_cons_self hMem
            · exact ih (List.mem_cons_of_mem first hRest)

/-- Cutting at a separator that stands in no part undoes joining. -/
theorem splitOn_join {ts : List Text} (hSome : ts ≠ []) (h : ∀ t ∈ ts, sep ∉ t) :
    splitOn sep (join [sep] ts) = ts := by
  induction ts with
  | nil => exact absurd rfl hSome
  | cons t ts ih =>
      have hFirst := splitOn_of_notMem (h t List.mem_cons_self)
      cases ts with
      | nil => exact hFirst
      | cons u us =>
          have hRest := ih (List.cons_ne_nil u us) fun v hv => h v (List.mem_cons_of_mem t hv)
          have hJoin : join [sep] (t :: u :: us) = t ++ sep :: join [sep] (u :: us) := by
            simp [join]
          rw [hJoin, splitOn_append_cons, hFirst, hRest]
          rfl

theorem join_append_singleton (sep : Text) {ts : List Text} (h : ts ≠ []) (t : Text) :
    join sep (ts ++ [t]) = join sep ts ++ (sep ++ t) := by
  induction ts with
  | nil => exact absurd rfl h
  | cons a ts ih =>
      cases ts with
      | nil => simp [join]
      | cons b ts =>
          have hRest := ih (List.cons_ne_nil b ts)
          simp only [List.cons_append] at hRest ⊢
          simp only [join, hRest, List.append_assoc]

theorem join_ne_nil {sep : Text} {ts : List Text} (h : ts ≠ []) (hParts : ∀ t ∈ ts, t ≠ []) :
    join sep ts ≠ [] := by
  match ts, h, hParts with
  | [t], _, hParts => exact hParts t List.mem_cons_self
  | t :: u :: ts, _, hParts => simp [join, hParts t List.mem_cons_self]

end Text

namespace Path

/-- A name that stands for itself as an element of a path. -/
structure Plain (name : Text) : Prop where
  no_slash : slash ∉ name
  ne_nil : name ≠ []
  ne_here : name ≠ "."
  ne_up : name ≠ ".."

variable {name : Text}

theorem elements_append_cons (t : Text) (h : Plain name) :
    elements (t ++ slash :: name) = elements t ++ [name] := by
  have hKept : [name].filter (fun e => e ≠ [] && e ≠ ".") = [name] := by
    simp [h.ne_nil, h.ne_here]
  rw [elements, Text.splitOn_append_cons, Text.splitOn_of_notMem h.no_slash, List.filter_append,
    hKept]
  rfl

theorem resolve_append_singleton (rooted : Bool) (done es : List Text) (h : name ≠ "..") :
    resolve rooted done (es ++ [name]) = resolve rooted done es ++ [name] := by
  induction es generalizing done with
  | nil => simp [resolve, h]
  | cons e es ih =>
      rw [List.cons_append]
      unfold resolve
      split
      · cases done with
        | nil =>
            dsimp only
            split <;> exact ih _
        | cons last done =>
            dsimp only
            split <;> exact ih _
      · exact ih _

theorem clean_append_cons {t : Text} (ht : t ≠ []) (h : Plain name) :
    clean (t ++ slash :: name) = ofElements (isAbsolute t) (cleanElements t ++ [name]) := by
  rw [clean, cleanElements, isAbsolute_append ht, elements_append_cons t h,
    resolve_append_singleton _ _ _ h.ne_up]
  rfl

theorem Plain.isAbsolute_eq (h : Plain name) : isAbsolute name = false := by
  rw [isAbsolute, decide_eq_false_iff_not]
  intro hHead
  exact h.no_slash (List.mem_of_mem_head? hHead)

theorem clean_of_plain (h : Plain name) : clean name = name := by
  have hElements : elements name = [name] := by
    rw [elements, Text.splitOn_of_notMem h.no_slash]
    simp [h.ne_nil, h.ne_here]
  rw [clean, cleanElements, h.isAbsolute_eq, hElements]
  simp [resolve, h.ne_up, ofElements, Text.join]

/-- What stands before a name in a path: nothing, or something that ends in a slash. -/
def Before (start : Text) : Prop := start = [] ∨ ∃ t, start = t ++ [slash]

theorem exists_before_ofElements (rooted : Bool) (es : List Text) :
    ∃ start, Before start ∧ ∀ name, ofElements rooted (es ++ [name]) = start ++ name := by
  by_cases hEs : es = []
  · subst hEs
    cases rooted with
    | false => exact ⟨[], Or.inl rfl, fun name => rfl⟩
    | true => exact ⟨[slash], Or.inr ⟨[], rfl⟩, fun name => rfl⟩
  · refine ⟨ofElements rooted es ++ [slash], Or.inr ⟨_, rfl⟩, ?_⟩
    intro name
    have hJoin := Text.join_append_singleton [slash] hEs name
    cases rooted <;> simp [ofElements, hEs, hJoin]

theorem join_eq_clean {parts : List Text} (h : parts.filter (· ≠ []) ≠ []) :
    join parts = clean (Text.join [slash] (parts.filter (· ≠ []))) := by
  unfold join
  split
  · rename_i hNone
    exact absurd hNone h
  · rfl

/-- A plain name stays the last element of a path, below something that depends on the other parts
alone. -/
theorem exists_before_join (parts : List Text) :
    ∃ start, Before start ∧ ∀ name, Plain name → join (parts ++ [name]) = start ++ name := by
  have hFilter : ∀ name, Plain name →
      (parts ++ [name]).filter (· ≠ []) = parts.filter (· ≠ []) ++ [name] := by
    intro name h
    simp [h.ne_nil]
  by_cases hParts : parts.filter (· ≠ []) = []
  · refine ⟨[], Or.inl rfl, ?_⟩
    intro name h
    rw [join, hFilter name h, hParts]
    exact clean_of_plain h
  · let t := Text.join [slash] (parts.filter (· ≠ []))
    have ht : t ≠ [] := Text.join_ne_nil hParts (by simp)
    obtain ⟨start, hBefore, hEq⟩ := exists_before_ofElements (isAbsolute t) (cleanElements t)
    refine ⟨start, hBefore, ?_⟩
    intro name h
    have hJoin : join (parts ++ [name]) = clean (t ++ slash :: name) := by
      rw [join_eq_clean (by simp [h.ne_nil]), hFilter name h,
        Text.join_append_singleton [slash] hParts]
      rfl
    rw [hJoin, clean_append_cons ht h, hEq]

end Path

end TokenLint
