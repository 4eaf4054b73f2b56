import Mathlib.Data.List.DropRight
import TokenLint.ClassMap
import TokenLint.Proofs.Text.Utf8

/-!
# Trimming

What is left of a text when its ends are cut is a piece of it. So a text that is as long after
trimming as before has not changed. Cutting bytes is done at once, that is, cutting again changes
nothing; cutting blanks and then backslashes is not, because there may be blanks behind the
backslashes.
-/

namespace TokenLint

section Ends

variable {α : Type} (p : α → Bool)

theorem trimmed_isInfix (xs : List α) :
    ((xs.dropWhile p).reverse.dropWhile p).reverse <:+: xs := by
  have hFront : xs.dropWhile p <:+ xs := List.dropWhile_suffix p
  have hBack : ((xs.dropWhile p).reverse.dropWhile p).reverse <+: xs.dropWhile p := by
    have hSuffix := List.dropWhile_suffix (l := (xs.dropWhile p).reverse) p
    rw [← List.reverse_prefix, List.reverse_reverse] at hSuffix
    exact hSuffix
  exact hBack.isInfix.trans hFront.isInfix

theorem dropWhile_trimmed (xs : List α) :
    ((xs.dropWhile p).reverse.dropWhile p).reverse.dropWhile p =
      ((xs.dropWhile p).reverse.dropWhile p).reverse := by
  have hPrefix : ((xs.dropWhile p).reverse.dropWhile p).reverse <+: xs.dropWhile p := by
    rw [← List.reverse_suffix, List.reverse_reverse]
    exact List.dropWhile_suffix p
  cases hTrimmed : ((xs.dropWhile p).reverse.dropWhile p).reverse with
  | nil => rfl
  | cons x rest =>
      -- the first element is the one at which the first cut stopped
      rw [hTrimmed] at hPrefix
      obtain ⟨after, hAfter⟩ := hPrefix
      have hStopped : p x = false := by
        have hIdempotent := List.dropWhile_idempotent (p := p) xs
        rw [← hAfter, List.cons_append, List.dropWhile_cons] at hIdempotent
        by_contra hp
        rw [if_pos (by simpa using hp)] at hIdempotent
        have hLength := congrArg List.length hIdempotent
        have hLe := (List.dropWhile_suffix (l := rest ++ after) p).length_le
        rw [List.length_cons] at hLength
        omega
      rw [List.dropWhile_cons, hStopped]
      rfl

theorem trimmed_trimmed (xs : List α) :
    (((((xs.dropWhile p).reverse.dropWhile p).reverse).dropWhile p).reverse.dropWhile p).reverse =
      ((xs.dropWhile p).reverse.dropWhile p).reverse := by
  rw [dropWhile_trimmed p xs, List.reverse_reverse, List.dropWhile_idempotent]

end Ends

namespace Text

theorem trimBlank_isInfix (t : Text) : trimBlank t <:+: t := by
  obtain ⟨before, after, hRunes⟩ := trimmed_isInfix (fun r : Rune => isBlank r.code) (runes t)
  refine ⟨ofRunes before, ofRunes after, ?_⟩
  rw [trimBlank, ofRunes, ofRunes, ofRunes, ← List.flatMap_append, ← List.flatMap_append, hRunes]
  exact ofRunes_runes t

theorem trimBlank_nil : trimBlank [] = [] := List.infix_nil.mp (trimBlank_isInfix [])

theorem runes_trimBlank (t : Text) :
    runes (trimBlank t) = (((runes t).dropWhile fun r => isBlank r.code).reverse.dropWhile
      fun r => isBlank r.code).reverse :=
  runes_ofRunes (trimmed_isInfix (fun r : Rune => isBlank r.code) (runes t))

/-- Cutting blanks is done at once. -/
theorem trimBlank_trimBlank (t : Text) : trimBlank (trimBlank t) = trimBlank t := by
  rw [trimBlank, runes_trimBlank, trimmed_trimmed (fun r : Rune => isBlank r.code)]
  rfl

theorem trimBlank_of_forall {t : Text} (h : ∀ r ∈ runes t, isBlank r.code = false) :
    trimBlank t = t := by
  have hKeep : ∀ rs : List Rune, (∀ r ∈ rs, isBlank r.code = false) →
      rs.dropWhile (fun r => isBlank r.code) = rs := by
    intro rs hrs
    cases rs with
    | nil => rfl
    | cons r rs => rw [List.dropWhile_cons_of_neg (by simp [hrs r List.mem_cons_self])]
  rw [trimBlank, hKeep _ h, hKeep _ fun r hr => h r (List.mem_reverse.mp hr), List.reverse_reverse]
  exact ofRunes_runes t

/-- The byte is a character of ASCII that is no white space. -/
def Ink (b : UInt8) : Prop := b < 0x80 ∧ isBlank b.toNat = false

/-- The byte is white space of ASCII. -/
def Gap (b : UInt8) : Prop := b < 0x80 ∧ isBlank b.toNat = true

instance : DecidablePred Ink := fun _ => inferInstanceAs (Decidable (_ ∧ _))

instance : DecidablePred Gap := fun _ => inferInstanceAs (Decidable (_ ∧ _))

theorem separate_of_gaps {gaps : Text} (h : ∀ b ∈ gaps, Gap b) : Separate gaps := by
  cases gaps with
  | nil => exact separate_nil
  | cons b gaps => exact separate_cons (isTail_eq_false_of_lt (h b List.mem_cons_self).1) gaps

theorem isBlank_of_gaps {gaps : Text} (h : ∀ b ∈ gaps, Gap b) :
    ∀ r ∈ runes gaps, isBlank r.code = true := by
  rw [runes_of_ascii fun b hb => (h b hb).1]
  intro r hr
  obtain ⟨b, hb, rfl⟩ := List.mem_map.mp hr
  exact (h b hb).2

/-- White space is cut up to the first character that is none and behind the last one. -/
theorem trimBlank_gaps {front back t : Text} {a b : UInt8} (hFront : ∀ c ∈ front, Gap c)
    (hBack : ∀ c ∈ back, Gap c) (ha : Ink a) (hb : Ink b) (hFirst : t.head? = some a)
    (hLast : t.getLast? = some b) : trimBlank (front ++ (t ++ back)) = t := by
  obtain ⟨rest, rfl⟩ := List.head?_eq_some_iff.mp hFirst
  obtain ⟨init, hInit⟩ := List.getLast?_eq_some_iff.mp hLast
  have hSeparate : Separate (a :: rest ++ back) := separate_cons (isTail_eq_false_of_lt ha.1) _
  have hHead : runes (a :: rest) = ⟨a.toNat, [a], true⟩ :: runes rest := runes_cons_of_lt ha.1 rest
  have hEnd : runes (a :: rest) = runes init ++ [⟨b.toNat, [b], true⟩] := by
    rw [hInit, runes_append init (separate_cons (isTail_eq_false_of_lt hb.1) []),
      runes_cons_of_lt hb.1, runes_nil]
  have hRunes : runes (front ++ (a :: rest ++ back)) =
      runes front ++ (runes (a :: rest) ++ runes back) := by
    rw [runes_append front hSeparate, runes_append _ (separate_of_gaps hBack)]
  have hCutFront : (runes front ++ (runes (a :: rest) ++ runes back)).dropWhile
      (fun r => isBlank r.code) = runes (a :: rest) ++ runes back := by
    rw [List.dropWhile_append_of_pos (isBlank_of_gaps hFront), hHead, List.cons_append,
      List.dropWhile_cons_of_neg (by simp [ha.2])]
  have hCutBack : (runes (a :: rest) ++ runes back).reverse.dropWhile (fun r => isBlank r.code) =
      (runes (a :: rest)).reverse := by
    rw [List.reverse_append, List.dropWhile_append_of_pos fun r hr =>
      isBlank_of_gaps hBack r (List.mem_reverse.mp hr), hEnd, List.reverse_append,
      List.reverse_singleton, List.singleton_append, List.dropWhile_cons_of_neg (by simp [hb.2])]
  rw [trimBlank, hRunes, hCutFront, hCutBack, List.reverse_reverse]
  exact ofRunes_runes _

/-- Of a line whose ends are no white space, the line break is cut. -/
theorem trimBlank_line {a b : UInt8} (ha : Ink a) (hb : Ink b) (t : Text) :
    trimBlank (a :: t ++ [b, 10]) = a :: t ++ [b] := by
  have hBreak : ∀ c ∈ [(10 : UInt8)], Gap c := List.forall_mem_singleton.mpr (by decide)
  have hLine : a :: t ++ [b, 10] = [] ++ (a :: t ++ [b] ++ [10]) := by simp
  rw [hLine]
  exact trimBlank_gaps (List.forall_mem_nil _) hBreak ha hb rfl List.getLast?_concat

/-- No white space stands at the ends of the text. -/
def Neat (t : Text) : Prop := trimBlank t = t

instance (t : Text) : Decidable (Neat t) := inferInstanceAs (Decidable (_ = _))

end Text

namespace ClassMap

theorem bare_isInfix (t : Text) : bare t <:+: t := trimmed_isInfix (fun b => decide (b = 92)) t

theorem bare_bare (t : Text) : bare (bare t) = bare t := trimmed_trimmed (fun b => decide (b = 92)) t

theorem bare_normalize (t : Text) : bare (normalize t) = normalize t := bare_bare _

theorem length_normalize_le (t : Text) : (normalize t).length ≤ t.length :=
  Nat.le_trans (bare_isInfix _).length_le (Text.trimBlank_isInfix t).length_le

/-- Of a text without backslashes at its ends, nothing is cut exactly if it has no blanks there. -/
theorem normalize_eq_self_iff {t : Text} (hBare : bare t = t) : normalize t = t ↔ t.Neat := by
  constructor
  · intro h
    have hLength : (Text.trimBlank t).length = t.length := by
      have hCut := (bare_isInfix (Text.trimBlank t)).length_le
      have hBlank := (Text.trimBlank_isInfix t).length_le
      have hSame : (bare (Text.trimBlank t)).length = t.length := congrArg List.length h
      omega
    exact (Text.trimBlank_isInfix t).eq_of_length hLength
  · intro h
    rw [normalize, h, hBare]

/-- Unless nothing is cut, the text gets shorter. -/
theorem length_normalize_lt {t : Text} (h : normalize t ≠ t) : (normalize t).length < t.length := by
  have hInfix : normalize t <:+: t := (bare_isInfix _).trans (Text.trimBlank_isInfix t)
  have hNe : (normalize t).length ≠ t.length := fun hLength => h (hInfix.eq_of_length hLength)
  have hLe := length_normalize_le t
  omega

end ClassMap

end TokenLint
