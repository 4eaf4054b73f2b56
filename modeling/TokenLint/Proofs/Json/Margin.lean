import TokenLint.Proofs.Json.Document
import TokenLint.Proofs.Text.Trim

/-!
# White space around JSON

A lexeme ends where the reader says so, and the reader looks no further than at the byte behind it.
So a lexeme is read in the same way if nothing follows, or something that starts with the same byte.
The last byte of a lexeme is no white space. So what white space is behind the last one can be cut,
and what is left is read as the same value.

* `takes_readUnsigned`, `takesLexeme_of_lexeme`: what a number or a lexeme is taken off.
* `exists_inked_of_lexFrom`: a text without the white space around it has the same lexemes.
* `parse_trimBlank`: cutting white space from a JSON text does not change its value.
-/

namespace TokenLint.Json

open Text (Ink Gap)

/-! ## Numbers -/

/-- The first text is empty or starts like the second one. -/
def StartsLike (t u : Text) : Prop := ∀ b ∈ t.head?, u.head? = some b

theorem StartsLike.append_left {t u : Text} (h : StartsLike t u) (x : Text) :
    StartsLike (x ++ t) (x ++ u) := by
  cases x with
  | nil => exact h
  | cons b x => exact fun c hc => hc

/-- The last byte is no white space. -/
def EndsInInk (t : Text) : Prop := ∃ b, t.getLast? = some b ∧ Ink b

theorem EndsInInk.append {u : Text} (h : EndsInInk u) (t : Text) : EndsInInk (t ++ u) := by
  obtain ⟨b, hLast, hInk⟩ := h
  exact ⟨b, by rw [List.getLast?_append, hLast, Option.some_or], hInk⟩

/-- The reader takes `n` off the text, and off every text in which what is left is empty or starts
in the same way. -/
structure Takes (read : Text → Option (Text × Text)) (t n after : Text) : Prop where
  split : t = n ++ after
  ends : n = [] ∨ EndsInInk n
  again : ∀ after', StartsLike after' after → read (n ++ after') = some (n, after')

theorem ink_of_isDigit {b : UInt8} (h : Text.isDigit b = true) : Ink b := by
  simp only [Text.isDigit, Bool.and_eq_true, decide_eq_true_eq, UInt8.le_iff_toNat_le,
    UInt8.reduceToNat] at h
  simp only [Ink, UInt8.lt_iff_toNat_lt, UInt8.reduceToNat, Text.isBlank, Bool.or_eq_false_iff,
    Bool.and_eq_false_iff, beq_eq_false_iff_ne, decide_eq_false_iff_not]
  omega

theorem endsInInk_of_digits {ds : Text} (hDigits : ∀ b ∈ ds, Text.isDigit b = true)
    (hNe : ds ≠ []) : EndsInInk ds :=
  ⟨ds.getLast hNe, List.getLast?_eq_some_getLast hNe,
    ink_of_isDigit (hDigits _ (List.getLast_mem hNe))⟩

section Numbers

variable {t n after : Text}

theorem takes_someDigits (h : someDigits t = some (n, after)) :
    Takes someDigits t n after ∧ n ≠ [] := by
  unfold someDigits at h
  dsimp only at h
  split at h
  · cases h
  · rename_i hNe
    cases h
    have hSplit := List.takeWhile_append_dropWhile (p := Text.isDigit) (l := t)
    have hDrop : t.drop (t.takeWhile Text.isDigit).length = t.dropWhile Text.isDigit := by
      have hDropped := congrArg (List.drop (t.takeWhile Text.isDigit).length) hSplit
      rw [List.drop_left] at hDropped
      exact hDropped.symm
    have hDigits : ∀ b ∈ t.takeWhile Text.isDigit, Text.isDigit b = true := fun b hb =>
      List.mem_takeWhile_imp hb
    have hNil : t.takeWhile Text.isDigit ≠ [] := by simpa using hNe
    rw [hDrop]
    refine ⟨⟨hSplit.symm, Or.inr (endsInInk_of_digits hDigits hNil), fun after' hLike => ?_⟩, hNil⟩
    refine someDigits_append hDigits hNil fun b hb => ?_
    have hStop := hLike b hb
    exact Bool.eq_false_iff.mpr fun hDigit => by
      have hHead := List.head?_dropWhile_not Text.isDigit t
      rw [hStop] at hHead
      simp [hDigit] at hHead

theorem takes_integerPart (h : integerPart t = some (n, after)) :
    Takes integerPart t n after ∧ n ≠ [] := by
  unfold integerPart at h
  split at h
  · cases h
    exact ⟨⟨rfl, Or.inr ⟨48, rfl, by decide⟩, fun _ _ => rfl⟩, List.cons_ne_nil _ _⟩
  · rename_i hZero
    obtain ⟨⟨hSplit, hEnds, hAgain⟩, hNe⟩ := takes_someDigits h
    refine ⟨⟨hSplit, hEnds, fun after' hLike => ?_⟩, hNe⟩
    obtain ⟨b, ds, rfl⟩ := List.exists_cons_of_ne_nil hNe
    unfold integerPart
    split
    · rename_i hText
      exact absurd (hSplit.trans (congrArg (· :: (ds ++ after)) (List.cons.inj hText).1)) (hZero _)
    · exact hAgain after' hLike

theorem takes_fractionPart (h : fractionPart t = some (n, after)) : Takes fractionPart t n after := by
  unfold fractionPart at h
  split at h
  · obtain ⟨⟨ds, after⟩, hDigits, hEq⟩ := Option.map_eq_some_iff.mp h
    cases hEq
    obtain ⟨⟨rfl, hEnds, hAgain⟩, hNe⟩ := takes_someDigits hDigits
    refine ⟨rfl, Or.inr ((hEnds.resolve_left hNe).append [46]), fun after' hLike => ?_⟩
    show (someDigits (ds ++ after')).map _ = _
    rw [hAgain after' hLike]
    rfl
  · rename_i hPoint
    cases h
    refine ⟨rfl, Or.inl rfl, fun after' hLike => ?_⟩
    show fractionPart after' = _
    unfold fractionPart
    split
    · obtain ⟨rest, rfl⟩ := List.head?_eq_some_iff.mp (hLike 46 rfl)
      exact absurd rfl (hPoint rest)
    · rfl

theorem takes_exponentPart (h : exponentPart t = some (n, after)) : Takes exponentPart t n after := by
  unfold exponentPart at h
  split at h
  · rename_i b rest
    split at h
    · rename_i hMark
      split at h
      · rename_i s more
        split at h
        · rename_i hSign
          obtain ⟨⟨ds, after⟩, hDigits, hEq⟩ := Option.map_eq_some_iff.mp h
          cases hEq
          obtain ⟨⟨rfl, hEnds, hAgain⟩, hNe⟩ := takes_someDigits hDigits
          refine ⟨rfl, Or.inr ((hEnds.resolve_left hNe).append [b, s]), fun after' hLike => ?_⟩
          show exponentPart (b :: s :: (ds ++ after')) = _
          simp only [exponentPart, if_pos hMark, if_pos hSign, hAgain after' hLike]
          rfl
        · rename_i hSign
          obtain ⟨⟨ds, after⟩, hDigits, hEq⟩ := Option.map_eq_some_iff.mp h
          cases hEq
          obtain ⟨⟨hSplit, hEnds, hAgain⟩, hNe⟩ := takes_someDigits hDigits
          refine ⟨by rw [hSplit]; rfl, Or.inr ((hEnds.resolve_left hNe).append [b]),
            fun after' hLike => ?_⟩
          have hRead := hAgain after' hLike
          obtain ⟨d, ds, rfl⟩ := List.exists_cons_of_ne_nil hNe
          obtain ⟨rfl, -⟩ := List.cons.inj hSplit
          show exponentPart (b :: s :: (ds ++ after')) = _
          simp only [exponentPart, if_pos hMark, if_neg hSign]
          rw [← List.cons_append, hRead]
          rfl
      · cases h
    · rename_i hMark
      cases h
      refine ⟨rfl, Or.inl rfl, fun after' hLike => ?_⟩
      cases after' with
      | nil => rfl
      | cons c after' =>
          obtain rfl : b = c := Option.some.inj (hLike c rfl)
          show exponentPart (b :: after') = _
          simp only [exponentPart, if_neg hMark]
  · cases h
    refine ⟨rfl, Or.inl rfl, fun after' hLike => ?_⟩
    cases after' with
    | nil => rfl
    | cons c after' => cases hLike c rfl

theorem takes_readUnsigned (h : readUnsigned t = some (n, after)) :
    Takes readUnsigned t n after ∧ n ≠ [] := by
  obtain ⟨⟨whole, afterWhole⟩, hWhole, h⟩ := Option.bind_eq_some_iff.mp h
  obtain ⟨⟨fraction, afterFraction⟩, hFraction, h⟩ := Option.bind_eq_some_iff.mp h
  obtain ⟨⟨exponent, afterExponent⟩, hExponent, h⟩ := Option.bind_eq_some_iff.mp h
  cases h
  obtain ⟨⟨rfl, hWholeEnds, hWholeAgain⟩, hNe⟩ := takes_integerPart hWhole
  obtain ⟨rfl, hFractionEnds, hFractionAgain⟩ := takes_fractionPart hFraction
  obtain ⟨rfl, hExponentEnds, hExponentAgain⟩ := takes_exponentPart hExponent
  refine ⟨⟨by simp only [List.append_assoc], Or.inr ?_, fun after' hLike => ?_⟩, by simp [hNe]⟩
  · -- the last part that is not empty ends in a digit
    rcases hExponentEnds with rfl | hEnds
    · rw [List.append_nil]
      rcases hFractionEnds with rfl | hEnds
      · rw [List.append_nil]
        exact hWholeEnds.resolve_left hNe
      · exact hEnds.append whole
    · exact hEnds.append _
  · have hExponentLike := hLike.append_left exponent
    have hFractionLike := hExponentLike.append_left fraction
    rw [List.append_assoc, List.append_assoc, readUnsigned, hWholeAgain _ hFractionLike]
    show (fractionPart _ >>= _) = _
    rw [hFractionAgain _ hExponentLike]
    show (exponentPart _ >>= _) = _
    rw [hExponentAgain _ hLike]
    rfl

end Numbers

/-! ## Lexemes -/

/-- A string is read up to its closing quote, whatever follows. -/
theorem exists_of_pieces {t after : Text} {ps : List Piece} (h : pieces t = some (ps, after)) :
    ∃ body, t = body ++ 34 :: after ∧ ∀ after', pieces (body ++ 34 :: after') = some (ps, after') := by
  -- the cases without an escape or a byte that is taken give nothing
  fun_induction pieces t generalizing ps after <;> cases h
  case case2 => exact ⟨[], rfl, fun _ => rfl⟩
  case case3 a b c d rest code ps after hPieces hQuad ih =>
      obtain ⟨body, rfl, hAgain⟩ := ih hPieces
      refine ⟨92 :: 117 :: a :: b :: c :: d :: body, rfl, fun after' => ?_⟩
      show pieces (92 :: 117 :: a :: b :: c :: d :: (body ++ 34 :: after')) = _
      rw [pieces, hQuad, hAgain]
  case case5 a rest hNoQuad b ps after hPieces hLetter ih =>
      obtain ⟨body, rfl, hAgain⟩ := ih hPieces
      refine ⟨92 :: a :: body, rfl, fun after' => ?_⟩
      have hu : a ≠ 117 := by
        rintro rfl
        cases hLetter
      show pieces (92 :: a :: (body ++ 34 :: after')) = _
      rw [pieces, hLetter, hAgain]
      simp_all
  case case8 b rest hQuote hQuad hLetter hPlain ps after hPieces ih =>
      obtain ⟨body, rfl, hAgain⟩ := ih hPieces
      refine ⟨b :: body, rfl, fun after' => ?_⟩
      show pieces (b :: (body ++ 34 :: after')) = _
      rw [pieces, if_neg hPlain, hAgain]
      all_goals simp_all

/-- What a lexeme is taken off, it is taken off again if what follows starts in the same way. -/
structure TakesLexeme (b : UInt8) (rest : Text) (x : Lexeme) (after : Text) : Prop where
  starts : Ink b
  again : ∃ body, rest = body ++ after ∧ EndsInInk (b :: body) ∧
    ∀ after', StartsLike after' after → lexeme b (body ++ after') = some (x, after')

/-- A lexeme of one byte, or a word. -/
theorem takesLexeme_letters {b : UInt8} {x : Lexeme} (letters : Text) (hb : Ink b)
    (hEnds : EndsInInk (b :: letters)) (h : ∀ rest, lexeme b (letters ++ rest) = some (x, rest))
    (after : Text) : TakesLexeme b (letters ++ after) x after :=
  ⟨hb, letters, rfl, hEnds, fun after' _ => h after'⟩

theorem takesLexeme_string {rest after : Text} {t : Text} (h : readString rest = some (t, after)) :
    TakesLexeme 34 rest (.string t) after := by
  obtain ⟨⟨ps, after⟩, hPieces, hEq⟩ := Option.map_eq_some_iff.mp h
  cases hEq
  obtain ⟨body, rfl, hAgain⟩ := exists_of_pieces hPieces
  refine ⟨by decide, body ++ [34], by simp, ⟨34, ?_, by decide⟩, fun after' _ => ?_⟩
  · rw [← List.cons_append, List.getLast?_concat]
  · show (readString (body ++ [34] ++ after')).map _ = _
    rw [List.append_assoc, List.singleton_append, readString, hAgain]
    rfl

theorem takesLexeme_of_lexeme {b : UInt8} {rest after : Text} {x : Lexeme}
    (h : lexeme b rest = some (x, after)) : TakesLexeme b rest x after := by
  have hWord : ∀ (letters : Text) {a : UInt8} {u : Text} {y : Lexeme}, b :: rest = a :: (letters ++ u) →
      some (y, u) = some (x, after) → Ink a → EndsInInk (a :: letters) →
      (∀ rest, lexeme a (letters ++ rest) = some (y, rest)) → TakesLexeme b rest x after := by
    intro letters a u y hText hSome ha hEnds hRead
    obtain ⟨rfl, rfl⟩ := List.cons.inj hText
    cases hSome
    exact takesLexeme_letters letters ha hEnds hRead after
  rw [lexeme] at h
  -- the marks of one byte
  iterate 6
    rcases ite_eq_iff.mp h with ⟨rfl, h⟩ | ⟨-, h⟩
    · exact hWord [] rfl h (by decide) ⟨_, rfl, by decide⟩ fun _ => rfl
  rcases ite_eq_iff.mp h with ⟨rfl, h⟩ | ⟨-, h⟩
  · obtain ⟨⟨t, after⟩, hRead, hEq⟩ := Option.map_eq_some_iff.mp h
    cases hEq
    exact takesLexeme_string hRead
  rcases ite_eq_iff.mp h with ⟨rfl, h⟩ | ⟨-, h⟩
  · obtain ⟨⟨n, after⟩, hRead, hEq⟩ := Option.map_eq_some_iff.mp h
    cases hEq
    obtain ⟨⟨rfl, hEnds, hAgain⟩, hNe⟩ := takes_readUnsigned hRead
    refine ⟨by decide, n, rfl, (hEnds.resolve_left hNe).append [45], fun after' hLike => ?_⟩
    show (readUnsigned (n ++ after')).map _ = _
    rw [hAgain after' hLike]
    rfl
  rcases ite_eq_iff.mp h with ⟨hDigit, h⟩ | ⟨-, h⟩
  · obtain ⟨⟨n, after⟩, hRead, hEq⟩ := Option.map_eq_some_iff.mp h
    cases hEq
    obtain ⟨⟨hSplit, hEnds, hAgain⟩, hNe⟩ := takes_readUnsigned hRead
    obtain ⟨c, body, rfl⟩ := List.exists_cons_of_ne_nil hNe
    obtain ⟨rfl, rfl⟩ := List.cons.inj hSplit
    refine ⟨ink_of_isDigit hDigit, body, rfl, hEnds.resolve_left hNe, fun after' hLike => ?_⟩
    rw [lexeme_digit hDigit, ← List.cons_append, hAgain after' hLike]
    rfl
  split at h
  · exact hWord [117, 108, 108] ‹_› h (by decide) ⟨108, rfl, by decide⟩ fun _ => rfl
  · exact hWord [114, 117, 101] ‹_› h (by decide) ⟨101, rfl, by decide⟩ fun _ => rfl
  · exact hWord [97, 108, 115, 101] ‹_› h (by decide) ⟨101, rfl, by decide⟩ fun _ => rfl
  · cases h

/-! ## Texts -/

theorem gap_of_isSpace {b : UInt8} (h : isSpace b = true) : Gap b := by
  simp only [isSpace, Bool.or_eq_true, decide_eq_true_eq] at h
  rcases h with ((rfl | rfl) | rfl) | rfl <;> decide

theorem isSpace_of_ink {b : UInt8} (h : Ink b) : isSpace b = false := by
  refine Bool.eq_false_iff.mpr fun hSpace => ?_
  have hBlank := (gap_of_isSpace hSpace).2
  rw [h.2] at hBlank
  cases hBlank

/-- The text is empty, or neither its first nor its last byte is white space. -/
def Inked (t : Text) : Prop := t = [] ∨ ((∃ b, t.head? = some b ∧ Ink b) ∧ EndsInInk t)

theorem Lexes.spaces {t : Text} {ls : List Lexeme} (h : Lexes t ls) {gaps : Text}
    (hGaps : ∀ b ∈ gaps, isSpace b = true) : Lexes (gaps ++ t) ls := by
  induction gaps with
  | nil => exact h
  | cons b gaps ih =>
      obtain ⟨hb, hRest⟩ := List.forall_mem_cons.mp hGaps
      exact (ih hRest).space hb

/-- A text has the same lexemes without the white space around it. -/
theorem exists_inked_of_lexFrom {fuel : Nat} {t : Text} {ls : List Lexeme}
    (h : lexFrom fuel t = some ls) :
    ∃ front u back, t = front ++ (u ++ back) ∧ (∀ b ∈ front, isSpace b = true) ∧
      (∀ b ∈ back, isSpace b = true) ∧ Inked u ∧ Lexes u ls := by
  fun_induction lexFrom fuel t generalizing ls with
  | case1 =>
      cases h
      exact ⟨[], [], [], rfl, List.forall_mem_nil _, List.forall_mem_nil _, Or.inl rfl, lexes_nil⟩
  | case2 => cases h
  | case3 fuel b rest hSpace ih =>
      obtain ⟨front, u, back, rfl, hFront, hBack, hInked, hLexes⟩ := ih h
      exact ⟨b :: front, u, back, rfl, List.forall_mem_cons.mpr ⟨hSpace, hFront⟩, hBack, hInked,
        hLexes⟩
  | case4 => cases h
  | case5 fuel b rest hSpace x after hLexeme ih =>
      obtain ⟨ls, hRest, rfl⟩ := Option.map_eq_some_iff.mp h
      obtain ⟨front, u, back, rfl, hFront, hBack, hInked, hLexes⟩ := ih hRest
      obtain ⟨hInk, body, rfl, hEnds, hAgain⟩ := takesLexeme_of_lexeme hLexeme
      have hb := isSpace_of_ink hInk
      rcases hInked with rfl | ⟨⟨c, hHead, -⟩, hLast⟩
      · -- nothing but white space follows
        have hNothing : StartsLike [] (front ++ ([] ++ back)) := fun c hc => by cases hc
        refine ⟨[], b :: (body ++ []), front ++ back, by simp, List.forall_mem_nil _,
          List.forall_mem_append.mpr ⟨hFront, hBack⟩, Or.inr ⟨⟨b, rfl, hInk⟩, ?_⟩,
          hLexes.lexeme hb (hAgain [] hNothing) (Nat.zero_le _)⟩
        rwa [List.append_nil]
      · have hLike : StartsLike u (u ++ back) := by
          obtain ⟨u, rfl⟩ := List.head?_eq_some_iff.mp hHead
          exact fun d hd => hd
        refine ⟨[], b :: (body ++ (front ++ u)), back, by simp, List.forall_mem_nil _, hBack,
          Or.inr ⟨⟨b, rfl, hInk⟩, ?_⟩,
          (hLexes.spaces hFront).lexeme hb (hAgain _ (hLike.append_left front)) ?_⟩
        · rw [← List.append_assoc, ← List.cons_append]
          exact hLast.append _
        · exact (List.suffix_append body _).length_le

/-- Cutting white space from the ends of a JSON text does not change its value. -/
theorem parse_trimBlank {t : Text} {v : Json} (h : parse t = some v) :
    parse (Text.trimBlank t) = some v := by
  obtain ⟨ls, hLex, hBuild⟩ := Option.bind_eq_some_iff.mp h
  obtain ⟨front, u, back, rfl, hFront, hBack, hInked, hLexes⟩ := exists_inked_of_lexFrom hLex
  have hParse : parse u = some v := parse_of_gives ⟨ls, hLexes, hBuild⟩
  rcases hInked with rfl | ⟨⟨a, hFirst, ha⟩, b, hLast, hb⟩
  · cases hParse
  · rwa [Text.trimBlank_gaps (fun c hc => gap_of_isSpace (hFront c hc))
      (fun c hc => gap_of_isSpace (hBack c hc)) ha hb hFirst hLast]

end TokenLint.Json
