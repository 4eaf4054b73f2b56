import TokenLint.Rule.ObjectManager

/-!
# Rewriting a literal

The first byte of a literal is taken for its quote, and the literal is cut at the first two places
where this byte stands. What stands between them is replaced, and what is behind the second one
stays. There is always a piece to replace, because the first byte is such a place itself.

* `replaceSecondPiece?_eq`: another name in the place of the second of at most three pieces.
* `replaceName_eq_iff`: the three shapes of a literal, and what becomes of each.
* `stripQuotes_replaceName`: taking the quotes off undoes putting them around a new name.
-/

namespace TokenLint

namespace Text

variable {sep : UInt8} {t : Text}

/-- A text is cut at the first place where the separator stands. -/
theorem splitFirst_append (h : sep ∉ t) (u : Text) :
    splitFirst sep (t ++ sep :: u) = some (t, u) := by
  induction t with
  | nil => simp [splitFirst]
  | cons b t ih =>
      rw [List.mem_cons, not_or] at h
      obtain ⟨hHead, hTail⟩ := h
      simp [splitFirst, Ne.symm hHead, ih hTail]

theorem splitFirst_of_notMem (h : sep ∉ t) : splitFirst sep t = none := by
  induction t with
  | nil => rfl
  | cons b t ih =>
      rw [List.mem_cons, not_or] at h
      obtain ⟨hHead, hTail⟩ := h
      simp [splitFirst, Ne.symm hHead, ih hTail]

/-- The pieces of a text that is cut at the first places where a byte stands, at most `n` times. -/
def cut (sep : UInt8) : Nat → Text → List Text
  | 0, t => [t]
  | n + 1, t =>
    match splitFirst sep t with
    | none => [t]
    | some (before, after) => before :: cut sep n after

theorem cut_of_notMem (h : sep ∉ t) (n : Nat) : cut sep n t = [t] := by
  cases n with
  | zero => rfl
  | succ n => rw [cut, splitFirst_of_notMem h]

theorem cut_append (h : sep ∉ t) (n : Nat) (u : Text) :
    cut sep (n + 1) (t ++ sep :: u) = t :: cut sep n u := by
  rw [cut, splitFirst_append h]

end Text

namespace ObjectManager

/-! ## What becomes of a literal -/

/-- The quote that is written for a quote. -/
def outerQuote (q : UInt8) : UInt8 := if q = doubleQuote then singleQuote else q

/-- The literal with another second piece, where it is cut at its first byte into at most three.
There is none if there is no second piece. -/
def replaceSecondPiece? (raw newName : Text) : Option Text :=
  match raw with
  | [] => some (singleQuote :: (newName ++ [singleQuote]))
  | q :: _ =>
    let pieces := Text.cut q 2 raw
    if 1 < pieces.length then some (Text.join [outerQuote q] (pieces.set 1 newName)) else none

/-- What becomes of a literal: the name comes in quotes if there is no literal, up to the second
quote if there is one, and else up to the end. -/
inductive Requotes (newName : Text) : Text → Text → Prop
  | empty : Requotes newName [] (singleQuote :: (newName ++ [singleQuote]))
  | closed {q : UInt8} {body : Text} (h : q ∉ body) (rest : Text) :
      Requotes newName (q :: (body ++ q :: rest))
        (outerQuote q :: (newName ++ outerQuote q :: rest))
  | unclosed {q : UInt8} {body : Text} (h : q ∉ body) :
      Requotes newName (q :: body) (outerQuote q :: newName)

variable {q : UInt8} {body raw newName out : Text}

theorem replaceName_closed (h : q ∉ body) (rest newName : Text) :
    replaceName (q :: (body ++ q :: rest)) newName =
      outerQuote q :: (newName ++ outerQuote q :: rest) := by
  rw [replaceName, Text.splitFirst_append h]
  rfl

theorem replaceName_unclosed (h : q ∉ body) (newName : Text) :
    replaceName (q :: body) newName = outerQuote q :: newName := by
  rw [replaceName, Text.splitFirst_of_notMem h]
  rfl

/-- Every literal has one of the three shapes. -/
theorem requotes_replaceName (raw newName : Text) :
    Requotes newName raw (replaceName raw newName) := by
  cases raw with
  | nil => exact .empty
  | cons q raw =>
      by_cases hq : q ∈ raw
      · obtain ⟨body, rest, rfl, hBody⟩ := List.eq_append_cons_of_mem hq
        rw [replaceName_closed hBody]
        exact .closed hBody rest
      · rw [replaceName_unclosed hq]
        exact .unclosed hq

theorem replaceName_eq_iff : replaceName raw newName = out ↔ Requotes newName raw out := by
  constructor
  · rintro rfl
    exact requotes_replaceName raw newName
  · intro h
    cases h with
    | empty => rfl
    | closed h rest => exact replaceName_closed h rest newName
    | unclosed h => exact replaceName_unclosed h newName

/-- There is always a second piece, and replacing it is rewriting the literal. -/
theorem replaceSecondPiece?_eq (raw newName : Text) :
    replaceSecondPiece? raw newName = some (replaceName raw newName) := by
  -- the first piece is empty, and it ends at the quote the literal starts with
  have hCut : ∀ (q : UInt8) (t : Text), Text.cut q 2 (q :: t) = [] :: Text.cut q 1 t := fun q t =>
    Text.cut_append List.not_mem_nil 1 t
  generalize hOut : replaceName raw newName = out
  cases replaceName_eq_iff.mp hOut with
  | empty => rfl
  | @closed q body h rest =>
      rw [replaceSecondPiece?, hCut, Text.cut_append h]
      simp [Text.cut, Text.join]
  | @unclosed q body h =>
      rw [replaceSecondPiece?, hCut, Text.cut_of_notMem h]
      rfl

/-! ## Quotes -/

/-- A literal with a quote at each end and none of the same sort between them. -/
def IsQuoted (raw : Text) : Prop :=
  ∃ q body, isQuote q = true ∧ q ∉ body ∧ raw = q :: (body ++ [q])

theorem outerQuote_of_isQuote (hq : isQuote q = true) : outerQuote q = singleQuote := by
  simp only [isQuote, Bool.or_eq_true, decide_eq_true_eq] at hq
  rcases hq with rfl | rfl <;> rfl

theorem stripQuotes_quoted {q : UInt8} (hq : isQuote q = true) (body : Text) :
    stripQuotes (q :: (body ++ [q])) = body := by
  simp [stripQuotes, dropQuote, hq]

theorem replaceName_quoted {q : UInt8} {body : Text} (hq : isQuote q = true) (hBody : q ∉ body)
    (newName : Text) :
    replaceName (q :: (body ++ [q])) newName = singleQuote :: (newName ++ [singleQuote]) := by
  rw [replaceName_closed hBody, outerQuote_of_isQuote hq]

/-- Whatever the new name is, it is what stands between the quotes. -/
theorem stripQuotes_replaceName {raw : Text} (h : IsQuoted raw) (newName : Text) :
    stripQuotes (replaceName raw newName) = newName := by
  obtain ⟨q, body, hq, hBody, rfl⟩ := h
  rw [replaceName_quoted hq hBody, stripQuotes_quoted rfl]

/-- Rewriting a literal never fails for want of a second piece, and it gives what the shape of the
literal asks for. A literal in quotes becomes the new name in single quotes, and both names are what
is left when the quotes are taken off, even if they have quotes of their own. -/
theorem replaceName_characterized (raw newName : Text) :
    replaceSecondPiece? raw newName = some (replaceName raw newName) ∧
      (∀ out, replaceName raw newName = out ↔ Requotes newName raw out) ∧
      ∀ q body, isQuote q = true → q ∉ body → raw = q :: (body ++ [q]) →
        stripQuotes raw = body ∧
          replaceName raw newName = singleQuote :: (newName ++ [singleQuote]) ∧
          stripQuotes (replaceName raw newName) = newName := by
  refine ⟨replaceSecondPiece?_eq raw newName, fun out => replaceName_eq_iff, ?_⟩
  rintro q body hq hBody rfl
  exact ⟨stripQuotes_quoted hq body, replaceName_quoted hq hBody newName,
    stripQuotes_replaceName ⟨q, body, hq, hBody, rfl⟩ newName⟩

/-- The old name ends with a quote of the other sort, and the new one starts with one. -/
theorem replaceName_characterized_mixedQuotes :
    isQuote doubleQuote = true ∧ doubleQuote ∉ Text.ofString "Tx_A'" ∧
      stripQuotes "\"Tx_A'\"" = "Tx_A'" ∧ replaceName "\"Tx_A'\"" "'New" = "''New'" ∧
      stripQuotes (replaceName "\"Tx_A'\"" "'New") = "'New" := by
  have hQuote : isQuote doubleQuote = true := rfl
  have hBody : doubleQuote ∉ Text.ofString "Tx_A'" := by decide
  exact ⟨hQuote, hBody, (replaceName_characterized "\"Tx_A'\"" "'New").2.2 _ _ hQuote hBody rfl⟩

end ObjectManager

end TokenLint
