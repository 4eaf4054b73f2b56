import TokenLint.Proofs.Dump.Shapes
import TokenLint.Proofs.Json.Margin

/-!
# Which token arrays are read

The array of the tokenizer is read in two passes: the parts of each item are read as a record, and
then each record as a token. What both passes accept together is a small grammar of items, and a
text whose value is an array is a dump exactly if all its items belong to it. The value of a text is
what the reader of JSON gives, so containers are nested at most `Json.maxDepth` deep.

* `denotes_iff`: what both passes accept of one item.
* `ofJson_array_eq_ok_iff`: what they accept of an array.
* `token_array_characterized`: texts that are arrays.
-/

namespace TokenLint.Dump

/-! ## The grammar -/

/-- The value says a text. Without one it says the empty text. -/
inductive SaysText : Json → Text → Prop
  | string (t : Text) : SaysText (.string t) t
  | null : SaysText .null []

/-- What comes after kind and content says a line. Only the first value counts. -/
inductive SaysLine : List Json → Int64 → Prop
  | absent : SaysLine [] 0
  | null (others : List Json) : SaysLine (.null :: others) 0
  | number {literal : Text} {line : Int64} (h : Json.IsInteger literal line.toInt)
      (others : List Json) : SaysLine (.number literal :: others) line

/-- The item stands for the token: it is a string of one byte, or an array with the parts of a record
that means the token. -/
inductive Denotes : Json → Token → Prop
  | character {c : Text} (h : c.length = 1) :
      Denotes (.string c) ⟨(Kind.ofCharacter? c).getD .other, [], c, 0, 0⟩
  | parts {kind content : Json} {more : List Json} {r : Record} {t : Token}
      (hKind : SaysText kind r.kind) (hContent : SaysText content r.content)
      (hLine : SaysLine more r.line) (hColumn : r.column = 0) (h : r.Means t) :
      Denotes (.array (kind :: content :: more)) t

/-! ## One item -/

theorem readJsonText_eq_some_iff {v : Json} {t : Text} :
    readJsonText [] v = some t ↔ SaysText v t := by
  constructor
  · intro h
    unfold readJsonText at h
    split at h <;> cases h
    · exact .string _
    · exact .null
  · rintro (_ | _) <;> rfl

theorem readJsonInt_eq_some_iff {v : Json} {others : List Json} {line : Int64} :
    readJsonInt 0 v = some line ↔ SaysLine (v :: others) line := by
  constructor
  · intro h
    unfold readJsonInt at h
    split at h
    · exact .number (Json.int64?_eq_some_iff.mp h) others
    · cases h
      exact .null others
    · cases h
  · rintro (_ | _ | h)
    · rfl
    · exact Json.int64?_eq_some_iff.mpr h

variable {i j : Nat}

theorem readItem_parts {kind content : Json} {more : List Json} {r : Record} :
    readItem i (.array (kind :: content :: more)) = .ok r ↔
      SaysText kind r.kind ∧ SaysText content r.content ∧ SaysLine more r.line ∧ r.column = 0 := by
  simp only [← readJsonText_eq_some_iff]
  constructor
  · intro h
    unfold readItem at h
    dsimp only at h
    split at h
    · cases h
    split at h
    · cases h
    split at h
    · cases h
      exact ⟨‹_›, ‹_›, .absent, rfl⟩
    split at h
    · cases h
    · cases h
      exact ⟨‹_›, ‹_›, readJsonInt_eq_some_iff.mp ‹_›, rfl⟩
  · obtain ⟨k, c, line, column⟩ := r
    rintro ⟨hKind, hContent, hLine, rfl⟩
    unfold readItem
    dsimp only at hKind hContent ⊢
    rw [hKind, hContent]
    cases more with
    | nil =>
        cases hLine
        rfl
    | cons v others =>
        dsimp only
        rw [readJsonInt_eq_some_iff.mpr hLine]

theorem denotes_iff {v : Json} {t : Token} :
    Denotes v t ↔ ∃ r, readItem i v = .ok r ∧ r.token j = .ok t := by
  simp only [Record.token_eq_ok_iff]
  constructor
  · rintro (h | ⟨hKind, hContent, hLine, hColumn, h⟩)
    · exact ⟨_, rfl, .character Text.trimBlank_nil h⟩
    · exact ⟨_, readItem_parts.mpr ⟨hKind, hContent, hLine, hColumn⟩, h⟩
  · rintro ⟨r, hRead, h⟩
    unfold readItem at hRead
    split at hRead
    · cases hRead
      cases h with
      | named hk => exact absurd Text.trimBlank_nil (Kind.ne_nil_of_ofName? hk)
      | character hName hLength => exact .character hLength
    · cases hRead
    · obtain ⟨hKind, hContent, hLine, hColumn⟩ := readItem_parts.mp hRead
      exact .parts hKind hContent hLine hColumn h
    · cases hRead
    · cases hRead

/-! ## Arrays -/

theorem readItems_cons_eq_ok_iff {v : Json} {vs : List Json} {rs : List Record} :
    readItems i (v :: vs) = .ok rs ↔
      ∃ r rs', readItem i v = .ok r ∧ readItems (i + 1) vs = .ok rs' ∧ rs = r :: rs' := by
  rw [readItems]
  constructor
  · intro h
    split at h
    · cases h
    split at h
    · cases h
    cases h
    exact ⟨_, _, ‹_›, ‹_›, rfl⟩
  · rintro ⟨r, rs', hFirst, hRest, rfl⟩
    rw [hFirst, hRest]

/-- The second pass starts when the first one is through, but they agree item by item. -/
theorem forall₂_denotes_iff {vs : List Json} {s : Stream} :
    List.Forall₂ Denotes vs s ↔ ∃ rs, readItems i vs = .ok rs ∧ tokensFrom i rs = .ok s := by
  induction vs generalizing i s with
  | nil =>
      rw [List.forall₂_nil_left_iff]
      constructor
      · rintro rfl
        exact ⟨[], rfl, rfl⟩
      · rintro ⟨rs, hRead, hTokens⟩
        cases hRead
        cases hTokens
        rfl
  | cons v vs ih =>
      rw [List.forall₂_cons_left_iff]
      constructor
      · rintro ⟨t, s', hFirst, hRest, rfl⟩
        obtain ⟨r, hRead, hToken⟩ := denotes_iff.mp hFirst
        obtain ⟨rs, hReads, hTokens⟩ := ih.mp hRest
        exact ⟨r :: rs, readItems_cons_eq_ok_iff.mpr ⟨r, rs, hRead, hReads, rfl⟩,
          tokensFrom_cons_eq_ok_iff.mpr ⟨t, s', hToken, hTokens, rfl⟩⟩
      · rintro ⟨_, hReads, hTokens⟩
        obtain ⟨r, rs, hRead, hReads', rfl⟩ := readItems_cons_eq_ok_iff.mp hReads
        obtain ⟨t, s', hToken, hTokens', rfl⟩ := tokensFrom_cons_eq_ok_iff.mp hTokens
        exact ⟨t, s', denotes_iff.mpr ⟨r, hRead, hToken⟩, ih.mpr ⟨rs, hReads', hTokens'⟩, rfl⟩

theorem ofJson_array_eq_ok_iff {items : List Json} {d : Dump} :
    ofJson (.array items) = .ok d ↔
      ∃ s, List.Forall₂ Denotes items s ∧ d = ⟨[], fillPositions s⟩ := by
  rw [ofJson]
  constructor
  · intro h
    split at h
    · cases h
    · obtain ⟨s, hTokens, rfl⟩ := ofRecords_eq_ok_iff.mp h
      exact ⟨s, forall₂_denotes_iff.mpr ⟨_, ‹_›, hTokens⟩, rfl⟩
  · rintro ⟨s, hAll, rfl⟩
    obtain ⟨rs, hRead, hTokens⟩ := forall₂_denotes_iff.mp hAll
    rw [hRead]
    exact ofRecords_eq_ok_iff.mpr ⟨s, hTokens, rfl⟩

/-- Partners can be chosen for each item alone. -/
theorem exists_forall₂_iff {α β : Type} {R : α → β → Prop} {as : List α} :
    (∃ bs, List.Forall₂ R as bs) ↔ ∀ a ∈ as, ∃ b, R a b := by
  induction as with
  | nil => exact iff_of_true ⟨[], .nil⟩ (List.forall_mem_nil _)
  | cons a as ih =>
      rw [List.forall_mem_cons, ← ih]
      constructor
      · rintro ⟨bs, hAll⟩
        obtain ⟨b, bs, hFirst, hRest, -⟩ := List.forall₂_cons_left_iff.mp hAll
        exact ⟨⟨b, hFirst⟩, bs, hRest⟩
      · rintro ⟨⟨b, hFirst⟩, bs, hRest⟩
        exact ⟨b :: bs, .cons hFirst hRest⟩

/-- A text whose value is an array is a dump exactly if every item stands for a token. The dump has
these tokens, in order, with the positions filled in and no path. -/
theorem token_array_characterized {text : Text} {items : List Json}
    (h : Json.parse text = some (.array items)) :
    ((∃ d, decodeJson text = .ok d) ↔ ∀ v ∈ items, ∃ t, Denotes v t) ∧
      ∀ d, decodeJson text = .ok d → ∃ s, List.Forall₂ Denotes items s ∧
        d = ⟨[], fillPositions s⟩ ∧ List.Forall₂ Token.Completes s d.tokens := by
  have hDecode : decodeJson text = ofJson (.array items) :=
    decode_of_writes (Json.parse_trimBlank h)
  simp only [hDecode, ofJson_array_eq_ok_iff]
  constructor
  · rw [← exists_forall₂_iff]
    exact ⟨fun ⟨_, s, hAll, _⟩ => ⟨s, hAll⟩, fun ⟨s, hAll⟩ => ⟨_, s, hAll, rfl⟩⟩
  · rintro d ⟨s, hAll, rfl⟩
    exact ⟨s, hAll, rfl, completes_fillFrom {} s⟩

/-- A character without a kind, and a token whose kind is in small letters between blanks. -/
def mixedArray : Text := " [[null, \"$\"], [\" t_use\", \"use\", 7]]\n"

def mixedItems : List Json :=
  [.array [.null, .string "$"], .array [.string " t_use", .string "use", .number "7"]]

def mixedDump : Dump :=
  ⟨[], [⟨.other, [], "$", 1, 1⟩, ⟨.useKeyword, "t_use", "use", 7, 1⟩]⟩

theorem token_array_characterized_mixed :
    decodeJson mixedArray = .ok mixedDump ∧ (∀ v ∈ mixedItems, ∃ t, Denotes v t) ∧
      ¬ ∃ d, decodeJson "[\"->\"]" = .ok d := by
  have hMixed : Json.parse mixedArray = some (.array mixedItems) := by with_unfolding_all rfl
  have hDump : decodeJson mixedArray = .ok mixedDump := by with_unfolding_all rfl
  have hArrow : Json.parse "[\"->\"]" = some (.array [.string "->"]) := by with_unfolding_all rfl
  refine ⟨hDump, (token_array_characterized hMixed).1.mp ⟨_, hDump⟩, fun hRead => ?_⟩
  obtain ⟨t, hDenotes⟩ := (token_array_characterized hArrow).1.mp hRead _ List.mem_cons_self
  cases hDenotes with
  | character h => cases h

end TokenLint.Dump
