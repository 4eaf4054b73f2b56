import TokenLint.Proofs.Dump.Positions
import TokenLint.Proofs.Token.Kind

/-!
# Records of tokens

A record that is read gives a token whose kind follows from its name or, without a name, from its
content. The record that is written for such a token names the kind, unless the token is a bare
character without a kind of its own. So what is read back is the same token with the name that was
written.

* `Token.Named.labelled`: a token has a name that is read as a kind, or is a bare character.
* `Record.token_eq_ok_iff`: which token a record means.
* `Record.token_ofToken`: the record of a token gives the token back.
* `Dump.ofRecords_records`: the records of a dump give the dump back.
* `Dump.sound_of_ofRecords`: all this holds of every dump that was read.
-/

namespace TokenLint

/-! ## Tokens -/

/-- The kind of the token follows from its name or, without a name, from its content. -/
inductive Token.Named (t : Token) : Prop
  | punctuation (hName : t.name = []) (h : Kind.ofCharacter? t.content = some t.kind)
  | character (hName : t.name = []) (hKind : t.kind = .other)
      (h : Kind.ofCharacter? t.content = none) (hLength : t.content.length = 1)
  | name (hName : t.name ≠ []) (hTrim : Text.trimBlank t.name = t.name)
      (h : Kind.ofName? t.name = some t.kind)

/-- The token with the name that is written for it: its own name or that of its kind, and none for
a bare character. -/
def Token.written (t : Token) : Token :=
  { t with name := if t.kind = .other && t.name = [] then [] else t.kindName }

/-- The token is a bare character: it has neither a kind of its own nor a name. -/
def Token.Bare (t : Token) : Prop := t.kind = .other ∧ t.name = []

instance : DecidablePred Token.Bare :=
  fun t => inferInstanceAs (Decidable (t.kind = .other ∧ t.name = []))

/-- The name that is written for the token is that of a kind. -/
structure Token.Labelled (t : Token) : Prop where
  trimmed : Text.trimBlank t.kindName = t.kindName
  known : (Kind.ofName? t.kindName).isSome = true

theorem Kind.ne_of_ofCharacter? {t : Text} {k : Kind} (h : ofCharacter? t = some k) :
    k ≠ .invalid ∧ k ≠ .other := by
  have hAll : ∀ x ∈ punctuation, x.2 ≠ .invalid ∧ x.2 ≠ .other := by decide
  obtain ⟨before, after, hSplit, -⟩ := List.lookup_eq_some_iff.mp h
  exact hAll (t, k) (hSplit ▸ List.mem_append_right _ List.mem_cons_self)

theorem Kind.length_of_ofCharacter? {t : Text} {k : Kind} (h : ofCharacter? t = some k) :
    t.length = 1 := by
  have hAll : ∀ x ∈ punctuation, x.1.length = 1 := by decide
  obtain ⟨before, after, hSplit, -⟩ := List.lookup_eq_some_iff.mp h
  exact hAll (t, k) (hSplit ▸ List.mem_append_right _ List.mem_cons_self)

namespace Token

theorem Named.completes {t t' : Token} (h : t.Named) (hSame : t.Completes t') : t'.Named := by
  cases h with
  | punctuation hName h =>
      exact .punctuation (hSame.name.trans hName) (by rw [hSame.content, hSame.kind, h])
  | character hName hKind h hLength =>
      exact .character (hSame.name.trans hName) (hSame.kind.trans hKind)
        (by rw [hSame.content, h]) (by rw [hSame.content, hLength])
  | name hName hTrim h =>
      exact .name (by rwa [hSame.name]) (by rwa [hSame.name]) (by rw [hSame.name, hSame.kind, h])

theorem written_of_punctuation {t : Token} (hName : t.name = [])
    (h : Kind.ofCharacter? t.content = some t.kind) : t.written = { t with name := t.kind.name } := by
  have hOther := (Kind.ne_of_ofCharacter? h).2
  simp [written, kindName, hName, hOther]

theorem written_of_character {t : Token} (hName : t.name = []) (hKind : t.kind = .other) :
    t.written = t := by
  obtain ⟨kind, name, content, line, column⟩ := t
  cases hName
  cases hKind
  rfl

theorem written_of_name {t : Token} (hName : t.name ≠ []) : t.written = t := by
  simp [written, kindName, hName]

/-- Writing a token once more gives the same record. -/
theorem ofToken_written (t : Token) : Record.ofToken t.written = Record.ofToken t := by
  by_cases hName : t.name = []
  · by_cases hKind : t.kind = .other
    · rw [written_of_character hName hKind]
    · simp [Record.ofToken, written, kindName, hName, hKind, Kind.name_ne_nil]
  · rw [written_of_name hName]

variable {t : Token}

/-- Whether a token is labelled or bare does not depend on its content. -/
theorem Named.labelled (h : t.Named) : t.Bare ∨ t.Labelled := by
  cases h with
  | punctuation hName h =>
      obtain ⟨hInvalid, hOther⟩ := Kind.ne_of_ofCharacter? h
      have hKindName : t.kindName = t.kind.name := if_pos hName
      refine Or.inr ⟨?_, ?_⟩
      · rw [hKindName, Kind.trimBlank_name]
      · rw [hKindName, Kind.ofName?_name hInvalid hOther]
        rfl
  | character hName hKind => exact Or.inl ⟨hKind, hName⟩
  | name hName hTrim h =>
      have hKindName : t.kindName = t.name := if_neg hName
      refine Or.inr ⟨?_, ?_⟩
      · rw [hKindName, hTrim]
      · rw [hKindName, h]
        rfl

theorem Named.length_of_bare (h : t.Named) (hBare : t.Bare) : t.content.length = 1 := by
  cases h with
  | punctuation hName h => exact Kind.length_of_ofCharacter? h
  | character hName hKind h hLength => exact hLength
  | name hName hTrim h => exact absurd hBare.2 hName

theorem kindName_ne_nil (t : Token) : t.kindName ≠ [] := by
  by_cases hName : t.name = []
  · rw [kindName, if_pos hName]
    exact Kind.name_ne_nil t.kind
  · rwa [kindName, if_neg hName]

theorem written_name_of_bare (h : t.Bare) : t.written.name = [] := by
  simp [written, h.1, h.2]

theorem written_name_of_not_bare (h : ¬ t.Bare) : t.written.name = t.kindName := by
  simp only [Bare] at h
  simp [written, h]

/-- What is written for the name of a token is valid and short. -/
theorem name_written_of_labelled (h : t.Bare ∨ t.Labelled) :
    Text.isUtf8 t.written.name = true ∧ t.written.name.length ≤ 120 := by
  by_cases hBare : t.Bare
  · rw [written_name_of_bare hBare]
    exact ⟨Text.isUtf8_of_ascii fun b hb => absurd hb List.not_mem_nil, Nat.zero_le _⟩
  · obtain ⟨hTrim, hKnown⟩ := h.resolve_left hBare
    obtain ⟨k, hk⟩ := Option.isSome_iff_exists.mp hKnown
    rw [written_name_of_not_bare hBare, ← hTrim]
    exact ⟨Kind.isUtf8_of_ofName? hk, Kind.length_of_ofName? hk⟩

end Token

/-! ## Records -/

namespace Record

theorem ofToken_eq (t : Token) :
    ofToken t = { kind := t.written.name, content := t.content, line := t.line,
                  column := t.column } := rfl

/-- The record means the token: it names a kind, or its content is a single byte. -/
inductive Means (r : Record) : Token → Prop
  | named {k : Kind} (h : Kind.ofName? (Text.trimBlank r.kind) = some k) :
      Means r ⟨k, Text.trimBlank r.kind, r.content, r.line, r.column⟩
  | character (hName : Text.trimBlank r.kind = []) (hLength : r.content.length = 1) :
      Means r ⟨(Kind.ofCharacter? r.content).getD .other, [], r.content, r.line, r.column⟩

theorem token_eq_ok_iff {r : Record} {i : Nat} {t : Token} : r.token i = .ok t ↔ r.Means t := by
  unfold Record.token
  dsimp only
  constructor
  · intro h
    split at h
    · rename_i hName
      split at h
      · rename_i k hk
        cases h
        have hMeans := Means.character hName (Kind.length_of_ofCharacter? hk)
        rwa [hk, Option.getD_some] at hMeans
      · rename_i hNone
        split at h
        · rename_i hLength
          cases h
          have hMeans := Means.character hName hLength
          rwa [hNone, Option.getD_none] at hMeans
        · cases h
    · split at h
      · rename_i k hk
        cases h
        exact .named hk
      · cases h
  · rintro (hk | ⟨hName, hLength⟩)
    · rw [if_neg (Kind.ne_nil_of_ofName? hk), hk]
    · rw [if_pos hName, if_pos hLength]
      cases Kind.ofCharacter? r.content <;> rfl

theorem Means.content_eq {r : Record} {t : Token} (h : r.Means t) : t.content = r.content := by
  cases h <;> rfl

theorem Means.named_token {r : Record} {t : Token} (h : r.Means t) : t.Named := by
  cases h with
  | named hk => exact .name (Kind.ne_nil_of_ofName? hk) (Text.trimBlank_trimBlank _) hk
  | character hName hLength =>
      cases hk : Kind.ofCharacter? r.content with
      | none => exact .character rfl rfl hk hLength
      | some k => exact .punctuation rfl hk

/-- A record with a name that needs no trimming. -/
theorem token_of_name {name content : Text} {line column : Int64} {k : Kind} (hName : name ≠ [])
    (hTrim : Text.trimBlank name = name) (h : Kind.ofName? name = some k) (i : Nat) :
    Record.token i ⟨name, content, line, column⟩ = .ok ⟨k, name, content, line, column⟩ := by
  unfold Record.token
  simp only [hTrim, if_neg hName, h]

/-- The record that is written for a token gives the token back, with the name that was written. -/
theorem token_ofToken {t : Token} (h : t.Named) (i : Nat) : (ofToken t).token i = .ok t.written := by
  rw [ofToken_eq]
  cases h with
  | punctuation hName h =>
      obtain ⟨hInvalid, hOther⟩ := Kind.ne_of_ofCharacter? h
      have hFound := Kind.ofName?_name hInvalid hOther
      have hTrim := Kind.trimBlank_name t.kind
      have hSome := Kind.name_ne_nil t.kind
      rw [Token.written_of_punctuation hName h]
      generalize t.kind.name = name at *
      exact token_of_name hSome hTrim hFound i
  | character hName hKind h hLength =>
      rw [Token.written_of_character hName hKind]
      unfold Record.token
      simp only [hName, Text.trimBlank_nil, if_true, h, hLength]
      rw [← hName, ← hKind]
  | name hName hTrim h =>
      rw [Token.written_of_name hName]
      exact token_of_name hName hTrim h i

/-- The fields that say where a token stands. -/
inductive PositionField where
  | line
  | column

namespace PositionField

def name : PositionField → Text
  | line => "line"
  | column => "column"

def store (r : Record) (n : Int64) : PositionField → Record
  | line => { r with line := n }
  | column => { r with column := n }

end PositionField

end Record

/-! ## Dumps -/

section Fields

variable {α β : Type} {read : α → β → Option α} {old new : α} {b : β}

theorem foldlM_field (h : read old b = some new) (others : List (Option β)) :
    ((some b :: others).filterMap id).foldlM read old = (others.filterMap id).foldlM read new := by
  show (read old b).bind _ = _
  rw [h]
  rfl

/-- A field that was left out says what is there without it. -/
theorem foldlM_unless {p : Prop} [Decidable p] (h : read old b = some new) (hAbsent : p → old = new)
    (others : List (Option β)) :
    (((if p then none else some b) :: others).filterMap id).foldlM read old =
      (others.filterMap id).foldlM read new := by
  split
  · rw [← hAbsent ‹_›]
    rfl
  · exact foldlM_field h others

end Fields

/-- Items are read one by one, where there was nothing before. -/
theorem Overlay.readOver_of_forall₂ {α β : Type} {fresh : α} {read : α → β → Option α} {vs : List β}
    {xs : List α} (h : List.Forall₂ (fun v x => read fresh v = some x) vs xs) :
    Overlay.readOver fresh read [] vs = some xs := by
  induction h with
  | nil => rfl
  | cons hFirst _ ih =>
      rw [Overlay.readOver, hFirst, ih]
      rfl

/-- Written items are read back, where there was nothing before. -/
theorem Overlay.readOver_map {α β : Type} {fresh : α} {read : α → β → Option α} {write : α → β}
    {xs : List α} (h : ∀ x ∈ xs, read fresh (write x) = some x) :
    Overlay.readOver fresh read [] (xs.map write) = some xs :=
  readOver_of_forall₂ (List.forall₂_map_left_iff.mpr (List.forall₂_same.mpr h))

namespace Dump

/-- The dump with the names that are written for its tokens. -/
def written (d : Dump) : Dump := { d with tokens := d.tokens.map Token.written }

/-- The tokens have their kinds as in a dump that was read, and all positions are known. -/
structure Sound (d : Dump) : Prop where
  named : ∀ t ∈ d.tokens, t.Named
  known : ∀ t ∈ d.tokens, t.line ≠ 0 ∧ t.column ≠ 0

theorem records_written (d : Dump) : d.written.records = d.records := by
  rw [records, written, List.map_map]
  exact List.map_congr_left fun t _ => Token.ofToken_written t

theorem name_of_mem_records {d : Dump} (h : ∀ t ∈ d.tokens, t.Bare ∨ t.Labelled) {r : Record}
    (hr : r ∈ d.records) :
    Text.isUtf8 r.kind = true ∧ r.kind.length ≤ 120 ∧ ∃ t ∈ d.tokens, r.content = t.content := by
  obtain ⟨t, ht, rfl⟩ := List.mem_map.mp hr
  obtain ⟨hValid, hShort⟩ := Token.name_written_of_labelled (h t ht)
  exact ⟨hValid, hShort, t, ht, rfl⟩

theorem tokensFrom_ofToken {s : Stream} (h : ∀ t ∈ s, t.Named) (i : Nat) :
    tokensFrom i (s.map Record.ofToken) = .ok (s.map Token.written) := by
  induction s generalizing i with
  | nil => rfl
  | cons t s ih =>
      obtain ⟨hFirst, hRest⟩ := List.forall_mem_cons.mp h
      rw [List.map_cons, tokensFrom, Record.token_ofToken hFirst, ih hRest]
      rfl

/-- The records of a dump give it back, with the names that were written. -/
theorem ofRecords_records {d : Dump} (h : d.Sound) : ofRecords d.path d.records = .ok d.written := by
  have hKnown : ∀ t ∈ d.tokens.map Token.written, t.line ≠ 0 ∧ t.column ≠ 0 := by
    intro t ht
    obtain ⟨u, hu, rfl⟩ := List.mem_map.mp ht
    exact h.known u hu
  rw [ofRecords, records, tokensFrom_ofToken h.named]
  show Except.ok (⟨d.path, fillPositions (d.tokens.map Token.written)⟩ : Dump) = _
  rw [fillPositions, fillFrom_of_known hKnown]
  rfl

theorem tokensFrom_cons_eq_ok_iff {i : Nat} {r : Record} {rs : List Record} {s : Stream} :
    tokensFrom i (r :: rs) = .ok s ↔
      ∃ t s', r.token i = .ok t ∧ tokensFrom (i + 1) rs = .ok s' ∧ s = t :: s' := by
  rw [tokensFrom]
  constructor
  · intro h
    split at h
    · cases h
    split at h
    · cases h
    cases h
    exact ⟨_, _, ‹_›, ‹_›, rfl⟩
  · rintro ⟨t, s', hFirst, hRest, rfl⟩
    rw [hFirst, hRest]

theorem ofRecords_eq_ok_iff {path : Text} {rs : List Record} {d : Dump} :
    ofRecords path rs = .ok d ↔ ∃ s, tokensFrom 0 rs = .ok s ∧ d = ⟨path, fillPositions s⟩ := by
  rw [ofRecords]
  constructor
  · intro h
    split at h
    · cases h
    · cases h
      exact ⟨_, ‹_›, rfl⟩
  · rintro ⟨s, hTokens, rfl⟩
    rw [hTokens]

theorem tokensFrom_ok {i : Nat} {rs : List Record} {s : Stream} (h : tokensFrom i rs = .ok s) :
    (∀ t ∈ s, t.Named) ∧ s.map Token.content = rs.map Record.content := by
  induction rs generalizing i s with
  | nil =>
      cases h
      exact ⟨fun t ht => absurd ht List.not_mem_nil, rfl⟩
  | cons r rs ih =>
      obtain ⟨t, s, hToken, hTokens, rfl⟩ := tokensFrom_cons_eq_ok_iff.mp h
      have hMeans := Record.token_eq_ok_iff.mp hToken
      obtain ⟨hRest, hContents⟩ := ih hTokens
      exact ⟨List.forall_mem_cons.mpr ⟨hMeans.named_token, hRest⟩, by
        rw [List.map_cons, List.map_cons, hMeans.content_eq, hContents]⟩

theorem named_of_ofRecords {path : Text} {rs : List Record} {d : Dump}
    (h : ofRecords path rs = .ok d) : ∀ t ∈ d.tokens, t.Named := by
  obtain ⟨s, hTokens, rfl⟩ := ofRecords_eq_ok_iff.mp h
  intro t ht
  obtain ⟨u, hu, hCompletes⟩ := exists_of_mem_fillFrom ht
  exact ((tokensFrom_ok hTokens).1 u hu).completes hCompletes

/-- Records with fewer than `2 ^ 63` characters give a sound dump. -/
theorem sound_of_ofRecords {path : Text} {rs : List Record} {d : Dump}
    (h : ofRecords path rs = .ok d)
    (hCount : (rs.map fun r => Text.runeCount r.content).sum < 2 ^ 63) : d.Sound := by
  refine ⟨named_of_ofRecords h, ?_⟩
  obtain ⟨s, hTokens, rfl⟩ := ofRecords_eq_ok_iff.mp h
  apply fillPositions_ne_zero
  have hRunes : s.runeCount = (rs.map fun r => Text.runeCount r.content).sum := by
    have hMap := congrArg (List.map Text.runeCount) (tokensFrom_ok hTokens).2
    rw [List.map_map, List.map_map] at hMap
    exact congrArg List.sum hMap
  rw [hRunes]
  exact hCount

end Dump

end TokenLint
