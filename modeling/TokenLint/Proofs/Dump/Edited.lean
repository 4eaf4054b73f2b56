import TokenLint.Proofs.Dump.JsonRoundTrip
import TokenLint.Proofs.Dump.MessagePackRoundTrip

/-!
# Dumps whose tokens were edited

An edit changes the content of a token and nothing else. What is written for the kind of a token is
read back whatever its content has become, with one exception: nothing is written for a bare
character, so its content has to stay a single byte. A text of any other length is refused, since
nothing says what kind of token it is.

* `Record.token_ofToken_content`: contents that can be read back.
* `readBack_ofRecords`: what a reader makes of the records of such tokens.
* `readBack_json`, `readBack_messagePack`: the same in both formats.
-/

namespace TokenLint

/-! ## Records -/

namespace Record

variable {t : Token}

theorem token_ofToken_of_bare (h : t.Bare) (i : Nat) :
    (t.content.length = 1 → ∃ u, (ofToken t).token i = .ok u ∧ u.content = t.content) ∧
      (t.content.length ≠ 1 → (ofToken t).token i = .error (.missingKind i t.content)) := by
  rw [ofToken_eq, Token.written_name_of_bare h, Record.token]
  simp only [Text.trimBlank_nil, if_true]
  cases hCharacter : Kind.ofCharacter? t.content with
  | some k =>
      have hOne := Kind.length_of_ofCharacter? hCharacter
      exact ⟨fun _ => ⟨_, rfl, rfl⟩, fun hNe => absurd hOne hNe⟩
  | none => exact ⟨fun hOne => ⟨_, if_pos hOne, rfl⟩, fun hNe => if_neg hNe⟩

/-- The content that was written is read back, for a bare character if it is a single byte. -/
theorem token_ofToken_content (h : t.Bare ∨ t.Labelled) (hOne : t.Bare → t.content.length = 1)
    (i : Nat) : ∃ u, (ofToken t).token i = .ok u ∧ u.content = t.content := by
  by_cases hBare : t.Bare
  · exact (token_ofToken_of_bare hBare i).1 (hOne hBare)
  · obtain ⟨hTrim, hKnown⟩ := h.resolve_left hBare
    obtain ⟨k, hk⟩ := Option.isSome_iff_exists.mp hKnown
    rw [ofToken_eq, Token.written_name_of_not_bare hBare]
    exact ⟨_, token_of_name t.kindName_ne_nil hTrim hk i, rfl⟩

end Record

/-! ## Streams -/

/-- Every bare character is a single byte. -/
def Stream.Readable (s : Stream) : Prop := ∀ t ∈ s, t.Bare → t.content.length = 1

namespace Dump

/-- What a reader makes of a stream that was written: a stream with the same source, or the complaint
about a bare character that is none any more. -/
inductive ReadBack (s : Stream) : Except DumpError Dump → Prop
  | same {d : Dump} (h : s.Readable) (hSource : d.tokens.source = s.source) : ReadBack s (.ok d)
  | refused {j : Nat} {t : Token} (hToken : s[j]? = some t) (hBare : t.Bare)
      (hLength : t.content.length ≠ 1) : ReadBack s (.error (.missingKind j t.content))

theorem tokensFrom_of_readable {s : Stream} (h : ∀ t ∈ s, t.Bare ∨ t.Labelled) (hReadable : s.Readable)
    (i : Nat) : ∃ ts, tokensFrom i (s.map Record.ofToken) = .ok ts ∧ ts.source = s.source := by
  induction s generalizing i with
  | nil => exact ⟨[], rfl, rfl⟩
  | cons t s ih =>
      obtain ⟨hFirst, hRest⟩ := List.forall_mem_cons.mp h
      obtain ⟨hOne, hOnes⟩ := List.forall_mem_cons.mp hReadable
      obtain ⟨ts, hTokens, hSource⟩ := ih hRest hOnes (i + 1)
      obtain ⟨u, hu, hContent⟩ := Record.token_ofToken_content hFirst hOne i
      refine ⟨u :: ts, by rw [List.map_cons, tokensFrom, hu, hTokens], ?_⟩
      simp only [Stream.source, List.flatMap_cons] at hSource ⊢
      rw [hContent, hSource]

theorem tokensFrom_of_not_readable {s : Stream} (h : ∀ t ∈ s, t.Bare ∨ t.Labelled)
    (hReadable : ¬ s.Readable) (i : Nat) : ∃ j t, s[j]? = some t ∧ t.Bare ∧ t.content.length ≠ 1 ∧
      tokensFrom i (s.map Record.ofToken) = .error (.missingKind (i + j) t.content) := by
  induction s generalizing i with
  | nil => exact absurd (fun t ht => absurd ht List.not_mem_nil) hReadable
  | cons t s ih =>
      obtain ⟨hFirst, hRest⟩ := List.forall_mem_cons.mp h
      by_cases hBad : t.Bare ∧ t.content.length ≠ 1
      · refine ⟨0, t, rfl, hBad.1, hBad.2, ?_⟩
        rw [List.map_cons, tokensFrom, (Record.token_ofToken_of_bare hBad.1 i).2 hBad.2]
        rfl
      · -- this token is read, so the fault is behind it
        have hOne : t.Bare → t.content.length = 1 :=
          fun hBare => not_not.mp fun hNe => hBad ⟨hBare, hNe⟩
        have hBehind : ¬ Stream.Readable s :=
          fun hAll => hReadable (List.forall_mem_cons.mpr ⟨hOne, hAll⟩)
        obtain ⟨u, hu, -⟩ := Record.token_ofToken_content hFirst hOne i
        obtain ⟨j, t', ht', hBare, hNe, hError⟩ := ih hRest hBehind (i + 1)
        refine ⟨j + 1, t', ht', hBare, hNe, ?_⟩
        rw [List.map_cons, tokensFrom, hu, hError]
        simp only [Nat.add_assoc, Nat.add_comm 1]

theorem source_fillPositions (s : Stream) : (fillPositions s).source = s.source := by
  have hContents : ∀ c, (fillFrom c s).map Token.content = s.map Token.content := by
    intro c
    refine List.ext_getElem (by simpa using (completes_fillFrom c s).length_eq.symm) fun i hi hi' => ?_
    rw [List.getElem_map, List.getElem_map]
    exact ((completes_fillFrom c s).get _ _).content
  simp only [Stream.source, List.flatMap_def, fillPositions, hContents]

theorem readBack_ofRecords (path : Text) {s : Stream} (h : ∀ t ∈ s, t.Bare ∨ t.Labelled) :
    ReadBack s (ofRecords path (records ⟨path, s⟩)) := by
  by_cases hReadable : s.Readable
  · obtain ⟨ts, hTokens, hSource⟩ := tokensFrom_of_readable h hReadable 0
    rw [ofRecords, records, hTokens]
    exact .same hReadable ((source_fillPositions ts).trans hSource)
  · obtain ⟨j, t, ht, hBare, hNe, hError⟩ := tokensFrom_of_not_readable h hReadable 0
    rw [ofRecords, records, hError, Nat.zero_add]
    exact .refused ht hBare hNe

theorem readBack_json (path : Text) {s : Stream} (h : ∀ t ∈ s, t.Bare ∨ t.Labelled)
    (hContents : ∀ t ∈ s, Text.isUtf8 t.content = true) :
    ReadBack s (decodeJson (encodeJson ⟨path, s⟩)) := by
  rw [decodeJson_encodeJson_toValid fun r hr => ?_]
  · exact readBack_ofRecords (Text.toValid path) h
  · obtain ⟨hKind, -, t, ht, hContent⟩ := name_of_mem_records h hr
    exact ⟨hKind, hContent ▸ hContents t ht⟩

/-- The lengths fit the format: MessagePack has four bytes for each. -/
def Fits (d : Dump) : DumpFormat → Prop
  | .unknown => False
  | .json => True
  | .messagePack => d.path.length < 2 ^ 32 ∧ d.tokens.length < 2 ^ 32 ∧
      ∀ t ∈ d.tokens, t.content.length < 2 ^ 32

theorem readBack_messagePack {path : Text} {s : Stream} (h : ∀ t ∈ s, t.Bare ∨ t.Labelled)
    (hFits : Fits ⟨path, s⟩ .messagePack) :
    ReadBack s (decodeMessagePack (encodeMessagePack ⟨path, s⟩)) := by
  obtain ⟨hPath, hCount, hContents⟩ := hFits
  have hRecords : ∀ r ∈ records ⟨path, s⟩, r.kind.length < 2 ^ 32 ∧ r.content.length < 2 ^ 32 := by
    intro r hr
    obtain ⟨-, hShort, t, ht, hContent⟩ := name_of_mem_records h hr
    exact ⟨by omega, hContent ▸ hContents t ht⟩
  have hDecode := decodeMessagePack_append (by rwa [records, List.length_map]) hPath hRecords []
  rw [List.append_nil] at hDecode
  rw [hDecode]
  exact readBack_ofRecords path h

/-- A stream can be written in both formats, and what is written is read back or refused. -/
theorem readBack_decode {format : DumpFormat} {path : Text} {s : Stream}
    (hFits : Fits ⟨path, s⟩ format) (h : ∀ t ∈ s, t.Bare ∨ t.Labelled)
    (hContents : ∀ t ∈ s, Text.isUtf8 t.content = true) :
    ∃ out, encode format ⟨path, s⟩ = .ok out ∧ ReadBack s (decode format out) := by
  cases format with
  | unknown => exact hFits.elim
  | json => exact ⟨_, rfl, readBack_json path h hContents⟩
  | messagePack => exact ⟨_, rfl, readBack_messagePack h hFits⟩

/-! ## Dumps that were read -/

theorem named_of_decode {format : DumpFormat} {t : Text} {d : Dump} (h : decode format t = .ok d) :
    ∀ x ∈ d.tokens, x.Named := by
  have hRecords : ∃ path rs, ofRecords path rs = .ok d := by
    cases format with
    | unknown => cases h
    | json =>
        unfold decode decodeJson at h
        dsimp only at h
        split at h
        · cases h
        split at h
        · cases h
        unfold ofJson at h
        split at h
        · split at h
          · cases h
          · exact ⟨_, _, h⟩
        · split at h
          · cases h
          · exact ⟨_, _, h⟩
    | messagePack =>
        unfold decode decodeMessagePack at h
        dsimp only at h
        split at h
        · cases h
        · exact ⟨_, _, h⟩
  obtain ⟨path, rs, hd⟩ := hRecords
  exact named_of_ofRecords hd

end Dump

end TokenLint
