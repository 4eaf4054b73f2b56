import TokenLint.Dump.Codec
import TokenLint.Proofs.Dump.Records
import TokenLint.Proofs.Json.Size
import TokenLint.Proofs.MessagePack.Size
import TokenLint.Proofs.Text.Trim

/-!
# The size of a dump that was read

The contents of the tokens come from the texts in the value that was read, each from another one:
a field that is given twice keeps one of them, and an item that is read over an earlier one takes
its place. So a dump has no more characters than its input has bytes.

* `Adds.foldlM`, `Adds.readOver`: reading values one after the other, into one place or into a row
  of places.
* `Dump.sound_of_decode`: what a reader of either format accepts is a sound dump.
-/

namespace TokenLint

/-! ## Readers that add to what is there -/

section Adds

variable {α β : Type} {size : α → Nat} {weight : β → Nat} {read : α → β → Option α}

/-- What is read over an earlier value has at most the size of both. -/
def Adds (size : α → Nat) (weight : β → Nat) (read : α → β → Option α) : Prop :=
  ∀ {old : α} {v : β} {new : α}, read old v = some new → size new ≤ size old + weight v

theorem Adds.foldlM (h : Adds size weight read) {old new : α} {vs : List β}
    (hRead : vs.foldlM read old = some new) : size new ≤ size old + (vs.map weight).sum := by
  induction vs generalizing old with
  | nil =>
      cases hRead
      exact Nat.le_refl _
  | cons v vs ih =>
      rw [List.foldlM_cons] at hRead
      obtain ⟨next, hFirst, hRest⟩ := Option.bind_eq_some_iff.mp hRead
      have hStep := h hFirst
      have hSum := ih hRest
      rw [List.map_cons, List.sum_cons]
      omega

theorem Adds.readOver (h : Adds size weight read) {fresh : α} (hFresh : size fresh = 0)
    {old new : List α} {vs : List β} (hRead : Overlay.readOver fresh read old vs = some new) :
    (new.map size).sum ≤ (old.map size).sum + (vs.map weight).sum := by
  induction vs generalizing old new with
  | nil =>
      cases old <;> cases hRead <;> exact Nat.le_refl _
  | cons v vs ih =>
      cases old with
      | nil =>
          obtain ⟨x, hFirst, hRead⟩ := Option.bind_eq_some_iff.mp hRead
          obtain ⟨xs, hRest, hEq⟩ := Option.bind_eq_some_iff.mp hRead
          cases hEq
          have hStep := h hFirst
          have hSum := ih hRest
          simp only [List.map_cons, List.sum_cons]
          omega
      | cons s old =>
          obtain ⟨x, hFirst, hRead⟩ := Option.bind_eq_some_iff.mp hRead
          obtain ⟨xs, hRest, hEq⟩ := Option.bind_eq_some_iff.mp hRead
          cases hEq
          have hStep := h hFirst
          have hSum := ih hRest
          simp only [List.map_cons, List.sum_cons]
          omega

end Adds

/-- How many characters the content of a record has. -/
def Record.characters (r : Record) : Nat := Text.runeCount r.content

theorem Record.characters_empty : Record.characters {} = 0 := Text.runeCount_nil

/-- How many characters the records have that are remembered. -/
def Overlay.characters (o : Overlay Record) : Nat := (o.slots.map Record.characters).sum

def DumpDraft.characters (d : DumpDraft) : Nat := d.tokens.characters

namespace Dump

/-! ## JSON -/

theorem adds_readJsonText : Adds Text.runeCount Json.characters readJsonText := by
  intro old v new h
  cases v <;> cases h <;> simp [Json.characters]

theorem adds_readRecordMember :
    Adds Record.characters (fun m : Text × Json => m.2.characters) readRecordMember := by
  intro r m r' h
  unfold readRecordMember at h
  split at h
  · obtain ⟨x, -, rfl⟩ := Option.map_eq_some_iff.mp h
    exact Nat.le_add_right _ _
  split at h
  · obtain ⟨x, hText, rfl⟩ := Option.map_eq_some_iff.mp h
    exact adds_readJsonText hText
  split at h
  · obtain ⟨x, -, rfl⟩ := Option.map_eq_some_iff.mp h
    exact Nat.le_add_right _ _
  split at h
  · obtain ⟨x, -, rfl⟩ := Option.map_eq_some_iff.mp h
    exact Nat.le_add_right _ _
  · cases h
    exact Nat.le_add_right _ _

theorem adds_readJsonRecord : Adds Record.characters Json.characters readJsonRecord := by
  intro r v r' h
  unfold readJsonRecord at h
  split at h
  · rw [Json.characters]
    exact adds_readRecordMember.foldlM h
  · cases h
    exact Nat.le_add_right _ _
  · cases h

theorem adds_readJsonRecords : Adds Overlay.characters Json.characters readJsonRecords := by
  intro o v o' h
  unfold readJsonRecords at h
  split at h
  · cases h
    exact Nat.zero_le _
  · obtain ⟨slots, hSlots, rfl⟩ := Option.map_eq_some_iff.mp h
    rw [Json.characters]
    exact adds_readJsonRecord.readOver Record.characters_empty hSlots
  · cases h
    exact Nat.zero_le _
  · cases h

theorem adds_readDumpMember :
    Adds DumpDraft.characters (fun m : Text × Json => m.2.characters) readDumpMember := by
  intro d m d' h
  unfold readDumpMember at h
  split at h
  · obtain ⟨x, -, rfl⟩ := Option.map_eq_some_iff.mp h
    exact Nat.le_add_right _ _
  split at h
  · obtain ⟨x, hTokens, rfl⟩ := Option.map_eq_some_iff.mp h
    exact adds_readJsonRecords hTokens
  · cases h
    exact Nat.le_add_right _ _

theorem characters_of_readDumpObject {v : Json} {d : DumpDraft} (h : readDumpObject v = some d) :
    d.characters ≤ v.characters := by
  unfold readDumpObject at h
  split at h
  · have hSum := adds_readDumpMember.foldlM h
    rw [Json.characters]
    exact hSum.trans_eq (Nat.zero_add _)
  · cases h
    exact Nat.zero_le _
  · cases h

theorem characters_of_readItem {i : Nat} {v : Json} {r : Record} (h : readItem i v = .ok r) :
    r.characters ≤ v.characters := by
  unfold readItem at h
  split at h
  · cases h
    rw [Json.characters]
    exact Nat.le_refl _
  · cases h
  · rename_i kind content more
    have hContent : ∀ {t : Text}, readJsonText [] content = some t →
        Text.runeCount t ≤ (Json.array (kind :: content :: more)).characters := by
      intro t ht
      have hAdds := adds_readJsonText ht
      rw [Text.runeCount_nil] at hAdds
      simp only [Json.characters, List.map_cons, List.sum_cons]
      omega
    split at h
    · cases h
    split at h
    · cases h
    rename_i hText
    split at h
    · cases h
      exact hContent hText
    split at h
    · cases h
    · cases h
      exact hContent hText
  · cases h
  · cases h

theorem characters_of_readItems {i : Nat} {vs : List Json} {rs : List Record}
    (h : readItems i vs = .ok rs) :
    (rs.map Record.characters).sum ≤ (vs.map Json.characters).sum := by
  induction vs generalizing i rs with
  | nil =>
      cases h
      exact Nat.le_refl 0
  | cons v vs ih =>
      unfold readItems at h
      split at h
      · cases h
      split at h
      · cases h
      rename_i hFirst _ _ hRest
      cases h
      exact Nat.add_le_add (characters_of_readItem hFirst) (ih hRest)

/-! ## MessagePack -/

theorem runeCount_of_text? {v : MessagePack} {t : Text} (h : v.text? = some t) :
    Text.runeCount t ≤ v.characters := by
  cases v <;> cases h <;> simp [MessagePack.characters, Text.runeCount_nil]

theorem adds_readRecordEntry : Adds Record.characters
    (fun e : MessagePack × MessagePack => e.2.characters) readRecordEntry := by
  intro r e r' h
  obtain ⟨key, -, h⟩ := Option.bind_eq_some_iff.mp h
  split at h
  · obtain ⟨x, -, rfl⟩ := Option.map_eq_some_iff.mp h
    exact Nat.le_add_right _ _
  split at h
  · obtain ⟨x, hText, rfl⟩ := Option.map_eq_some_iff.mp h
    exact (runeCount_of_text? hText).trans (Nat.le_add_left _ _)
  split at h
  · obtain ⟨x, -, rfl⟩ := Option.map_eq_some_iff.mp h
    exact Nat.le_add_right _ _
  split at h
  · obtain ⟨x, -, rfl⟩ := Option.map_eq_some_iff.mp h
    exact Nat.le_add_right _ _
  · cases h
    exact Nat.le_add_right _ _

theorem adds_readPackedRecord :
    Adds Record.characters MessagePack.characters readPackedRecord := by
  intro r v r' h
  unfold readPackedRecord at h
  split at h
  · rw [MessagePack.characters]
    exact adds_readRecordEntry.foldlM h
  · cases h
    exact Record.characters_empty.trans_le (Nat.zero_le _)
  · cases h
    exact Record.characters_empty.trans_le (Nat.zero_le _)
  · rename_i kind content line column
    obtain ⟨k, -, h⟩ := Option.bind_eq_some_iff.mp h
    obtain ⟨c, hText, h⟩ := Option.bind_eq_some_iff.mp h
    obtain ⟨l, -, h⟩ := Option.bind_eq_some_iff.mp h
    obtain ⟨n, -, h⟩ := Option.bind_eq_some_iff.mp h
    cases h
    have hContent := runeCount_of_text? hText
    simp only [MessagePack.characters, List.map_cons, List.sum_cons, Record.characters]
    omega
  · cases h

theorem adds_readPackedRecords :
    Adds Overlay.characters MessagePack.characters readPackedRecords := by
  intro o v o' h
  unfold readPackedRecords at h
  split at h
  · obtain ⟨slots, hSlots, rfl⟩ := Option.map_eq_some_iff.mp h
    rw [MessagePack.characters]
    exact adds_readPackedRecord.readOver Record.characters_empty hSlots
  · cases h
    exact Nat.zero_le _
  · cases h

theorem adds_readDumpEntry : Adds DumpDraft.characters
    (fun e : MessagePack × MessagePack => e.2.characters) readDumpEntry := by
  intro d e d' h
  obtain ⟨key, -, h⟩ := Option.bind_eq_some_iff.mp h
  split at h
  · obtain ⟨x, -, rfl⟩ := Option.map_eq_some_iff.mp h
    exact Nat.le_add_right _ _
  split at h
  · obtain ⟨x, hTokens, rfl⟩ := Option.map_eq_some_iff.mp h
    exact adds_readPackedRecords hTokens
  · cases h
    exact Nat.le_add_right _ _

theorem characters_of_readPackedDump {v : MessagePack} {d : DumpDraft}
    (h : readPackedDump v = some d) : d.characters ≤ v.characters := by
  unfold readPackedDump at h
  split at h
  · have hSum := adds_readDumpEntry.foldlM h
    rw [MessagePack.characters]
    exact hSum.trans_eq (Nat.zero_add _)
  · cases h
    exact Nat.zero_le _
  · cases h
    exact Nat.zero_le _
  · rename_i path tokens
    obtain ⟨p, -, h⟩ := Option.bind_eq_some_iff.mp h
    obtain ⟨o, hTokens, h⟩ := Option.bind_eq_some_iff.mp h
    cases h
    have hAdds := adds_readPackedRecords hTokens
    have hNone : Overlay.characters {} = 0 := rfl
    simp only [MessagePack.characters, List.map_cons, List.sum_cons, DumpDraft.characters]
    omega
  · cases h

/-! ## Dumps -/

theorem sound_of_finish {draft : DumpDraft} {d : Dump} (h : draft.finish = .ok d)
    (hCount : draft.characters < 2 ^ 63) : d.Sound := by
  apply sound_of_ofRecords h
  have hItems : (draft.tokens.items.map Record.characters).sum ≤ draft.characters := by
    have hPrefix : draft.tokens.items <+: draft.tokens.slots := List.take_prefix _ _
    obtain ⟨others, hSplit⟩ := hPrefix
    rw [DumpDraft.characters, Overlay.characters, ← hSplit, List.map_append, List.sum_append]
    exact Nat.le_add_right _ _
  exact Nat.lt_of_le_of_lt hItems hCount

theorem sound_of_ofJson {v : Json} {d : Dump} (h : ofJson v = .ok d)
    (hCount : v.characters < 2 ^ 63) : d.Sound := by
  unfold ofJson at h
  split at h
  · split at h
    · cases h
    · rename_i hItems
      have hSum := characters_of_readItems hItems
      rw [Json.characters] at hCount
      exact sound_of_ofRecords h (Nat.lt_of_le_of_lt hSum hCount)
  · split at h
    · cases h
    · rename_i hObject
      exact sound_of_finish h (Nat.lt_of_le_of_lt (characters_of_readDumpObject hObject) hCount)

theorem sound_of_decodeJson {t : Text} {d : Dump} (h : decodeJson t = .ok d)
    (hLength : t.length < 2 ^ 63) : d.Sound := by
  unfold decodeJson at h
  dsimp only at h
  split at h
  · cases h
  split at h
  · cases h
  · rename_i v hParse
    have hTrim := (Text.trimBlank_isInfix t).length_le
    have hCharacters := Json.characters_of_parse hParse
    exact sound_of_ofJson h (by omega)

theorem sound_of_decodeMessagePack {t : Text} {d : Dump} (h : decodeMessagePack t = .ok d)
    (hLength : t.length < 2 ^ 63) : d.Sound := by
  unfold decodeMessagePack at h
  split at h
  · cases h
  · rename_i draft hDraft
    obtain ⟨v, hParse, hRead⟩ := Option.bind_eq_some_iff.mp hDraft
    have hCharacters := MessagePack.characters_of_parse hParse
    have hDump := characters_of_readPackedDump hRead
    exact sound_of_finish h (by omega)

/-- What is read from fewer than `2 ^ 63` bytes is a sound dump. -/
theorem sound_of_decode {format : DumpFormat} {t : Text} {d : Dump} (h : decode format t = .ok d)
    (hLength : t.length < 2 ^ 63) : d.Sound := by
  cases format with
  | unknown => cases h
  | json => exact sound_of_decodeJson h hLength
  | messagePack => exact sound_of_decodeMessagePack h hLength

end Dump

end TokenLint
