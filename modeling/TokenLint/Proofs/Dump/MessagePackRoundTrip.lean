import TokenLint.Proofs.Dump.Size
import TokenLint.Proofs.MessagePack

/-!
# Dumps written as MessagePack

A dump that was read, from either format, is written as MessagePack and read back with its path and
its tokens, whatever bytes they consist of and whatever follows what was written, as long as the
lengths fit the four bytes that the format has for them. The names are those that were written, so
what is written for the second dump is the same text. An input has fewer than `2 ^ 63` bytes, since
its length is a 64-bit integer.

* `reads_encodeMessagePack`: the bytes are one value, whatever follows them.
* `message_pack_round_trip`: the round trip of every dump that a reader accepts.
-/

namespace TokenLint.Dump

open MessagePack

/-! ## Writing -/

/-- The bytes are read as a key and a value. -/
def ReadsField (bytes : Text) (e : MessagePack × MessagePack) : Prop :=
  ∃ keyBytes valueBytes, bytes = keyBytes ++ valueBytes ∧ Reads keyBytes e.1 ∧ Reads valueBytes e.2

theorem readsField {key value : Text} {v : MessagePack} (hKey : key.length < 2 ^ 32)
    (h : Reads value v) : ReadsField (packedField key value) (.text key, v) :=
  ⟨writeText key, value, rfl, reads_writeText hKey, h⟩

/-- The fields that are present are the entries of the map. -/
theorem reads_packedMap {fields : List (Option Text)}
    {entries : List (Option (MessagePack × MessagePack))}
    (h : List.Forall₂ (Option.Rel ReadsField) fields entries) (hCount : entries.length < 2 ^ 32) :
    Reads (packedMap fields) (.map (entries.filterMap id)) := by
  have hEntries : (fields.filterMap id).length = (entries.filterMap id).length ∧
      ReadsEntries (fields.filterMap id).flatten (entries.filterMap id) := by
    clear hCount
    induction h with
    | nil => exact ⟨rfl, readsEntries_nil⟩
    | cons hField _ ih =>
        obtain ⟨hLength, hRest⟩ := ih
        cases hField with
        | none => exact ⟨hLength, hRest⟩
        | some hField =>
            obtain ⟨keyBytes, valueBytes, rfl, hKey, hValue⟩ := hField
            exact ⟨congrArg (· + 1) hLength, ReadsEntries.cons hKey hValue hRest⟩
  have hPresent := List.length_filterMap_le id entries
  rw [packedMap, hEntries.1]
  exact reads_map (by omega) hEntries.2

/-- The value that is written for a record. -/
def recordValue (r : Record) : MessagePack :=
  .map (List.filterMap id
    [some (.text "kind", .text r.kind), some (.text "content", .text r.content),
     if r.line = 0 then none else some (.text "line", .int r.line.toInt),
     if r.column = 0 then none else some (.text "column", .int r.column.toInt)])

theorem rel_of_present {p : Prop} [Decidable p] {bytes : Text} {e : MessagePack × MessagePack}
    (h : ReadsField bytes e) :
    Option.Rel ReadsField (if p then none else some bytes) (if p then none else some e) := by
  split
  · exact .none
  · exact .some h

theorem reads_position (x : Int64) : Reads (writeInt x.toInt) (.int x.toInt) := by
  have hLow := Int64.le_toInt x
  have hHigh := Int64.toInt_lt x
  exact reads_writeInt hLow (by omega)

theorem reads_packRecord {r : Record} (hKind : r.kind.length < 2 ^ 32)
    (hContent : r.content.length < 2 ^ 32) : Reads (packRecord r) (recordValue r) := by
  apply reads_packedMap
  · refine .cons (.some ?_) (.cons (.some ?_) (.cons (rel_of_present ?_)
      (.cons (rel_of_present ?_) .nil)))
    · exact readsField (by decide) (reads_writeText hKind)
    · exact readsField (by decide) (reads_writeText hContent)
    · exact readsField (by decide) (reads_position r.line)
    · exact readsField (by decide) (reads_position r.column)
  · exact (by decide : 4 < 2 ^ 32)

/-- The value that is written for a dump. -/
def packedValue (d : Dump) : MessagePack :=
  .map (List.filterMap id
    [if d.path = [] then none else some (.text "path", .text d.path),
     some (.text "tokens", .array (d.records.map recordValue))])

theorem reads_encodeMessagePack {d : Dump} (hCount : d.records.length < 2 ^ 32)
    (hPath : d.path.length < 2 ^ 32)
    (hRecords : ∀ r ∈ d.records, r.kind.length < 2 ^ 32 ∧ r.content.length < 2 ^ 32) :
    Reads d.encodeMessagePack d.packedValue := by
  have hItems : ReadsItems (d.records.flatMap packRecord) (d.records.map recordValue) :=
    readsItems_flatMap fun r hr => reads_packRecord (hRecords r hr).1 (hRecords r hr).2
  have hArray := reads_array (by rwa [List.length_map]) hItems
  rw [List.length_map] at hArray
  apply reads_packedMap
  · refine .cons (rel_of_present ?_) (.cons (.some ?_) .nil)
    · exact readsField (by decide) (reads_writeText hPath)
    · exact readsField (by decide) hArray
  · exact (by decide : 2 < 2 ^ 32)

/-! ## Reading -/

theorem readPackedInt_toInt (x : Int64) : readPackedInt (.int x.toInt) = some x := by
  show some (Int64.ofInt x.toInt) = some x
  rw [Int64.ofInt_toInt]

theorem readRecordEntry_position (r : Record) (f : Record.PositionField) (x : Int64) :
    readRecordEntry r (.text f.name, .int x.toInt) = some (f.store r x) := by
  have hRead : readRecordEntry r (.text f.name, .int x.toInt) =
      (readPackedInt (.int x.toInt)).map fun n => f.store r n := by
    cases f with
    | line => rfl
    | column => rfl
  rw [hRead, readPackedInt_toInt]
  rfl

theorem readPackedRecord_recordValue (r : Record) : readPackedRecord {} (recordValue r) = some r := by
  obtain ⟨kind, content, line, column⟩ := r
  have hKind : readRecordEntry {} (.text "kind", .text kind) = some ⟨kind, [], 0, 0⟩ := rfl
  have hContent : readRecordEntry ⟨kind, [], 0, 0⟩ (.text "content", .text content) =
      some ⟨kind, content, 0, 0⟩ := rfl
  refine (foldlM_field hKind _).trans ?_
  refine (foldlM_field hContent _).trans ?_
  refine (foldlM_unless (readRecordEntry_position _ .line line) (by rintro rfl; rfl) _).trans ?_
  exact foldlM_unless (readRecordEntry_position _ .column column) (by rintro rfl; rfl) []

/-- What is written for a dump describes its path and its records. -/
theorem readPackedDump_packedValue (d : Dump) :
    ∃ draft, readPackedDump d.packedValue = some draft ∧ draft.path = d.path ∧
      draft.tokens.items = d.records := by
  have hRead : Overlay.readOver {} readPackedRecord [] (d.records.map recordValue) =
      some d.records := Overlay.readOver_map fun r _ => readPackedRecord_recordValue r
  have hPath : readDumpEntry {} (.text "path", .text d.path) = some ⟨d.path, {}⟩ := rfl
  have hTokens : readDumpEntry ⟨d.path, {}⟩ (.text "tokens", .array (d.records.map recordValue)) =
      some ⟨d.path, ⟨d.records, d.records.length⟩⟩ := by
    show ((Overlay.readOver {} readPackedRecord [] (d.records.map recordValue)).map _).map _ = _
    rw [hRead, Option.map_some, Option.map_some, List.length_map]
  refine ⟨⟨d.path, ⟨d.records, d.records.length⟩⟩, ?_, rfl, List.take_length⟩
  refine (foldlM_unless hPath (fun hEmpty => by rw [hEmpty]) _).trans ?_
  exact foldlM_field hTokens []

theorem decodeMessagePack_append {d : Dump} (hCount : d.records.length < 2 ^ 32)
    (hPath : d.path.length < 2 ^ 32)
    (hRecords : ∀ r ∈ d.records, r.kind.length < 2 ^ 32 ∧ r.content.length < 2 ^ 32) (rest : Text) :
    decodeMessagePack (d.encodeMessagePack ++ rest) = ofRecords d.path d.records := by
  have hParse := parse_append (reads_encodeMessagePack hCount hPath hRecords) rest
  obtain ⟨draft, hRead, hDraftPath, hItems⟩ := readPackedDump_packedValue d
  rw [decodeMessagePack, hParse, Option.bind_some, hRead]
  show ofRecords draft.path draft.tokens.items = _
  rw [hDraftPath, hItems]

theorem length_of_mem_records {d : Dump} (h : d.Sound)
    (hContents : ∀ t ∈ d.tokens, t.content.length < 2 ^ 32) :
    ∀ r ∈ d.records, r.kind.length < 2 ^ 32 ∧ r.content.length < 2 ^ 32 := by
  intro r hr
  obtain ⟨-, hShort, t, ht, hContent⟩ := name_of_mem_records (fun t ht => (h.named t ht).labelled) hr
  exact ⟨by omega, hContent ▸ hContents t ht⟩

/-- A dump that was read, in either format, is written as MessagePack and read back with the same
path and the same tokens, whose names are those that were written, whatever follows it. Writing it
again gives the same bytes. -/
theorem message_pack_round_trip {format : DumpFormat} {t : Text} {d : Dump}
    (h : decode format t = .ok d) (hLength : t.length < 2 ^ 63) (hCount : d.tokens.length < 2 ^ 32)
    (hPath : d.path.length < 2 ^ 32) (hContents : ∀ x ∈ d.tokens, x.content.length < 2 ^ 32) :
    ∃ out, encode .messagePack d = .ok out ∧
      (∀ rest, decode .messagePack (out ++ rest) = .ok d.written) ∧
      encode .messagePack d.written = .ok out := by
  have hSound := sound_of_decode h hLength
  have hRecordCount : d.records.length < 2 ^ 32 := by rwa [records, List.length_map]
  refine ⟨d.encodeMessagePack, rfl, ?_, ?_⟩
  · intro rest
    show decodeMessagePack (d.encodeMessagePack ++ rest) = _
    rw [decodeMessagePack_append hRecordCount hPath (length_of_mem_records hSound hContents),
      ofRecords_records hSound]
  · show Except.ok d.written.encodeMessagePack = _
    rw [encodeMessagePack, records_written]
    rfl

/-- A dump with one token, written as arrays of fields; its content is no valid text. -/
def strayToken : Text :=
  [0x92, 0xA0, 0x91, 0x94, 0xA8] ++ Text.ofString "T_STRING" ++ [0xA2, 0xFF, 0x0A, 0x03, 0x00]

/-- The dump that is read from it. -/
def strayTokenDump : Dump := ⟨[], [⟨.identifier, "T_STRING", [0xFF, 0x0A], 3, 1⟩]⟩

theorem message_pack_round_trip_strayToken :
    decode .messagePack strayToken = .ok strayTokenDump ∧
      ∃ out, encode .messagePack strayTokenDump = .ok out ∧
        (∀ rest, decode .messagePack (out ++ rest) = .ok strayTokenDump.written) ∧
        encode .messagePack strayTokenDump.written = .ok out := by
  have hDecode : decode .messagePack strayToken = .ok strayTokenDump := by decide +kernel
  have hLength : strayToken.length < 2 ^ 63 := by decide
  have hContents : ∀ x ∈ strayTokenDump.tokens, x.content.length < 2 ^ 32 := by decide
  exact ⟨hDecode, message_pack_round_trip hDecode hLength (by decide) (by decide) hContents⟩

end TokenLint.Dump
