import TokenLint.Proofs.Dump.Size
import TokenLint.Proofs.Json.Document

/-!
# Dumps written as JSON

A dump that was read, from either format, is written as JSON and read back with its path and its
tokens, as far as the texts are valid. The names are those that were written: a token without a
name of its own has the name of its kind afterwards, and a bare character has none. So what is
written for the second dump is the same text.

The length of an input is a 64-bit integer, so an input has fewer than `2 ^ 63` bytes. This is what
keeps the counters of lines and columns from coming back to zero, which would be written as an
unknown position.

* `decodeJson_encodeJson`: what is written describes the path and the records of the dump.
* `json_round_trip`: the round trip of every dump that a reader accepts.
-/

namespace TokenLint.Dump

/-! ## Printing -/

theorem printable_ofMembers {n : Nat} {members : List (Option (Text × Json))}
    (h : ∀ m, some m ∈ members → Text.isUtf8 m.1 = true ∧ Json.Printable n m.2) :
    Json.Printable (n + 1) (Json.ofMembers members) := by
  have hMember : ∀ m ∈ members.filterMap id, some m ∈ members := by
    intro m hm
    obtain ⟨o, ho, hSome⟩ := List.mem_filterMap.mp hm
    cases o with
    | none => cases hSome
    | some m' =>
        cases hSome
        exact ho
  exact .object (fun m hm => (h m (hMember m hm)).1) fun m hm => (h m (hMember m hm)).2

theorem memberIf_ne {α : Type} [DecidableEq α] (x y : α) (key : Text) (v : Json) :
    Json.memberIf (x ≠ y) key v = if x = y then none else Json.member key v := by
  by_cases h : x = y
  · rw [if_pos h, Json.memberIf, if_neg (by simpa using h)]
  · rw [if_neg h, Json.memberIf, if_pos (by simpa using h)]
    rfl

theorem isUtf8_key {key : Text} (h : key.all (fun b => b < 0x80) = true) :
    Text.isUtf8 key = true :=
  Text.isUtf8_of_ascii fun b hb => of_decide_eq_true (List.all_eq_true.mp h b hb)

/-- A member that may be left out. -/
theorem printable_unless {p : Prop} [Decidable p] {n : Nat} {key : Text} {v : Json}
    {m : Text × Json} (hm : some m = if p then none else Json.member key v)
    (hKey : Text.isUtf8 key = true) (h : Json.Printable n v) :
    Text.isUtf8 m.1 = true ∧ Json.Printable n m.2 := by
  split at hm
  · cases hm
  · cases hm
    exact ⟨hKey, h⟩

theorem printable_recordJson {r : Record} (hKind : Text.isUtf8 r.kind = true)
    (hContent : Text.isUtf8 r.content = true) (n : Nat) : Json.Printable (n + 1) (recordJson r) := by
  apply printable_ofMembers
  intro m hm
  simp only [memberIf_ne, List.mem_cons, List.not_mem_nil, or_false] at hm
  rcases hm with hm | hm | hm | hm
  · cases hm
    exact ⟨isUtf8_key rfl, .string hKind⟩
  · cases hm
    exact ⟨isUtf8_key rfl, .string hContent⟩
  · exact printable_unless hm (isUtf8_key rfl) (.int _)
  · exact printable_unless hm (isUtf8_key rfl) (.int _)

/-- What is printed for a dump is read as an object with the same records. Stray bytes of the path
are replaced. -/
theorem parse_json {d : Dump}
    (hRecords : ∀ r ∈ d.records, Text.isUtf8 r.kind = true ∧ Text.isUtf8 r.content = true) :
    Json.parse (Json.indented Json.plain 0 d.json) = some (.object (List.filterMap id
      [if d.path = [] then none else some ("path", .string (Text.toValid d.path)),
       some ("tokens", .array (d.records.map recordJson))])) := by
  -- a dump takes three of the levels that may be nested
  have hTokens : Json.ReadsMember 9999 1 ("tokens", .array (d.records.map recordJson))
      ("tokens", .array (d.records.map recordJson)) := by
    refine ⟨rfl, isUtf8_key rfl, Json.reads_indented (.array fun v hv => ?_) 1⟩
    obtain ⟨r, hr, rfl⟩ := List.mem_map.mp hv
    exact printable_recordJson (hRecords r hr).1 (hRecords r hr).2 9997
  have hPath : Json.ReadsMember 9999 1 ("path", .string d.path)
      ("path", .string (Text.toValid d.path)) :=
    ⟨rfl, isUtf8_key rfl, Json.reads_string d.path⟩
  apply Json.parse_of_reads
  apply Json.reads_object
  rw [memberIf_ne]
  split
  · exact .cons hTokens .nil
  · exact .cons hPath (.cons hTokens .nil)

/-! ## Reading -/

theorem readRecordMember_kind (r : Record) (v : Text) :
    readRecordMember r ("kind", .string v) = some { r with kind := v } := by
  have hKind : Text.keyMatches "kind" "kind" = true := by decide +kernel
  rw [readRecordMember, if_pos hKind]
  rfl

theorem readRecordMember_content (r : Record) (v : Text) :
    readRecordMember r ("content", .string v) = some { r with content := v } := by
  have hKind : ¬ Text.keyMatches "kind" "content" = true := by decide +kernel
  have hContent : Text.keyMatches "content" "content" = true := by decide +kernel
  rw [readRecordMember, if_neg hKind, if_pos hContent]
  rfl

theorem readRecordMember_position (r : Record) (f : Record.PositionField) (x : Int64) :
    readRecordMember r (f.name, Json.ofInt x.toInt) = some (f.store r x) := by
  have hRead : ∀ literal : Text, readRecordMember r (f.name, .number literal) =
      (Json.int64? literal).map fun n => f.store r n := by
    intro literal
    cases f with
    | line => with_unfolding_all rfl
    | column => with_unfolding_all rfl
  rw [Json.ofInt, hRead, Json.int64?_ofInt]
  rfl

theorem readJsonRecord_recordJson (r : Record) : readJsonRecord {} (recordJson r) = some r := by
  obtain ⟨kind, content, line, column⟩ := r
  rw [recordJson, memberIf_ne, memberIf_ne]
  refine (foldlM_field (readRecordMember_kind {} kind) _).trans ?_
  refine (foldlM_field (readRecordMember_content _ content) _).trans ?_
  refine (foldlM_unless (readRecordMember_position _ .line line) (by rintro rfl; rfl) _).trans ?_
  exact foldlM_unless (readRecordMember_position _ .column column) (by rintro rfl; rfl) []

theorem readJsonRecords_of_forall₂ {vs : List Json} {rs : List Record}
    (h : List.Forall₂ (fun v r => readJsonRecord {} v = some r) vs rs) :
    ∃ o, readJsonRecords {} (.array vs) = some o ∧ o.items = rs := by
  cases h with
  | nil => exact ⟨{}, rfl, rfl⟩
  | @cons v r vs rs hFirst hRest =>
      refine ⟨⟨r :: rs, (v :: vs).length⟩, ?_, ?_⟩
      · show (Overlay.readOver {} readJsonRecord [] (v :: vs)).map _ = _
        rw [Overlay.readOver_of_forall₂ (.cons hFirst hRest)]
        rfl
      · rw [Overlay.items, List.length_cons, hRest.length_eq, ← List.length_cons]
        exact List.take_length

theorem readJsonRecords_map (rs : List Record) :
    ∃ o, readJsonRecords {} (.array (rs.map recordJson)) = some o ∧ o.items = rs :=
  readJsonRecords_of_forall₂ (List.forall₂_map_left_iff.mpr
    (List.forall₂_same.mpr fun r _ => readJsonRecord_recordJson r))

theorem readDumpMember_path (draft : DumpDraft) (v : Text) :
    readDumpMember draft ("path", .string v) = some { draft with path := v } := by
  have hPath : Text.keyMatches "path" "path" = true := by decide +kernel
  rw [readDumpMember, if_pos hPath]
  rfl

theorem readDumpMember_tokens {draft : DumpDraft} {v : Json} {o : Overlay Record}
    (h : readJsonRecords draft.tokens v = some o) :
    readDumpMember draft ("tokens", v) = some { draft with tokens := o } := by
  have hPath : ¬ Text.keyMatches "path" "tokens" = true := by decide +kernel
  have hTokens : Text.keyMatches "tokens" "tokens" = true := by decide +kernel
  rw [readDumpMember, if_neg hPath, if_pos hTokens, h]
  rfl

/-- What is read for a dump describes a path and its records. -/
theorem readDumpObject_members (d : Dump) :
    ∃ draft, readDumpObject (.object (List.filterMap id
        [if d.path = [] then none else some ("path", .string (Text.toValid d.path)),
         some ("tokens", .array (d.records.map recordJson))])) = some draft ∧
      draft.path = Text.toValid d.path ∧ draft.tokens.items = d.records := by
  obtain ⟨o, hRead, hItems⟩ := readJsonRecords_map d.records
  refine ⟨⟨Text.toValid d.path, o⟩, ?_, rfl, hItems⟩
  have hTokens : readDumpMember ⟨Text.toValid d.path, {}⟩
      ("tokens", .array (d.records.map recordJson)) = some ⟨Text.toValid d.path, o⟩ :=
    readDumpMember_tokens hRead
  have hAbsent : d.path = [] → ({} : DumpDraft) = { path := Text.toValid d.path } := by
    intro hEmpty
    rw [hEmpty, Text.toValid_nil]
  refine (foldlM_unless (readDumpMember_path {} (Text.toValid d.path)) hAbsent _).trans ?_
  exact foldlM_field hTokens []

theorem exists_block_eq (level : Nat) (a b : UInt8) (parts : List Text) :
    ∃ t, Json.block level a b parts = a :: t ++ [b] := by
  rw [Json.block]
  split
  · exact ⟨[], rfl⟩
  · exact ⟨_, rfl⟩

/-- The text of an array ends with a bracket and a line break. -/
theorem trimBlank_document_array (items : List Json) :
    Text.trimBlank (Json.document Json.plain (.array items)) =
      Json.indented Json.plain 0 (.array items) := by
  obtain ⟨t, ht⟩ := exists_block_eq 0 91 93 (Json.indentedItems Json.plain 1 items)
  rw [Json.document, Json.indented, ht, List.append_assoc]
  exact Text.trimBlank_line (by decide) (by decide) t

/-- The text of an object ends with a brace and a line break. -/
theorem trimBlank_document_object (members : List (Text × Json)) :
    Text.trimBlank (Json.document Json.plain (.object members)) =
      Json.indented Json.plain 0 (.object members) := by
  obtain ⟨t, ht⟩ := exists_block_eq 0 123 125 (Json.indentedMembers Json.plain 1 members)
  rw [Json.document, Json.indented, ht, List.append_assoc]
  exact Text.trimBlank_line (by decide) (by decide) t

/-- What is written is read with the same records, and with the path as far as it is valid. -/
theorem decodeJson_encodeJson_toValid {d : Dump}
    (hRecords : ∀ r ∈ d.records, Text.isUtf8 r.kind = true ∧ Text.isUtf8 r.content = true) :
    decodeJson d.encodeJson = ofRecords (Text.toValid d.path) d.records := by
  have hNe : (Json.indented Json.plain 0 d.json).isEmpty = false := by
    rw [json, Json.ofMembers, Json.indented, Json.block]
    split <;> rfl
  obtain ⟨draft, hRead, hDraftPath, hItems⟩ := readDumpObject_members d
  have hTrim : Text.trimBlank d.encodeJson = Json.indented Json.plain 0 d.json :=
    trimBlank_document_object _
  rw [decodeJson, hTrim, hNe, if_neg Bool.false_ne_true, parse_json hRecords]
  dsimp only
  rw [ofJson, hRead]
  · show ofRecords draft.path draft.tokens.items = _
    rw [hDraftPath, hItems]
  · intro items hArray
    cases hArray

theorem decodeJson_encodeJson {d : Dump} (hPath : Text.isUtf8 d.path = true)
    (hRecords : ∀ r ∈ d.records, Text.isUtf8 r.kind = true ∧ Text.isUtf8 r.content = true) :
    decodeJson d.encodeJson = ofRecords d.path d.records := by
  rw [decodeJson_encodeJson_toValid hRecords, Text.toValid_of_isUtf8 hPath]

theorem isUtf8_of_mem_records {d : Dump} (h : d.Sound)
    (hContents : ∀ t ∈ d.tokens, Text.isUtf8 t.content = true) :
    ∀ r ∈ d.records, Text.isUtf8 r.kind = true ∧ Text.isUtf8 r.content = true := by
  intro r hr
  obtain ⟨hKind, -, t, ht, hContent⟩ := name_of_mem_records (fun t ht => (h.named t ht).labelled) hr
  exact ⟨hKind, hContent ▸ hContents t ht⟩

/-- A dump that was read, in either format, is written as JSON and read back with the same path and
the same tokens, whose names are those that were written. Writing it again gives the same text. -/
theorem json_round_trip {format : DumpFormat} {t : Text} {d : Dump} (h : decode format t = .ok d)
    (hLength : t.length < 2 ^ 63) (hPath : Text.isUtf8 d.path = true)
    (hContents : ∀ x ∈ d.tokens, Text.isUtf8 x.content = true) :
    ∃ out, encode .json d = .ok out ∧ decode .json out = .ok d.written ∧
      encode .json d.written = .ok out := by
  have hSound := sound_of_decode h hLength
  refine ⟨d.encodeJson, rfl, ?_, ?_⟩
  · show decodeJson d.encodeJson = _
    rw [decodeJson_encodeJson hPath (isUtf8_of_mem_records hSound hContents),
      ofRecords_records hSound]
  · have hSame : d.written.json = d.json := by
      rw [json, records_written]
      rfl
    show Except.ok (Json.document Json.plain d.written.json) = _
    rw [hSame]
    rfl

/-- A token array as the tokenizer gives it: a name with a line, and a bare character. -/
def tokenArray : Text := "[[\"T_STRING\", \"f\\n\", 3], \";\"]"

/-- The dump that is read from it. -/
def tokenArrayDump : Dump :=
  ⟨[], [⟨.identifier, "T_STRING", "f\n", 3, 1⟩, ⟨.semicolon, [], ";", 4, 1⟩]⟩

theorem json_round_trip_tokenArray :
    decode .json tokenArray = .ok tokenArrayDump ∧
      ∃ out, encode .json tokenArrayDump = .ok out ∧
        decode .json out = .ok tokenArrayDump.written ∧
        encode .json tokenArrayDump.written = .ok out := by
  have hDecode : decode .json tokenArray = .ok tokenArrayDump := by decide +kernel
  have hLength : tokenArray.length < 2 ^ 63 := by decide
  have hPath : Text.isUtf8 tokenArrayDump.path = true := by decide +kernel
  have hContents : ∀ x ∈ tokenArrayDump.tokens, Text.isUtf8 x.content = true := by
    rw [← List.all_eq_true]
    decide +kernel
  exact ⟨hDecode, json_round_trip hDecode hLength hPath hContents⟩

end TokenLint.Dump
