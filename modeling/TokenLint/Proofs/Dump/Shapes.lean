import Mathlib.Data.List.Nodup
import TokenLint.Proofs.Dump.JsonRoundTrip

/-!
# The two shapes of a dump in JSON

The tokenizer returns an array whose items are texts and lists. A dump is written as an object with
a list of records. The items of such an array and records with the same fields, in any order, are
read as the same records, so both shapes are the same dump or fail with the same error.

* `readItem_tuple`, `readJsonRecord_of_describes`: an item and an object that describes it are read
  as the same record.
* `ofJson_arrayShape`, `ofJson_objectShape`: what the two shapes are read as.
* `writes_arrayShape`, `writes_objectShape`: what is printed for texts with stray bytes.
* `shapes_agree`: texts of the two shapes are the same dump.
-/

namespace TokenLint.Dump

/-! ## Items and fields -/

/-- An item of a token list: a text alone, or a text of some kind, perhaps with its line. -/
inductive Item where
  | character (c : Text)
  | token (kind content : Text) (line : Option Int64)
  deriving DecidableEq

/-- A field of a record. -/
inductive Field where
  | kind (t : Text)
  | content (t : Text)
  | line (n : Int64)
  deriving DecidableEq

namespace Field

/-- The member that writes a field. -/
def member : Field → Text × Json
  | kind t => ("kind", .string t)
  | content t => ("content", .string t)
  | line n => ("line", Json.ofInt n.toInt)

def store (r : Record) : Field → Record
  | kind t => { r with kind := t }
  | content t => { r with content := t }
  | line n => { r with line := n }

/-- The field with the stray bytes of its text replaced. -/
def valid : Field → Field
  | kind t => kind (Text.toValid t)
  | content t => content (Text.toValid t)
  | line n => line n

theorem readRecordMember_member (r : Record) (f : Field) :
    readRecordMember r f.member = some (store r f) := by
  cases f with
  | kind t => exact readRecordMember_kind r t
  | content t => exact readRecordMember_content r t
  | line n => exact readRecordMember_position r .line n

theorem readJsonRecord_members (r : Record) (fs : List Field) :
    readJsonRecord r (.object (fs.map member)) = some (fs.foldl store r) := by
  show (fs.map member).foldlM readRecordMember r = _
  rw [List.foldlM_map]
  simp only [readRecordMember_member]
  exact List.foldlM_pure

theorem store_comm {x y : Field} (h : x.member.1 = y.member.1 → x = y) (r : Record) :
    store (store r x) y = store (store r y) x := by
  cases x <;> cases y <;> first | rfl | rw [h rfl]

/-- Fields with different names may be written in any order. -/
theorem foldl_store_perm {fs gs : List Field} (h : fs.Perm gs)
    (hDistinct : (gs.map fun f => f.member.1).Nodup) (r : Record) :
    fs.foldl store r = gs.foldl store r := by
  refine h.foldl_eq' (fun x hx y hy r => store_comm (fun hName => ?_) r) r
  exact List.inj_on_of_nodup_map hDistinct (h.mem_iff.mp hx) (h.mem_iff.mp hy) hName

end Field

namespace Item

/-- The item in the array of the tokenizer. -/
def tuple : Item → Json
  | character c => .string c
  | token kind content line =>
    .array (.string kind :: .string content :: (line.map fun n => Json.ofInt n.toInt).toList)

def fields : Item → List Field
  | character c => [.content c]
  | token kind content line => .kind kind :: .content content :: (line.map Field.line).toList

def record : Item → Record
  | character c => { content := c }
  | token kind content line => { kind := kind, content := content, line := line.getD 0 }

def valid : Item → Item
  | character c => character (Text.toValid c)
  | token kind content line => token (Text.toValid kind) (Text.toValid content) line

theorem nodup_fields (i : Item) : (i.fields.map fun f => f.member.1).Nodup := by
  cases i with
  | character c => exact List.nodup_singleton _
  | token kind content line =>
      cases line with
      | none => exact (by decide : (["kind", "content"] : List Text).Nodup)
      | some n => exact (by decide : (["kind", "content", "line"] : List Text).Nodup)

theorem foldl_store_fields (i : Item) : i.fields.foldl Field.store {} = i.record := by
  cases i with
  | character c => rfl
  | token kind content line => cases line <;> rfl

theorem fields_valid (i : Item) : i.valid.fields = i.fields.map Field.valid := by
  cases i with
  | character c => rfl
  | token kind content line => cases line <;> rfl

end Item

/-- The fields are those of the item, in any order. A text alone may have an empty kind. -/
inductive Describes : List Field → Item → Prop
  | fields {fs : List Field} {i : Item} (h : fs.Perm i.fields) : Describes fs i
  | emptyKind {fs : List Field} {c : Text} (h : fs.Perm [.kind [], .content c]) :
      Describes fs (.character c)

theorem Describes.foldl_store {fs : List Field} {i : Item} (h : Describes fs i) :
    fs.foldl Field.store {} = i.record := by
  cases h with
  | fields h => rw [Field.foldl_store_perm h i.nodup_fields, i.foldl_store_fields]
  | @emptyKind c h =>
      -- these are the fields of a token without a kind, which is read as the same record
      exact Field.foldl_store_perm h (Item.token [] c none).nodup_fields {}

theorem Describes.valid {fs : List Field} {i : Item} (h : Describes fs i) :
    Describes (fs.map Field.valid) i.valid := by
  cases h with
  | fields h => exact .fields (i.fields_valid ▸ h.map Field.valid)
  | @emptyKind c h =>
      have hValid := h.map Field.valid
      simp only [List.map_cons, List.map_nil, Field.valid, Text.toValid_nil] at hValid
      exact .emptyKind hValid

/-! ## What the shapes are read as -/

/-- The array of the tokenizer. -/
def arrayShape (items : List Item) : Json := .array (items.map Item.tuple)

/-- The object with a list of records, for the fields of each. -/
def objectShape (layouts : List (List Field)) : Json :=
  .object [("tokens", .array (layouts.map fun fs => .object (fs.map Field.member)))]

theorem readItem_tuple (index : Nat) (i : Item) : readItem index i.tuple = .ok i.record := by
  cases i with
  | character c => rfl
  | token kind content line =>
      cases line with
      | none => rfl
      | some n =>
          have hLine : readJsonInt 0 (Json.ofInt n.toInt) = some n := Json.int64?_ofInt n
          simp only [Item.tuple, Option.map_some, Option.toList_some, readItem, readJsonText, hLine]
          rfl

theorem readItems_tuple (index : Nat) (items : List Item) :
    readItems index (items.map Item.tuple) = .ok (items.map Item.record) := by
  induction items generalizing index with
  | nil => rfl
  | cons i items ih =>
      rw [List.map_cons, readItems, readItem_tuple, ih]
      rfl

theorem ofJson_arrayShape (items : List Item) :
    ofJson (arrayShape items) = ofRecords [] (items.map Item.record) := by
  rw [arrayShape, ofJson, readItems_tuple]

theorem readJsonRecord_of_describes {fs : List Field} {i : Item} (h : Describes fs i) :
    readJsonRecord {} (.object (fs.map Field.member)) = some i.record := by
  rw [Field.readJsonRecord_members, h.foldl_store]

section Shapes

variable {items : List Item} {layouts : List (List Field)}

theorem ofJson_objectShape (h : List.Forall₂ Describes layouts items) :
    ofJson (objectShape layouts) = ofRecords [] (items.map Item.record) := by
  have hRecords : List.Forall₂ (fun v r => readJsonRecord {} v = some r)
      (layouts.map fun fs => .object (fs.map Field.member)) (items.map Item.record) := by
    rw [List.forall₂_map_left_iff, List.forall₂_map_right_iff]
    exact h.imp fun fs i hDescribes => readJsonRecord_of_describes hDescribes
  obtain ⟨o, hRead, hItems⟩ := readJsonRecords_of_forall₂ hRecords
  have hObject : readDumpObject (objectShape layouts) = some ⟨[], o⟩ := by
    show (readDumpMember {} _).bind some = _
    rw [readDumpMember_tokens hRead]
    rfl
  rw [← hItems, objectShape, ofJson]
  · rw [← objectShape, hObject]
    rfl
  · intro items hArray
    cases hArray

/-! ## Texts of the shapes -/

/-- A text writes a value, perhaps with white space around it. -/
def Writes (t : Text) (v : Json) : Prop := Json.parse (Text.trimBlank t) = some v

theorem decode_of_writes {t : Text} {v : Json} (h : Writes t v) : decode .json t = ofJson v := by
  have hNe : (Text.trimBlank t).isEmpty = false := by
    rw [← Bool.not_eq_true, List.isEmpty_iff]
    intro hEmpty
    rw [Writes, hEmpty] at h
    cases h
  show decodeJson t = _
  rw [decodeJson, hNe, if_neg Bool.false_ne_true, h]

theorem reads_tuple (n level : Nat) (i : Item) :
    Json.Reads (n + 1) (Json.indented Json.plain level i.tuple) i.valid.tuple := by
  cases i with
  | character c => exact Json.reads_string c
  | token kind content line =>
      apply Json.reads_array
      refine .cons (Json.reads_string kind) (.cons (Json.reads_string content) ?_)
      cases line with
      | none => exact .nil
      | some m => exact .cons (Json.reads_ofInt m.toInt) .nil

theorem readsMember_member (n level : Nat) (f : Field) :
    Json.ReadsMember n level f.member f.valid.member := by
  cases f with
  | kind t => exact ⟨rfl, isUtf8_key rfl, Json.reads_string t⟩
  | content t => exact ⟨rfl, isUtf8_key rfl, Json.reads_string t⟩
  | line m => exact ⟨rfl, isUtf8_key rfl, Json.reads_ofInt m.toInt⟩

theorem writes_arrayShape (items : List Item) :
    Writes (Json.document Json.plain (arrayShape items)) (arrayShape (items.map Item.valid)) := by
  rw [Writes, arrayShape, trimBlank_document_array, arrayShape, List.map_map]
  apply Json.parse_of_reads
  -- a dump takes two of the levels that may be nested
  apply Json.reads_array (n := 9999)
  rw [Json.ReadsItems, List.forall₂_map_left_iff, List.forall₂_map_right_iff, List.forall₂_same]
  exact fun i _ => reads_tuple 9998 1 i

theorem writes_objectShape (layouts : List (List Field)) :
    Writes (Json.document Json.plain (objectShape layouts))
      (objectShape (layouts.map fun fs => fs.map Field.valid)) := by
  rw [Writes, objectShape, trimBlank_document_object, objectShape, List.map_map]
  apply Json.parse_of_reads
  -- a dump takes three of the levels that may be nested
  apply Json.reads_object (n := 9999)
  refine .cons ⟨rfl, isUtf8_key rfl, ?_⟩ .nil
  apply Json.reads_array (n := 9998)
  rw [Json.ReadsItems, List.forall₂_map_left_iff, List.forall₂_map_right_iff, List.forall₂_same]
  intro fs _
  apply Json.reads_object (n := 9997)
  show List.Forall₂ _ (fs.map Field.member) ((fs.map Field.valid).map Field.member)
  rw [List.map_map, List.forall₂_map_left_iff, List.forall₂_map_right_iff, List.forall₂_same]
  exact fun f _ => readsMember_member 9997 3 f

theorem path_of_ofRecords {path : Text} {rs : List Record} {d : Dump}
    (h : ofRecords path rs = .ok d) : d.path = path := by
  obtain ⟨s, -, rfl⟩ := ofRecords_eq_ok_iff.mp h
  rfl

/-- Two texts are the dump of the records, without a path, or fail with the same error. -/
structure SameDump (rs : List Record) (t t' : Text) : Prop where
  ofRecords_eq : decode .json t = ofRecords [] rs
  same : decode .json t = decode .json t'
  path_eq : ∀ d, decode .json t = .ok d → d.path = []

theorem sameDump_of_writes (h : List.Forall₂ Describes layouts items) {array object : Text}
    (hArray : Writes array (arrayShape items)) (hObject : Writes object (objectShape layouts)) :
    SameDump (items.map Item.record) array object := by
  have hRecords : decode .json array = ofRecords [] (items.map Item.record) := by
    rw [decode_of_writes hArray, ofJson_arrayShape]
  refine ⟨hRecords, ?_, fun d hd => path_of_ofRecords (hRecords ▸ hd)⟩
  rw [hRecords, decode_of_writes hObject, ofJson_objectShape h]

end Shapes

/-- Items in an array and records with the same fields in an object are read as the same dump, that
of the records of the items: in whatever way the two texts are written, and in particular as they
are printed, where the texts of the items may have stray bytes. -/
theorem shapes_agree {items : List Item} {layouts : List (List Field)}
    (h : List.Forall₂ Describes layouts items) :
    (∀ array object : Text, Writes array (arrayShape items) → Writes object (objectShape layouts) →
      SameDump (items.map Item.record) array object) ∧
    SameDump (items.map fun i => i.valid.record) (Json.document Json.plain (arrayShape items))
      (Json.document Json.plain (objectShape layouts)) := by
  refine ⟨fun array object => sameDump_of_writes h, ?_⟩
  rw [← Function.comp_def Item.record, ← List.map_map]
  refine sameDump_of_writes ?_ (writes_arrayShape items) (writes_objectShape layouts)
  rw [List.forall₂_map_left_iff, List.forall₂_map_right_iff]
  exact h.imp fun fs i hDescribes => hDescribes.valid

/-- The token array in the other shape. The fields come in another order, and the bare character has
an empty kind. -/
def tokenObject : Text :=
  "\x7b\"tokens\": [\x7b\"line\": 3, \"content\": \"f\\n\", \"kind\": \"T_STRING\"\x7d,\n" ++
    " \x7b\"kind\": \"\", \"content\": \";\"\x7d]\x7d"

theorem shapes_agree_tokenArray :
    decode .json tokenObject = .ok tokenArrayDump ∧
      SameDump [{ kind := Text.toValid [0xFF], content := Text.toValid "c" }]
        (Json.document Json.plain (arrayShape [.token [0xFF] "c" none]))
        (Json.document Json.plain (objectShape [[.content "c", .kind [0xFF]]])) := by
  have hArray : Writes tokenArray
      (arrayShape [.token "T_STRING" "f\n" (some 3), .character ";"]) := by
    rw [Writes]
    with_unfolding_all rfl
  have hObject : Writes tokenObject (objectShape
      [[.line 3, .content "f\n", .kind "T_STRING"], [.kind [], .content ";"]]) := by
    rw [Writes]
    with_unfolding_all rfl
  have hDump : decode .json tokenArray = .ok tokenArrayDump := by with_unfolding_all rfl
  have hSame := (shapes_agree (.cons (.fields (by decide))
    (.cons (.emptyKind (.refl _)) .nil))).1 _ _ hArray hObject
  have hSwapped : Describes [.content "c", .kind [0xFF]] (.token [0xFF] "c" none) :=
    .fields (.swap _ _ _)
  exact ⟨hSame.same ▸ hDump, (shapes_agree (.cons hSwapped .nil)).2⟩

end TokenLint.Dump
