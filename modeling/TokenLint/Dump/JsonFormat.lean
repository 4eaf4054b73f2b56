import TokenLint.Dump
import TokenLint.Json.Reader

/-!
# Dumps in JSON

A dump is written as an object with the path and the records. It is read from such an
object, or from the array that the tokenizer itself returns: each item is the text of a
single character, or a list of kind, content and line.

A field may be given several times; then the later one is read over the earlier one. The
absent value leaves a field as it was.
-/

namespace TokenLint.Dump

/-- Reads a text field. -/
def readJsonText (old : Text) : Json → Option Text
  | .string t => some t
  | .null => some old
  | _ => none

/-- Reads an integer field. -/
def readJsonInt (old : Int64) : Json → Option Int64
  | .number literal => Json.int64? literal
  | .null => some old
  | _ => none

/-- Reads one member of a record. Unknown members are skipped. -/
def readRecordMember (r : Record) (m : Text × Json) : Option Record :=
  if Text.keyMatches "kind" m.1 then
    (readJsonText r.kind m.2).map fun v => { r with kind := v }
  else if Text.keyMatches "content" m.1 then
    (readJsonText r.content m.2).map fun v => { r with content := v }
  else if Text.keyMatches "line" m.1 then
    (readJsonInt r.line m.2).map fun v => { r with line := v }
  else if Text.keyMatches "column" m.1 then
    (readJsonInt r.column m.2).map fun v => { r with column := v }
  else some r

/-- Reads a record over an earlier one. -/
def readJsonRecord (r : Record) : Json → Option Record
  | .object members => members.foldlM readRecordMember r
  | .null => some r
  | _ => none

/-- Reads the list of records. An empty list and the absent value forget earlier ones. -/
def readJsonRecords (o : Overlay Record) : Json → Option (Overlay Record)
  | .array [] => some {}
  | .array items => o.reread {} readJsonRecord items
  | .null => some {}
  | _ => none

/-- Reads one member of a dump. Unknown members are skipped. -/
def readDumpMember (d : DumpDraft) (m : Text × Json) : Option DumpDraft :=
  if Text.keyMatches "path" m.1 then
    (readJsonText d.path m.2).map fun v => { d with path := v }
  else if Text.keyMatches "tokens" m.1 then
    (readJsonRecords d.tokens m.2).map fun v => { d with tokens := v }
  else some d

/-- Reads a dump that is an object. The absent value is the empty dump. -/
def readDumpObject : Json → Option DumpDraft
  | .object members => members.foldlM readDumpMember {}
  | .null => some {}
  | _ => none

/-- Reads one item of a token array. -/
def readItem (index : Nat) (v : Json) : Except DumpError Record :=
  match v with
  | .string t => .ok { content := t }
  | .null => .error (.shortItem index)
  | .array (kind :: content :: more) =>
    match readJsonText [] kind with
    | none => .error (.malformedItem index .kind)
    | some kind =>
      match readJsonText [] content with
      | none => .error (.malformedItem index .content)
      | some content =>
        match more with
        | [] => .ok { kind := kind, content := content }
        | line :: _ =>
          match readJsonInt 0 line with
          | none => .error (.malformedItem index .line)
          | some line => .ok { kind := kind, content := content, line := line }
  | .array _ => .error (.shortItem index)
  | _ => .error (.malformedItem index .whole)

/-- Reads the items of a token array, numbered from `index` on. -/
def readItems (index : Nat) : List Json → Except DumpError (List Record)
  | [] => .ok []
  | v :: rest =>
    match readItem index v with
    | .error e => .error e
    | .ok r =>
      match readItems (index + 1) rest with
      | .error e => .error e
      | .ok rs => .ok (r :: rs)

/-- The dump that a JSON value describes. -/
def ofJson : Json → Except DumpError Dump
  | .array items =>
    match readItems 0 items with
    | .error e => .error e
    | .ok records => ofRecords [] records
  | v =>
    match readDumpObject v with
    | none => .error .malformedJson
    | some draft => draft.finish

/-- Reads a dump from JSON text. White space around the text is cut, all of Unicode's; what
is left must be JSON. -/
def decodeJson (t : Text) : Except DumpError Dump :=
  let t := Text.trimBlank t
  if t.isEmpty then .error .emptyInput
  else match Json.parse t with
    | none => .error .malformedJson
    | some v => ofJson v

/-- The JSON of a record; unknown positions are left out. -/
def recordJson (r : Record) : Json :=
  Json.ofMembers
    [Json.member "kind" (.string r.kind), Json.member "content" (.string r.content),
     Json.memberIf (r.line ≠ 0) "line" (Json.ofInt r.line.toInt),
     Json.memberIf (r.column ≠ 0) "column" (Json.ofInt r.column.toInt)]

/-- The JSON of a dump; an unknown path is left out. -/
def json (d : Dump) : Json :=
  Json.ofMembers
    [Json.memberIf (d.path ≠ []) "path" (.string d.path),
     Json.member "tokens" (.array (d.records.map recordJson))]

/-- Writes a dump as JSON text. -/
def encodeJson (d : Dump) : Text := Json.document Json.plain d.json

end TokenLint.Dump
