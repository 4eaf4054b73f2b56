import TokenLint.Dump
import TokenLint.MessagePack

/-!
# Dumps in MessagePack

A dump is a map with the path and the records, a record a map with its fields. A reader
also takes arrays with the fields in order, which then must be complete. Names of fields
are exact; unknown ones are skipped. The absent value empties a field, and empties a record
or the dump if it stands in its place.
-/

namespace TokenLint.Dump

/-- Reads a 64-bit integer field; larger numbers wrap around. -/
def readPackedInt (v : MessagePack) : Option Int64 := v.int?.map Int64.ofInt

/-- Reads one entry of a record. -/
def readRecordEntry (r : Record) (e : MessagePack × MessagePack) : Option Record :=
  e.1.text?.bind fun key =>
    if key = "kind" then e.2.text?.map fun v => { r with kind := v }
    else if key = "content" then e.2.text?.map fun v => { r with content := v }
    else if key = "line" then (readPackedInt e.2).map fun v => { r with line := v }
    else if key = "column" then (readPackedInt e.2).map fun v => { r with column := v }
    else some r

/-- Reads a record over an earlier one. -/
def readPackedRecord (r : Record) : MessagePack → Option Record
  | .map entries => entries.foldlM readRecordEntry r
  | .array [] | .nil => some {}
  | .array [kind, content, line, column] => do
    return { kind := ← kind.text?, content := ← content.text?
             line := ← readPackedInt line, column := ← readPackedInt column }
  | _ => none

/-- Reads the list of records. The absent value forgets earlier ones. -/
def readPackedRecords (o : Overlay Record) : MessagePack → Option (Overlay Record)
  | .array items => o.reread {} readPackedRecord items
  | .nil => some {}
  | _ => none

/-- Reads one entry of a dump. -/
def readDumpEntry (d : DumpDraft) (e : MessagePack × MessagePack) : Option DumpDraft :=
  e.1.text?.bind fun key =>
    if key = "path" then e.2.text?.map fun v => { d with path := v }
    else if key = "tokens" then
      (readPackedRecords d.tokens e.2).map fun v => { d with tokens := v }
    else some d

/-- Reads a dump. -/
def readPackedDump : MessagePack → Option DumpDraft
  | .map entries => entries.foldlM readDumpEntry {}
  | .array [] | .nil => some {}
  | .array [path, tokens] => do
    return { path := ← path.text?, tokens := ← readPackedRecords {} tokens }
  | _ => none

/-- Reads a dump from the start of a text; what follows it is ignored. -/
def decodeMessagePack (t : Text) : Except DumpError Dump :=
  match (MessagePack.parse t).bind readPackedDump with
  | none => .error .malformedMessagePack
  | some draft => draft.finish

/-- A named field. -/
def packedField (name value : Text) : Text := MessagePack.writeText name ++ value

/-- A map of the fields that are present. -/
def packedMap (fields : List (Option Text)) : Text :=
  let present := fields.filterMap id
  MessagePack.writeHeader .map present.length ++ present.flatten

/-- A record; unknown positions are left out. -/
def packRecord (r : Record) : Text :=
  packedMap
    [some (packedField "kind" (MessagePack.writeText r.kind)),
     some (packedField "content" (MessagePack.writeText r.content)),
     if r.line = 0 then none else some (packedField "line" (MessagePack.writeInt r.line.toInt)),
     if r.column = 0 then none
     else some (packedField "column" (MessagePack.writeInt r.column.toInt))]

/-- Writes a dump; an unknown path is left out. -/
def encodeMessagePack (d : Dump) : Text :=
  packedMap
    [if d.path = [] then none else some (packedField "path" (MessagePack.writeText d.path)),
     some (packedField "tokens"
       (MessagePack.writeHeader .array d.records.length ++ d.records.flatMap packRecord))]

end TokenLint.Dump
