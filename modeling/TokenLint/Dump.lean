import TokenLint.Token.Stream
import TokenLint.Text.Quoted

/-!
# Token dumps

A dump is the token stream of one file together with the path of that file. On disk it is a
list of records in one of two formats. This module says what a record means: which kind a
token has, and how lines and columns that were not recorded are computed from the contents.

Main definitions:

* `Record.token`: the token a record describes, or why it describes none;
* `fillPositions`: completing lines and columns;
* `Dump.records`: the records that are written for a dump.
-/

namespace TokenLint

/-- One token as it is written in a dump. -/
structure Record where
  kind : Text := []
  content : Text := []
  line : Int64 := 0
  column : Int64 := 0
  deriving DecidableEq, Inhabited

/-- The tokens of a file, and the path of the file they were taken from if it is known. -/
structure Dump where
  path : Text := []
  tokens : Stream := []
  deriving DecidableEq, Inhabited

/-- The formats of a dump. -/
inductive DumpFormat where
  | unknown | json | messagePack
  deriving DecidableEq, Inhabited

namespace DumpFormat

/-- The name of a format. -/
def name : DumpFormat → Text
  | .unknown => "unknown"
  | .json => "json"
  | .messagePack => "msgpack"

/-- The format meant by an option value. -/
def ofName? (t : Text) : Option DumpFormat :=
  let w := Text.word t
  if w = "json" then some .json
  else if w = "msgpack" || w = "mp" || w = "tokmp" then some .messagePack
  else none

/-- The complaint about an option value that means no format. -/
def unsupported (t : Text) : Text :=
  "unsupported dump format " ++ Text.quoted t ++ " (expected json|msgpack)"

/-- The ending of JSON dumps. -/
def jsonSuffix : Text := ".tokens.json"

/-- The ending of MessagePack dumps. -/
def messagePackSuffix : Text := ".tokmp"

/-- The format of a file, by its name. -/
def ofPath (path : Text) : DumpFormat :=
  let p := Text.lower path
  if p.hasSuffix messagePackSuffix || p.hasSuffix ".msgpack" then .messagePack
  else if p.hasSuffix ".json" then .json
  else .unknown

/-- Is a file a dump, by its name? -/
def isDump (path : Text) : Bool :=
  let p := Text.lower path
  p.hasSuffix jsonSuffix || p.hasSuffix messagePackSuffix

end DumpFormat

/-- The part of an array item that could not be read. -/
inductive DumpPart where
  | whole | kind | content | line
  deriving DecidableEq, Inhabited

/-- Why a dump cannot be read or written. -/
inductive DumpError where
  | unknownFormat
  | emptyInput
  /-- The text is not JSON, or not of the shape of a dump. -/
  | malformedJson
  /-- An item of a token array has the wrong shape. -/
  | malformedItem (index : Nat) (part : DumpPart)
  /-- An item of a token array has fewer than two parts. -/
  | shortItem (index : Nat)
  | malformedMessagePack
  /-- A record without a kind whose content is no single character. -/
  | missingKind (index : Nat) (content : Text)
  | unknownKind (index : Nat) (name : Text)
  /-- There is no dump to write. -/
  | noDump
  deriving DecidableEq, Inhabited

namespace DumpError

/-- The words for an error. What a parser of a format has to say about its input is
abbreviated to an asterisk. -/
def message : DumpError → Text
  | .unknownFormat => "unknown token dump format"
  | .emptyInput => "decode json: empty input"
  | .malformedJson => "decode json: *"
  | .malformedItem i part =>
    "decode json: token " ++ Text.ofNat i ++ (match part with
      | .whole => ""
      | .kind => " kind"
      | .content => " content"
      | .line => " line" : String) ++ ": *"
  | .shortItem i => "decode json: token " ++ Text.ofNat i ++ ": expected [kind, content, line]"
  | .malformedMessagePack => "decode msgpack: *"
  | .missingKind i content =>
    "token " ++ Text.ofNat i ++ ": missing kind for " ++ Text.quoted content
  | .unknownKind i name =>
    "token " ++ Text.ofNat i ++ ": unknown token kind " ++ Text.quoted name
  | .noDump => "encode: nil dump"

end DumpError

namespace Record

/-- The token a record describes; `index` is its place in the dump. A record with a kind
must name a known one. A record without is a single character: punctuation with a kind of
its own, or any other byte. -/
def token (index : Nat) (r : Record) : Except DumpError Token :=
  let name := Text.trimBlank r.kind
  if name = [] then
    match Kind.ofCharacter? r.content with
    | some k => .ok { kind := k, content := r.content, line := r.line, column := r.column }
    | none =>
      if r.content.length = 1 then
        .ok { kind := .other, content := r.content, line := r.line, column := r.column }
      else .error (.missingKind index r.content)
  else match Kind.ofName? name with
    | some k =>
      .ok { kind := k, name := name, content := r.content, line := r.line, column := r.column }
    | none => .error (.unknownKind index name)

/-- The record that is written for a token. A bare character has no kind. -/
def ofToken (t : Token) : Record :=
  { kind := if t.kind = .other && t.name = [] then [] else t.kindName
    content := t.content
    line := t.line
    column := t.column }

end Record

/-- A place in a source text. -/
structure Cursor where
  line : Int64 := 1
  column : Int64 := 1
  deriving DecidableEq, Inhabited

namespace Cursor

/-- The place behind one more rune. -/
def step (c : Cursor) (r : Rune) : Cursor :=
  if r.code = 10 then ⟨c.line + 1, 1⟩ else { c with column := c.column + 1 }

/-- The place behind a text. -/
def advance (c : Cursor) (t : Text) : Cursor := (Text.runes t).foldl step c

/-- The place corrected by what a token says about itself. A token on another line starts
that line unless it says where. -/
def sync (c : Cursor) (t : Token) : Cursor :=
  if 0 < t.line then
    { line := t.line
      column := if 0 < t.column then t.column else if t.line ≠ c.line then 1 else c.column }
  else c

end Cursor

/-- Completes lines and columns from a place on. -/
def fillFrom (c : Cursor) : Stream → Stream
  | [] => []
  | t :: rest =>
    let here := c.sync t
    { t with
      line := if t.line = 0 then here.line else t.line
      column := if t.column = 0 then here.column else t.column }
      :: fillFrom (here.advance t.content) rest

/-- Completes the lines and columns that are not known; known ones stay. -/
def fillPositions (s : Stream) : Stream := fillFrom {} s

namespace Dump

/-- The tokens of records, numbered from `index` on, as they were recorded. -/
def tokensFrom (index : Nat) : List Record → Except DumpError Stream
  | [] => .ok []
  | r :: rest =>
    match r.token index with
    | .error e => .error e
    | .ok t =>
      match tokensFrom (index + 1) rest with
      | .error e => .error e
      | .ok ts => .ok (t :: ts)

/-- The dump that a path and records describe. -/
def ofRecords (path : Text) (records : List Record) : Except DumpError Dump :=
  match tokensFrom 0 records with
  | .error e => .error e
  | .ok ts => .ok ⟨path, fillPositions ts⟩

/-- The records written for a dump. -/
def records (d : Dump) : List Record := d.tokens.map Record.ofToken

end Dump

/-- The list of a repeated field. A later occurrence is read over the items of the earlier
ones, so an item keeps what the later one does not mention; items beyond the end of a
shorter list are remembered. -/
structure Overlay (α : Type) where
  /-- Everything read so far. -/
  slots : List α := []
  /-- How many of the slots are items of the list. -/
  size : Nat := 0
  deriving Inhabited

namespace Overlay

/-- The items of the list. -/
def items {α : Type} (o : Overlay α) : List α := o.slots.take o.size

/-- Reads values over the slots, starting from `fresh` where there is none. -/
def readOver {α β : Type} (fresh : α) (read : α → β → Option α) : List α → List β → Option (List α)
  | slots, [] => some slots
  | [], v :: vs => do
    let x ← read fresh v
    return x :: (← readOver fresh read [] vs)
  | s :: slots, v :: vs => do
    let x ← read s v
    return x :: (← readOver fresh read slots vs)

/-- A further occurrence of the field. -/
def reread {α β : Type} (fresh : α) (read : α → β → Option α) (o : Overlay α) (vs : List β) :
    Option (Overlay α) :=
  (readOver fresh read o.slots vs).map fun slots => ⟨slots, vs.length⟩

end Overlay

/-- A dump while it is being read. -/
structure DumpDraft where
  path : Text := []
  tokens : Overlay Record := {}
  deriving Inhabited

/-- The dump that has been read. -/
def DumpDraft.finish (d : DumpDraft) : Except DumpError Dump := Dump.ofRecords d.path d.tokens.items

end TokenLint
