import TokenLint.Yaml.Scalar

/-!
# Cutting a YAML stream into tokens

Indentation becomes tokens: a line that is indented further than the lines around it opens a
block, and a line that is indented less closes blocks. Whether something is the key of a
mapping is only known when the colon behind it is reached; its place among the tokens is
remembered, and the tokens that open a mapping and a key are put there afterwards. Such a
key is on one line and not longer than 1024 characters.
-/

namespace TokenLint.Yaml

/-- A place where a key may have started. -/
structure PossibleKey where
  /-- Must it be a key? -/
  required : Bool
  /-- The number of tokens before it. -/
  tokenCount : Nat
  place : Place
  deriving DecidableEq, Inhabited

/-- A stream that is being cut. -/
structure Scan where
  cursor : Cursor
  tokens : Array Token := #[]
  /-- The column of the innermost block; before the first one it is -1. -/
  indent : Int := -1
  /-- The columns of the blocks around it, the innermost first. -/
  indents : List Int := []
  /-- Where a key may have started outside of all brackets. -/
  key : Option PossibleKey := none
  /-- The same for the surroundings of every open bracket, the innermost first. -/
  outerKeys : List (Option PossibleKey) := []
  /-- May a key start here? -/
  keyAllowed : Bool := true
  deriving Inhabited

namespace Scan

/-- Are there open brackets? -/
def inFlow (s : Scan) : Bool := !s.outerKeys.isEmpty

/-- The column of the cursor. -/
def column (s : Scan) : Nat := s.cursor.place.column

/-- Appends a token. -/
def push (s : Scan) (t : Token) : Scan := { s with tokens := s.tokens.push t }

/-- Moves the cursor. -/
def moveTo (s : Scan) (c : Cursor) : Scan := { s with cursor := c }

/-- Appends the token of some characters of a line. -/
def pushSkip (s : Scan) (n : Nat) (t : Token) : Scan := (s.push t).moveTo (s.cursor.skip n)

/-- Closes the blocks that are indented further than a column. -/
def closeBlocks (column indent : Int) (tokens : Array Token) : List Int → Int × List Int × Array Token
  | [] => (indent, [], tokens)
  | outer :: rest =>
    if column < indent then closeBlocks column outer (tokens.push .blockEnd) rest
    else (indent, outer :: rest, tokens)

/-- Closes the blocks that are indented further than a column; inside brackets indentation
does not count. -/
def unindent (s : Scan) (column : Int) : Scan :=
  if s.inFlow then s
  else
    let (indent, indents, tokens) := closeBlocks column s.indent s.tokens s.indents
    { s with indent := indent, indents := indents, tokens := tokens }

/-- Opens a block at a column if it is indented further; `i` is where its token goes. -/
def openBlock (s : Scan) (column : Int) (i : Nat) (t : Token) : Scan :=
  if s.inFlow || column ≤ s.indent then s
  else
    { s with
      indent := column
      indents := s.indent :: s.indents
      tokens := s.tokens.insertIdxIfInBounds i t }

/-- Gives up a possible key; nothing if it has to be one. -/
def dropKey? (s : Scan) : Option Scan :=
  match s.key with
  | some k => if k.required then none else some { s with key := none }
  | none => some s

/-- Remembers that a key may start here. -/
def noteKey? (s : Scan) : Option Scan :=
  if !s.keyAllowed then some s
  else do
    let s ← s.dropKey?
    let required := !s.inFlow && s.indent == (s.column : Int)
    some { s with key := some ⟨required, s.tokens.size, s.cursor.place⟩ }

/-- Skips blanks, comments and line breaks. Tabulators count as blanks inside brackets, and
where no key may start. -/
def toToken (s : Scan) : Nat → Scan
  | 0 => s
  | fuel + 1 =>
    let cur := s.cursor
    let cur := if cur.place.column == 0 && peek 0 cur.rest == 0xFEFF then cur.skip 1 else cur
    let tabs := s.inFlow || !s.keyAllowed
    let cur := cur.skipWhile fun c => c == 32 || (tabs && c == 9)
    let cur := if peek 0 cur.rest == 35 then cur.skipWhile (fun c => !isBreak c) else cur
    match cur.rest with
    | c :: _ =>
      if isBreak c then
        toToken { s with cursor := cur.skipBreak, keyAllowed := s.keyAllowed || !s.inFlow } fuel
      else s.moveTo cur
    | [] => s.moveTo cur

/-- A number of a version. -/
def versionNumber? (c : Cursor) : Option (Nat × Cursor) :=
  let (digits, rest) := c.takeWhile fun d => 48 ≤ d && d ≤ 57
  if digits.isEmpty || 9 < digits.length then none
  else some (digits.foldl (fun n d => n * 10 + (d - 48)) 0, rest)

/-- The characters of a tag after its handle; a percent sign and two hexadecimal digits stand
for a byte. -/
def tagBytes? : Nat → Cursor → Option (Text × Cursor)
  | 0, _ => none
  | fuel + 1, c =>
    match c.rest with
    | [] => some ([], c)
    | 37 :: a :: b :: _ => do
      let high ← hexValue? a
      let low ← hexValue? b
      let (more, c) ← tagBytes? fuel (c.skip 3)
      some ((high * 16 + low).toUInt8 :: more, c)
    | 37 :: _ => none
    | x :: _ =>
      if isWord x || x ∈ (";/?:@&=+$,.!~*'()[]".toList.map Char.toNat) then do
        let (more, c) ← tagBytes? fuel (c.skip 1)
        some (Text.encodeRune x ++ more, c)
      else some ([], c)

/-- The rest of a tag; it must not be empty, unless there is something before it. -/
def tagRest? (c : Cursor) (start : Text) : Option (Text × Cursor) := do
  let (t, rest) ← tagBytes? (c.rest.length + 1) c
  if start.isEmpty && t.isEmpty then none else some (start.drop 1 ++ t, rest)

/-- A handle of a tag: an exclamation mark, or a name between two. -/
def tagHandle? (c : Cursor) : Option (Text × Cursor) :=
  if peek 0 c.rest ≠ 33 then none
  else
    let (name, after) := (c.skip 1).takeWhile isWord
    if peek 0 after.rest == 33 then some (33 :: textOf name ++ [33], after.skip 1)
    else some (33 :: textOf name, after)

/-- A tag. -/
def tag? (c : Cursor) : Option (Token × Cursor) := do
  let (token, rest) ←
    if peek 1 c.rest == 60 then do
      let (suffix, rest) ← tagRest? (c.skip 2) []
      if peek 0 rest.rest ≠ 62 then none else some (Token.tag [] suffix, rest.skip 1)
    else do
      let (handle, rest) ← tagHandle? c
      if 1 < handle.length && handle.getLast? = some 33 then
        let (suffix, rest) ← tagRest? rest []
        some (Token.tag handle suffix, rest)
      else
        let (suffix, rest) ← tagRest? rest handle
        some (if suffix.isEmpty then Token.tag [] [33] else Token.tag [33] suffix, rest)
  if atGap rest.rest then some (token, rest) else none

/-- The name of an anchor, behind its sign. -/
def anchorName? (c : Cursor) : Option (Text × Cursor) :=
  let (name, rest) := (c.skip 1).takeWhile isWord
  let ends := atGap rest.rest || peek 0 rest.rest ∈ ("?:,]\x7d%@`".toList.map Char.toNat)
  if name.isEmpty || !ends then none else some (textOf name, rest)

/-- A directive. -/
def directive? (c : Cursor) : Option (Token × Cursor) := do
  let (name, rest) := (c.skip 1).takeWhile isWord
  if name.isEmpty || !atGap rest.rest then none
  else
    let rest := rest.skipWhile isBlank
    let (token, rest) ←
      if textOf name = "YAML" then do
        let (major, rest) ← versionNumber? rest
        if peek 0 rest.rest ≠ 46 then none
        else
          let (minor, rest) ← versionNumber? (rest.skip 1)
          some (Token.version major minor, rest)
      else if textOf name = "TAG" then do
        let (handle, rest) ← tagHandle? rest
        if handle.getLast? ≠ some 33 || !isBlank (peek 0 rest.rest) then none
        else
          let (start, rest) ← tagRest? (rest.skipWhile isBlank) []
          if atGap rest.rest then some (Token.tagDirective handle start, rest) else none
      else none
    let rest := rest.skipWhile isBlank
    let rest := if peek 0 rest.rest == 35 then rest.skipWhile (fun c => !isBreak c) else rest
    if atLineEnd rest.rest then some (token, rest.skipBreak) else none

/-- May a plain scalar start here? -/
def startsPlain (flow : Bool) (cs : List Nat) : Bool :=
  let c := peek 0 cs
  let sign := c ∈ ("-?:,[]\x7b\x7d#&*!|>'\"%@`".toList.map Char.toNat)
  (!atGap cs && !sign) || (c == 45 && !isBlank (peek 1 cs))
    || (!flow && (c == 63 || c == 58) && !atGap cs.tail)

/-- An opening bracket. -/
def openFlow? (s : Scan) (t : Token) : Option Scan := do
  let s ← s.noteKey?
  some { s.pushSkip 1 t with key := none, outerKeys := s.key :: s.outerKeys, keyAllowed := true }

/-- A closing bracket. -/
def closeFlow? (s : Scan) (t : Token) : Option Scan := do
  let s ← s.dropKey?
  let s := { s with keyAllowed := false }
  match s.outerKeys with
  | key :: rest => some { s.pushSkip 1 t with key := key, outerKeys := rest }
  | [] => some (s.pushSkip 1 t)

/-- A mark between documents. -/
def documentMark? (s : Scan) (t : Token) : Option Scan := do
  let s ← (s.unindent (-1)).dropKey?
  some { s.pushSkip 3 t with keyAllowed := false }

/-- The sign before an item of a sequence, or before a key that is not on one line. -/
def blockSign? (s : Scan) (opening t : Token) (allowed : Bool) : Option Scan :=
  if !s.inFlow && !s.keyAllowed then none
  else do
    let s ← (s.openBlock s.column s.tokens.size opening).dropKey?
    some { s.pushSkip 1 t with keyAllowed := allowed }

/-- Can the possible key still be one? Nothing if it has to be one and cannot. -/
def keyHolds? (s : Scan) : Option Bool :=
  match s.key with
  | none => some false
  | some k =>
    if k.place.line < s.cursor.place.line || k.place.index + 1024 < s.cursor.place.index then
      if k.required then none else some false
    else some true

/-- The colon before a value. -/
def valueSign? (s : Scan) : Option Scan := do
  if ← s.keyHolds? then
    match s.key with
    | none => none
    | some k =>
      let s := { s with tokens := s.tokens.insertIdxIfInBounds k.tokenCount .key }
      let s := s.openBlock k.place.column k.tokenCount .blockMapping
      some { s.pushSkip 1 .value with key := none, keyAllowed := false }
  else
    let s := { s with key := none }
    if !s.inFlow && !s.keyAllowed then none
    else
      let s := s.openBlock s.column s.tokens.size .blockMapping
      some { s.pushSkip 1 .value with keyAllowed := !s.inFlow }

/-- A token that may start a key. -/
def keyToken? (s : Scan) (read : Cursor → Option (Token × Cursor)) : Option Scan := do
  let s ← s.noteKey?
  let (t, cur) ← read s.cursor
  some { (s.push t).moveTo cur with keyAllowed := false }

/-- A plain scalar. -/
def plain? (s : Scan) : Option Scan := do
  let s ← s.noteKey?
  let (p, rest) ← plainFrom (s.indent + 1) s.inFlow { place := s.cursor.place } s.cursor.rest
  some { (s.push (.scalar p.folding.result true)).moveTo ⟨rest, p.place⟩ with
    keyAllowed := p.folding.broken }

/-- A block scalar. -/
def blockScalar? (s : Scan) (literal : Bool) : Option Scan := do
  let s ← s.dropKey?
  let (t, cur) ← block? literal s.indent (s.cursor.skip 1)
  some { (s.push (.scalar t false)).moveTo cur with keyAllowed := true }

/-- A quoted scalar. -/
def quoted? (single : Bool) (c : Cursor) : Option (Token × Cursor) :=
  (quotedFrom single (c.rest.length + 1) {} (c.skip 1)).map fun (t, cur) => (.scalar t false, cur)

/-- The end of the stream. -/
def finish? (s : Scan) : Option Scan := do
  let s ← (s.unindent (-1)).dropKey?
  some { s.push .streamEnd with keyAllowed := false }

/-- The next token, and those that come with it; nothing if there is none. -/
def next? (s : Scan) : Option Scan :=
  let s := s.toToken (s.cursor.rest.length + 1)
  let s := s.unindent s.column
  let cs := s.cursor.rest
  let c := peek 0 cs
  let gap := atGap cs.tail
  if cs.isEmpty then s.finish?
  else if s.column == 0 && c == 37 then do
    let s ← (s.unindent (-1)).dropKey?
    let (t, cur) ← directive? s.cursor
    some { (s.push t).moveTo cur with keyAllowed := false }
  else if s.column == 0 && startsTriple 45 cs then s.documentMark? .documentStart
  else if s.column == 0 && startsTriple 46 cs then s.documentMark? .documentEnd
  else if c == 91 then s.openFlow? .flowSequence
  else if c == 123 then s.openFlow? .flowMapping
  else if c == 93 then s.closeFlow? .flowSequenceEnd
  else if c == 125 then s.closeFlow? .flowMappingEnd
  else if c == 44 then do
    let s ← s.dropKey?
    some { s.pushSkip 1 .flowEntry with keyAllowed := true }
  else if c == 45 && gap then s.blockSign? .blockSequence .blockEntry true
  else if c == 63 && (s.inFlow || gap) then s.blockSign? .blockMapping .key (!s.inFlow)
  else if c == 58 && (s.inFlow || gap) then s.valueSign?
  else if c == 42 then s.keyToken? fun cur => (anchorName? cur).map fun (n, cur) => (.alias n, cur)
  else if c == 38 then s.keyToken? fun cur => (anchorName? cur).map fun (n, cur) => (.anchor n, cur)
  else if c == 33 then s.keyToken? tag?
  else if c == 124 && !s.inFlow then s.blockScalar? true
  else if c == 62 && !s.inFlow then s.blockScalar? false
  else if c == 39 then s.keyToken? (quoted? true)
  else if c == 34 then s.keyToken? (quoted? false)
  else if startsPlain s.inFlow cs then s.plain?
  else none

/-- Cuts a stream as far as possible. Also whether its end was reached. -/
def run : Nat → Scan → Array Token × Bool
  | 0, s => (s.tokens, false)
  | fuel + 1, s =>
    match s.next? with
    | none => (s.tokens, false)
    | some s => if s.tokens.back? = some .streamEnd then (s.tokens, true) else run fuel s

end Scan

/-- The tokens of a stream up to its end, or up to the first fault. -/
def tokens (cs : List Nat) : Array Token × Bool :=
  Scan.run (cs.length + 1) { cursor := { rest := cs } }

end TokenLint.Yaml
