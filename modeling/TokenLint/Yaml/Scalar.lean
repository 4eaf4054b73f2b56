import TokenLint.Yaml.Token

/-!
# YAML scalars

Plain, quoted and block scalars. In plain and quoted scalars a single line break is read as
a blank, and of several the first is left out. In block scalars lines are kept or folded,
and the line breaks at the end are kept or dropped, as the header says.
-/

namespace TokenLint.Yaml

/-- A scalar that is being read. The lists hold the latest character first. -/
structure Folding where
  text : List Nat := []
  /-- Blanks behind the text, on its line. -/
  blanks : List Nat := []
  /-- Has the line of the text ended? -/
  broken : Bool := false
  /-- The break that ended the line, if it counts. -/
  first : Option Nat := none
  /-- The breaks behind that one. -/
  more : List Nat := []
  deriving Inhabited

namespace Folding

/-- A blank. -/
def blank (f : Folding) (c : Nat) : Folding :=
  if f.broken then f else { f with blanks := c :: f.blanks }

/-- A line break. -/
def lineBreak (f : Folding) (c : Nat) : Folding :=
  if f.broken then { f with more := c :: f.more }
  else { f with blanks := [], broken := true, first := some c }

/-- Joins what is behind the text to it. -/
def join (f : Folding) : Folding :=
  let behind :=
    if !f.broken then f.blanks
    else if f.first = some 10 then (if f.more.isEmpty then [32] else f.more)
    else f.more ++ f.first.toList
  { text := behind ++ f.text }

/-- Characters of the text. -/
def push (f : Folding) (cs : List Nat) : Folding :=
  let f := f.join
  { f with text := cs.reverse ++ f.text }

/-- A line break that does not count. -/
def joinLines (f : Folding) : Folding := { f.join with broken := true }

/-- The text that was read. -/
def result (f : Folding) : Text := textOf f.text.reverse

end Folding

/-- A plain scalar that is being read. -/
structure Plain where
  place : Place
  folding : Folding := {}
  /-- Was the last character a blank or a break? -/
  afterGap : Bool := false
  deriving Inhabited

/-- May the scalar not go on here? Behind a gap a lesser column, a mark between documents or a
comment ends it; everywhere a colon before a gap, and inside brackets a bracket, a comma or
a question mark. -/
def plainEnds (indent : Int) (flow : Bool) (p : Plain) (cs : List Nat) : Bool :=
  let c := peek 0 cs
  (p.afterGap &&
    ((!flow && (p.place.column : Int) < indent) || (p.place.column == 0 && atDocumentMark cs)
      || c == 35))
    || (c == 58 && atGap cs.tail)
    || (flow && (c == 44 || c == 63 || c == 91 || c == 93 || c == 123 || c == 125))

/-- Reads a plain scalar; nothing if a tabulator stands where only blanks may. -/
def plainFrom (indent : Int) (flow : Bool) (p : Plain) : List Nat → Option (Plain × List Nat)
  | [] => some (p, [])
  | c :: rest =>
    if isBlank c then
      if p.folding.broken && (p.place.column : Int) < indent && c == 9 then none
      else
        plainFrom indent flow
          { place := p.place.skip 1, folding := p.folding.blank c, afterGap := true } rest
    else if isBreak c then
      plainFrom indent flow
        { place := p.place.nextLine, folding := p.folding.lineBreak c, afterGap := true } rest
    else if plainEnds indent flow p (c :: rest) then some (p, c :: rest)
    else
      plainFrom indent flow
        { place := p.place.skip 1, folding := p.folding.push [c], afterGap := false } rest

/-- The value of a hexadecimal digit. -/
def hexValue? (c : Nat) : Option Nat :=
  if 48 ≤ c && c ≤ 57 then some (c - 48)
  else if 97 ≤ c && c ≤ 102 then some (c - 87)
  else if 65 ≤ c && c ≤ 70 then some (c - 55)
  else none

/-- The character with a number in hexadecimal digits. -/
def hexCharacter? (digits : List Nat) (count : Nat) : Option Nat := do
  let values ← (digits.take count).mapM hexValue?
  if values.length < count then none
  else
    let n := values.foldl (fun n v => n * 16 + v) 0
    if (0xD800 ≤ n && n ≤ 0xDFFF) || 0x10FFFF < n then none else some n

/-- The escapes with one letter: the letter and the character. -/
def escapes : List (Nat × Nat) :=
  [(48, 0), (97, 7), (98, 8), (116, 9), (9, 9), (110, 10), (118, 11), (102, 12), (114, 13),
   (101, 27), (32, 32), (34, 34), (39, 39), (92, 92), (78, 0x85), (95, 0xA0), (76, 0x2028),
   (80, 0x2029)]

/-- The character of an escape, from the letter behind the backslash on, and how many
characters the escape takes with its backslash. -/
def escape? (cs : List Nat) : Option (Nat × Nat) :=
  match cs with
  | [] => none
  | c :: rest =>
    match escapes.lookup c with
    | some v => some (v, 2)
    | none =>
      let numbered (count : Nat) := (hexCharacter? rest count).map fun v => (v, count + 2)
      if c == 120 then numbered 2
      else if c == 117 then numbered 4
      else if c == 85 then numbered 8
      else none

/-- Reads a quoted scalar behind its first quote; nothing if it does not end, or holds a mark
between documents at the start of a line, or an escape that is none. -/
def quotedFrom (single : Bool) : Nat → Folding → Cursor → Option (Text × Cursor)
  | 0, _, _ => none
  | fuel + 1, f, cur =>
    if cur.place.column == 0 && atDocumentMark cur.rest then none
    else match cur.rest with
      | [] => none
      | c :: rest =>
        if isBlank c then quotedFrom single fuel (f.blank c) (cur.skip 1)
        else if isBreak c then quotedFrom single fuel (f.lineBreak c) cur.skipBreak
        else if single && c == 39 then
          if peek 0 rest == 39 then quotedFrom single fuel (f.push [39]) (cur.skip 2)
          else some (f.join.result, cur.skip 1)
        else if !single && c == 34 then some (f.join.result, cur.skip 1)
        else if !single && c == 92 then
          if !rest.isEmpty && isBreak (peek 0 rest) then
            quotedFrom single fuel f.joinLines (cur.skip 1).skipBreak
          else match escape? rest with
            | none => none
            | some (v, n) => quotedFrom single fuel (f.push [v]) (cur.skip n)
        else quotedFrom single fuel (f.push [c]) (cur.skip 1)

/-- What happens to the line breaks at the end of a block scalar. -/
inductive Chomping where
  /-- All are dropped. -/
  | strip
  /-- One is kept. -/
  | clip
  /-- All are kept. -/
  | keep
  deriving DecidableEq, Inhabited

/-- The line feeds of empty lines before a line of a block scalar, up to its indentation. With
no indentation yet the blanks of all those lines count; `widest` is their greatest number. -/
structure Gap where
  breaks : List Nat := []
  widest : Nat := 0
  cursor : Cursor

/-- Skips empty lines and indentation; nothing if a tabulator stands in the indentation. -/
def blockGap (indent : Option Nat) : Nat → Gap → Option Gap
  | 0, g => some g
  | fuel + 1, g =>
    let column := g.cursor.place.column
    let limit := match indent with
      | some n => n - column
      | none => g.cursor.rest.length
    let blanks := ((g.cursor.rest.take limit).takeWhile (· == 32)).length
    let cur := g.cursor.skip blanks
    let inside := match indent with
      | some n => cur.place.column < n
      | none => true
    if inside && peek 0 cur.rest == 9 then none
    else
      let g := { g with cursor := cur, widest := max g.widest cur.place.column }
      match cur.rest with
      | c :: _ =>
        if isBreak c then
          blockGap indent fuel { g with cursor := cur.skipBreak, breaks := c :: g.breaks }
        else some g
      | [] => some g

/-- A block scalar that is being read. The lists hold the latest character first. -/
structure Block where
  text : List Nat := []
  /-- The break behind the last line. -/
  first : List Nat := []
  /-- The breaks of the empty lines behind it. -/
  more : List Nat := []
  /-- Did the last line start with a blank? -/
  spaced : Bool := false
  cursor : Cursor

/-- Adds the line at the cursor. -/
def Block.addLine (literal : Bool) (b : Block) : Block :=
  let blank := isBlank (peek 0 b.cursor.rest)
  let fold := !literal && !b.spaced && !blank && b.first == [10]
  let joint := if fold then (if b.more.isEmpty then [32] else b.more) else b.more ++ b.first
  let (line, cur) := b.cursor.takeWhile fun c => !isBreak c
  let ending := match cur.rest with
    | c :: _ => [c]
    | [] => []
  { text := line.reverse ++ joint ++ b.text, first := ending, more := [], spaced := blank
    cursor := cur.skipBreak }

/-- Reads the lines of a block scalar with an indentation. -/
def blockLines (literal : Bool) (indent : Nat) : Nat → Block → Option Block
  | 0, b => some b
  | fuel + 1, b =>
    if b.cursor.place.column == indent && !b.cursor.rest.isEmpty then do
      let b := b.addLine literal
      let g ← blockGap (some indent) (fuel + 1) { cursor := b.cursor }
      blockLines literal indent fuel { b with more := g.breaks, cursor := g.cursor }
    else some b

/-- The header of a block scalar behind its first sign: what happens to the breaks at the end,
and the indentation beyond that of the surroundings, if it is given. -/
def blockHeader? (cur : Cursor) : Option (Chomping × Option Nat × Cursor) :=
  let isDigit (c : Nat) : Bool := 48 ≤ c && c ≤ 57
  let chomping (c : Nat) : Chomping := if c == 43 then .keep else .strip
  let isSign (c : Nat) : Bool := c == 43 || c == 45
  let c := peek 0 cur.rest
  let d := peek 1 cur.rest
  if isSign c then
    if isDigit d then
      if d == 48 then none else some (chomping c, some (d - 48), cur.skip 2)
    else some (chomping c, none, cur.skip 1)
  else if isDigit c then
    if c == 48 then none
    else if isSign d then some (chomping d, some (c - 48), cur.skip 2)
    else some (.clip, some (c - 48), cur.skip 1)
  else some (.clip, none, cur)

/-- Reads a block scalar behind its first sign; `outer` is the indentation around it. -/
def block? (literal : Bool) (outer : Int) (cur : Cursor) : Option (Text × Cursor) := do
  let (chomping, given, cur) ← blockHeader? cur
  let cur := cur.skipWhile isBlank
  let cur := if peek 0 cur.rest == 35 then cur.skipWhile (fun c => !isBreak c) else cur
  if !atLineEnd cur.rest then none
  else
    let cur := cur.skipBreak
    let fuel := cur.rest.length + 1
    let indent := given.map fun n => (max outer 0).toNat + n
    let g ← blockGap indent fuel { cursor := cur }
    let indent := indent.getD (max (max g.widest (outer + 1).toNat) 1)
    let b ← blockLines literal indent fuel { more := g.breaks, cursor := g.cursor }
    let tail := match chomping with
      | .strip => []
      | .clip => b.first
      | .keep => b.more ++ b.first
    some (textOf (tail ++ b.text).reverse, b.cursor)

end TokenLint.Yaml
