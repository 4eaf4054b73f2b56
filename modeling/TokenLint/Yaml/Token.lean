import TokenLint.Text.Utf8

/-!
# YAML tokens

The characters of a YAML stream, the places in it, and the tokens it is cut into. All line
breaks but the two Unicode separators are read as a line feed.
-/

namespace TokenLint.Yaml

/-- A token of a YAML stream. -/
inductive Token where
  | streamEnd
  | version (major minor : Nat)
  | tagDirective (handle start : Text)
  | documentStart
  | documentEnd
  | blockSequence
  | blockMapping
  | blockEnd
  | flowSequence
  | flowSequenceEnd
  | flowMapping
  | flowMappingEnd
  | blockEntry
  | flowEntry
  | key
  | value
  | alias (name : Text)
  | anchor (name : Text)
  | tag (handle suffix : Text)
  | scalar (value : Text) (plain : Bool)
  deriving DecidableEq, Inhabited

/-- May the character stand in a YAML stream? -/
def isAllowed (c : Nat) : Bool :=
  c == 9 || c == 10 || c == 13 || (0x20 ≤ c && c ≤ 0x7E) || c == 0x85
    || (0xA0 ≤ c && c ≤ 0xD7FF) || (0xE000 ≤ c && c ≤ 0xFFFD) || 0x10000 ≤ c

/-- Line breaks of all kinds become line feeds. -/
def plainBreaks : List Nat → List Nat
  | 13 :: 10 :: rest => 10 :: plainBreaks rest
  | 13 :: rest => 10 :: plainBreaks rest
  | 0x85 :: rest => 10 :: plainBreaks rest
  | c :: rest => c :: plainBreaks rest
  | [] => []

/-- The characters of a stream; nothing if it holds what may not stand there. A byte order
mark at its start does not count. -/
def characters? (t : Text) : Option (List Nat) :=
  let rs := Text.runes t
  if rs.all fun r => r.valid && isAllowed r.code then
    match rs.map Rune.code with
    | 0xFEFF :: rest => some (plainBreaks rest)
    | codes => some (plainBreaks codes)
  else none

/-- Is the character a line break? -/
def isBreak (c : Nat) : Bool := c == 10 || c == 0x2028 || c == 0x2029

/-- Is the character a blank or a tabulator? -/
def isBlank (c : Nat) : Bool := c == 32 || c == 9

/-- May a character be part of a name? -/
def isWord (c : Nat) : Bool :=
  (48 ≤ c && c ≤ 57) || (65 ≤ c && c ≤ 90) || (97 ≤ c && c ≤ 122) || c == 95 || c == 45

/-- The character at a place of a list; zero behind its end. -/
def peek (i : Nat) (cs : List Nat) : Nat := cs.getD i 0

/-- Does a list start with a blank, a break, or not at all? -/
def atGap (cs : List Nat) : Bool :=
  match cs with
  | [] => true
  | c :: _ => isBlank c || isBreak c

/-- Does a list start with a break, or not at all? -/
def atLineEnd (cs : List Nat) : Bool :=
  match cs with
  | [] => true
  | c :: _ => isBreak c

/-- Does a list start with the same character three times, and then a gap? -/
def startsTriple (c : Nat) (cs : List Nat) : Bool :=
  match cs with
  | a :: b :: d :: rest => a == c && b == c && d == c && atGap rest
  | _ => false

/-- Does a list start with a mark between documents? -/
def atDocumentMark (cs : List Nat) : Bool := startsTriple 45 cs || startsTriple 46 cs

/-- The text of characters. -/
def textOf (cs : List Nat) : Text := cs.flatMap Text.encodeRune

/-- A place in a stream. -/
structure Place where
  index : Nat := 0
  line : Nat := 0
  column : Nat := 0
  deriving DecidableEq, Inhabited

namespace Place

/-- The place behind some characters of a line. -/
def skip (p : Place) (n : Nat) : Place := { p with index := p.index + n, column := p.column + n }

/-- The start of the next line. -/
def nextLine (p : Place) : Place := ⟨p.index + 1, p.line + 1, 0⟩

/-- The place behind a character. -/
def next (p : Place) (c : Nat) : Place := if isBreak c then p.nextLine else p.skip 1

end Place

/-- What is still to be read, and where it starts. -/
structure Cursor where
  rest : List Nat
  place : Place := {}
  deriving DecidableEq, Inhabited

namespace Cursor

/-- Skips characters of a line. -/
def skip (c : Cursor) (n : Nat) : Cursor := ⟨c.rest.drop n, c.place.skip n⟩

/-- Skips a line break, if there is one. -/
def skipBreak (c : Cursor) : Cursor :=
  match c.rest with
  | b :: rest => if isBreak b then ⟨rest, c.place.nextLine⟩ else c
  | [] => c

/-- The characters of a line up to the first one that does not satisfy `p`. -/
def takeWhile (p : Nat → Bool) (c : Cursor) : List Nat × Cursor :=
  let taken := c.rest.takeWhile p
  (taken, c.skip taken.length)

/-- Skips the characters of a line that satisfy `p`. -/
def skipWhile (p : Nat → Bool) (c : Cursor) : Cursor := (c.takeWhile p).2

end Cursor

end TokenLint.Yaml
