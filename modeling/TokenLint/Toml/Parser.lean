import TokenLint.Toml.Document
import TokenLint.Toml.Scalar

/-!
# Reading TOML

A document is a sequence of lines: headers of tables, and keys with values. Lists may go over
several lines, and tables in braces may not.
-/

namespace TokenLint.Toml

/-- Skips blanks. -/
def skipBlanks (cs : List Nat) : List Nat := cs.dropWhile isBlank

/-- Skips the rest of a line, but not the break. -/
def skipLine (cs : List Nat) : List Nat := cs.dropWhile fun c => !isBreak c

/-- Skips blanks, line breaks and comments. -/
def skipLines : Nat → List Nat → List Nat
  | 0, cs => cs
  | fuel + 1, cs =>
    let cs := cs.dropWhile fun c => isBlank c || isBreak c
    if cs.head? = some 35 then skipLines fuel (skipLine cs) else cs

/-- A name, with or without quotes. -/
def name? : Reader Text := fun cs =>
  match cs with
  | 34 :: rest => basicString? (rest.length + 1) rest
  | 39 :: rest => literalString? rest
  | cs =>
    let run := cs.takeWhile isBare
    if run.isEmpty then none else some (textOf run, cs.drop run.length)

/-- Names with dots between them, and blanks around them. -/
def key? : Nat → Reader Key
  | 0, _ => none
  | fuel + 1, cs => do
    let (n, rest) ← name? (skipBlanks cs)
    let rest := skipBlanks rest
    match expect? 46 rest with
    | some rest =>
      let (more, rest) ← key? fuel rest
      some (n :: more, rest)
    | none => some ([n], rest)

/-- A key and the sign behind it. -/
def keyBefore? (sign : Nat) : Reader Key := fun cs => do
  let (k, rest) ← key? (cs.length + 1) cs
  some (k, ← expect? sign rest)

mutual

/-- Reads a value for a name in the current table; `inList` says that it is in a list. Also the
document with all that was opened on the way, and what is left. -/
def value? : Nat → Text → Bool → Builder → List Nat → Option (Value × Builder × List Nat)
  | 0, _, _, _, _ => none
  | fuel + 1, name, inList, b, cs =>
    match skipBlanks cs with
    | 91 :: rest => do
      let (items, b, rest) ← items? fuel name (b.note (b.context ++ [name]) true) rest []
      some (.array items, b, rest)
    | 123 :: rest => do
      let outer := b.context
      let key := outer ++ [name]
      let b := { b with implicits := key :: b.implicits }
      let b ← b.openTable? key inList
      let (b, rest) ← entries? fuel b rest
      some (.table (tableAt key b.root), { b with context := outer }, rest)
    | cs => (scalar? cs).map fun (v, rest) => (v, b, rest)

/-- Reads the items of a list behind its bracket; `done` are those before, the latest first. -/
def items? : Nat → Text → Builder → List Nat → List Value →
    Option (List Value × Builder × List Nat)
  | 0, _, _, _, _ => none
  | fuel + 1, name, b, cs, done =>
    let cs := skipLines (cs.length + 1) cs
    match expect? 93 cs with
    | some rest => some (done.reverse, b, rest)
    | none => do
      let (v, b, rest) ← value? fuel name true b cs
      let rest := skipLines (rest.length + 1) rest
      match rest with
      | 44 :: rest => items? fuel name b rest (v :: done)
      | 93 :: rest => some ((v :: done).reverse, b, rest)
      | _ => none

/-- Reads the entries of a table in braces behind its brace. -/
def entries? : Nat → Builder → List Nat → Option (Builder × List Nat)
  | 0, _, _ => none
  | fuel + 1, b, cs =>
    match expect? 125 (skipBlanks cs) with
    | some rest => some (b, rest)
    | none => entriesFrom? fuel b cs

/-- Reads entries up to the closing brace; there is at least one. -/
def entriesFrom? : Nat → Builder → List Nat → Option (Builder × List Nat)
  | 0, _, _ => none
  | fuel + 1, b, cs => do
    let (b, rest) ← entry? fuel b cs
    match skipBlanks rest with
    | 44 :: rest => entriesFrom? fuel b rest
    | 125 :: rest => some (b, rest)
    | _ => none

/-- Reads a key with its value into the current table. -/
def entry? : Nat → Builder → List Nat → Option (Builder × List Nat)
  | 0, _, _ => none
  | fuel + 1, b, cs => do
    let outer := b.context
    let (key, rest) ← keyBefore? 61 cs
    match key.reverse with
    | [] => none
    | last :: before =>
      let b ← b.openDotted? before.reverse
      let b := { b with keys := b.keys ++ [b.context ++ [last]] }
      let (v, b, rest) ← value? fuel last false b rest
      let b ← b.setValue? last v
      let isList := match v with
        | .array _ => true
        | _ => false
      some ({ b.note (b.context ++ [last]) isList with context := outer }, rest)

end

/-- Reads a header, behind its first bracket. -/
def header? (b : Builder) (cs : List Nat) : Option (Builder × List Nat) :=
  match cs with
  | 91 :: rest => do
    let (key, rest) ← keyBefore? 93 rest
    some (← b.header? key true, ← expect? 93 rest)
  | cs => do
    let (key, rest) ← keyBefore? 93 cs
    some (← b.header? key false, rest)

/-- What is behind the end of a line, which may have a comment. -/
def lineEnd? (cs : List Nat) : Option (List Nat) :=
  match skipBlanks cs with
  | [] => some []
  | c :: rest => if c == 35 then some (skipLine rest) else if isBreak c then some (c :: rest) else none

/-- Reads lines up to the end. -/
def lines? : Nat → Builder → List Nat → Option Builder
  | 0, _, _ => none
  | fuel + 1, b, cs =>
    match skipLines (cs.length + 1) cs with
    | [] => some b
    | 91 :: rest => do
      let (b, rest) ← header? b rest
      lines? fuel b (← lineEnd? rest)
    | cs => do
      let (b, rest) ← entry? (2 * cs.length + 4) b cs
      lines? fuel b (← lineEnd? rest)

/-- May the characters stand in a document? Of the control characters only tabulators and line
breaks may, and a carriage return only before a line feed. -/
def allowed : List Nat → Bool
  | [] => true
  | 13 :: rest => rest.head? = some 10 && allowed rest
  | c :: rest => (c == 9 || c == 10 || 32 ≤ c) && c != 127 && c != Text.replacement && allowed rest

/-- A text without a byte order mark. -/
def dropMark : Text → Text
  | 0xFF :: 0xFE :: rest => rest
  | 0xFE :: 0xFF :: rest => rest
  | 0xEF :: 0xBB :: 0xBF :: rest => rest
  | t => t

/-- A document. -/
structure Document where
  root : Entries := []
  /-- All keys, in the order in which they were written. -/
  keys : List Key := []
  deriving Inhabited

/-- Reads a document; nothing if it is malformed. -/
def parse (t : Text) : Option Document :=
  let cs := (Text.runes (dropMark t)).map Rune.code
  if allowed cs then (lines? (cs.length + 1) {} cs).map fun b => ⟨b.root, b.keys⟩ else none

/-- The keys that were written, but not read. -/
def Document.unread (d : Document) (read : List Key) : List Key := d.keys.filter (!read.contains ·)

end TokenLint.Toml
