import TokenLint.Text.Quoted
import TokenLint.Token.Stream

/-!
# Building token streams

A builder appends tokens and knows where the next one starts, the way a tokenizer does: a
line feed starts a line, and every other character takes a column.
-/

namespace TokenLint

/-- A line and a column. -/
structure Cell where
  line : Int64 := 1
  column : Int64 := 1
  deriving DecidableEq, Inhabited

namespace Cell

/-- The place behind a text that starts at a place. -/
def advance (c : Cell) (t : Text) : Cell :=
  (Text.runes t).foldl
    (fun c r => if r.code = 10 then ⟨c.line + 1, 1⟩ else ⟨c.line, c.column + 1⟩) c

/-- The written form of a place. -/
def render (c : Cell) : Text := Text.ofInt64 c.line ++ ":" ++ Text.ofInt64 c.column

end Cell

/-- A stream that is being built. -/
structure StreamBuilder where
  tokens : Stream := []
  /-- Names of tokens, the latest first. -/
  marks : List (Text × Nat) := []
  next : Cell := {}
  deriving DecidableEq, Inhabited

namespace StreamBuilder

/-- Appends a token. -/
def add (b : StreamBuilder) (kind : Kind) (content : Text) : StreamBuilder :=
  { b with
    tokens := b.tokens ++
      [{ kind := kind, content := content, line := b.next.line, column := b.next.column }]
    next := b.next.advance content }

/-- Names the last token. -/
def mark (b : StreamBuilder) (name : Text) : StreamBuilder :=
  { b with marks := (name, b.tokens.length - 1) :: b.marks }

/-- The index of the token with a name. -/
def index? (b : StreamBuilder) (name : Text) : Option Nat := b.marks.lookup name

/-- The complaint about a name that no token has. -/
def unknownMark (name : Text) : Text := "testkit: unknown mark " ++ Text.quoted name

/-- Appends an argument: a string literal if it starts with a quote, else a variable. The
first one is named if it is a literal. -/
def argument (b : StreamBuilder) (arg : Text × Nat) : StreamBuilder :=
  let b := if arg.2 = 0 then b else (b.add .comma ",").add .whitespace " "
  if arg.1.head? = some 39 || arg.1.head? = some 34 then
    let b := b.add .stringLiteral arg.1
    if arg.2 = 0 then b.mark "arg" else b
  else b.add .variable arg.1

/-- A file with one call of a method of the object manager. -/
def methodCall (method : Text) (args : List Text) : StreamBuilder :=
  let b : StreamBuilder := {}
  let b := (b.add .openTag "<?php\n").add .variable "$objectManager"
  let b := ((b.add .objectOperator "->").add .identifier method).mark "name"
  let b := args.zipIdx.foldl argument (b.add .openParenthesis "(")
  ((b.add .closeParenthesis ")").add .semicolon ";").add .whitespace "\n"

end StreamBuilder

namespace Stream

/-- A token that does not start where the one before it ends. -/
structure Misplaced where
  index : Nat
  token : Token
  /-- Where it should start. -/
  expected : Cell
  deriving DecidableEq, Inhabited

namespace Misplaced

/-- The complaint about a misplaced token. -/
def message (m : Misplaced) : Text :=
  "token " ++ Text.ofNat m.index ++ " (" ++ m.token.kind.name ++ " " ++ Text.quoted m.token.content
    ++ ") at " ++ Text.ofInt64 m.token.line ++ ":" ++ Text.ofInt64 m.token.column ++ ", want "
    ++ m.expected.render

end Misplaced

/-- The first misplaced token of tokens that start at a place and are numbered from `i` on. -/
def misplacedFrom? (i : Nat) (start : Cell) : Stream → Option Misplaced
  | [] => none
  | t :: rest =>
    if t.line = start.line && t.column = start.column then
      misplacedFrom? (i + 1) (start.advance t.content) rest
    else some ⟨i, t, start⟩

/-- The first misplaced token of a stream. -/
def misplaced? (s : Stream) : Option Misplaced := misplacedFrom? 0 {} s

end Stream

end TokenLint
