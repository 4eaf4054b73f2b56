import TokenLint.Diagnostic.Fix

/-!
# Previews of edits

The lines an edit changes, before and after: the tokens around the edited one up to those
that hold a line feed.
-/

namespace TokenLint.Report

/-- Does a token hold a line feed? -/
def breaksLine (t : Token) : Bool := 10 ∈ t.content

/-- The first token of the lines around a token: those in front of it are taken in, up to one
that holds a line feed. -/
def firstOfLine (s : Stream) : Nat → Nat
  | 0 => 0
  | i + 1 => if s[i]?.any breaksLine then i + 1 else firstOfLine s i

/-- How far the lines go on behind the first token of a stream: up to one that holds a line feed,
or to the last of all. -/
def restOfLine : Stream → Nat
  | [] => 0
  | t :: rest => if rest.isEmpty || breaksLine t then 0 else restOfLine rest + 1

/-- The last token of the lines around a token. -/
def lastOfLine (s : Stream) (i : Nat) : Nat := i + restOfLine (s.drop i)

/-- The lines of a text; line feeds at its end do not count, and an empty text has none. -/
def previewLines (t : Text) : List Text :=
  if t = [] then [] else Text.splitOn 10 (Text.trimEnd (· = 10) t)

/-- The lines before and after an edit. -/
structure Preview where
  before : List Text
  after : List Text
  deriving DecidableEq, Inhabited

/-- The texts around an edited token, before and after. -/
def previewTexts (s : Stream) (i : Nat) (newText : Text) : Text × Text :=
  let first := firstOfLine s i
  let last := lastOfLine s i
  let block := (s.drop first).take (last + 1 - first)
  (Stream.source block, Stream.source (Stream.setContent block (i - first : Nat) newText))

/-- The preview of an edit; nothing if there is no such token. -/
def preview? (fs : Option FileSet) (e : TokenEdit) : Option Preview :=
  match fs.bind fun fs => fs.get? e.pos.file with
  | none => none
  | some f =>
    let i := e.pos.token.toNat
    if i < f.tokens.length then
      let (before, after) := previewTexts f.tokens i e.newText
      some ⟨previewLines before, previewLines after⟩
    else none

end TokenLint.Report
