import TokenLint.Token.Kind

/-!
# Tokens and token streams

A token stream is the text of a file cut into tokens: the contents of the tokens, in order,
are the source. Positions in a stream are integers, so that a search can start before the
first token or behind the last.
-/

namespace TokenLint

/-- One token of a file. -/
structure Token where
  kind : Kind := .invalid
  /-- The name the tokenizer gave; empty for punctuation. -/
  name : Text := []
  content : Text := []
  /-- The line, from 1 on; 0 when unknown. -/
  line : Int64 := 0
  /-- The column, from 1 on; 0 when unknown. -/
  column : Int64 := 0
  deriving DecidableEq, Inhabited

namespace Token

/-- Is the token white space or a comment? -/
def isTrivia (t : Token) : Bool := t.kind ∈ Kind.trivia

/-- Is the token a string in quotes without variables? -/
def isStringLiteral (t : Token) : Bool := t.kind = .stringLiteral

/-- The tokenizer's name, or that of the kind. -/
def kindName (t : Token) : Text := if t.name = [] then t.kind.name else t.name

end Token

/-- The tokens of a file, in order. -/
abbrev Stream := List Token

namespace Stream

/-- Is there a token at this position? -/
def valid (s : Stream) (pos : Int) : Bool := 0 ≤ pos && pos < s.length

/-- The token at a position; an empty invalid token where there is none. -/
def tokenAt (s : Stream) (pos : Int) : Token := if pos < 0 then {} else s.getD pos.toNat {}

/-- The first position from `start` on whose token satisfies `p`. -/
def findFrom (p : Token → Bool) (s : Stream) (start : Int) : Option Nat :=
  ((s.drop start.toNat).findIdx? p).map (· + start.toNat)

/-- The first position from `start` on with a token of one of the kinds. -/
def findNext (s : Stream) (kinds : List Kind) (start : Int) : Option Nat :=
  s.findFrom (fun t => t.kind ∈ kinds) start

/-- The first position from `start` on with a token of none of the kinds. -/
def findNextExcluding (s : Stream) (kinds : List Kind) (start : Int) : Option Nat :=
  s.findFrom (fun t => t.kind ∉ kinds) start

/-- The last position up to `start` with a token of none of the kinds. -/
def findPrevExcluding (s : Stream) (kinds : List Kind) (start : Int) : Option Nat :=
  let before := s.take (start + 1).toNat
  (before.reverse.findIdx? fun t => t.kind ∉ kinds).map (before.length - 1 - ·)

/-- The text of the file. -/
def source (s : Stream) : Text := s.flatMap Token.content

/-- The stream with another content for one token; nothing happens where there is no token. -/
def setContent (s : Stream) (pos : Int) (content : Text) : Stream :=
  if pos < 0 then s else s.modify pos.toNat fun t => { t with content := content }

end Stream

end TokenLint
