import TokenLint.Text

/-!
# Outputs

Texts are written in pieces. An output may refuse a piece; whoever writes then stops, and
what was written before stays written.
-/

namespace TokenLint

/-- What came of writing pieces. -/
structure Written where
  text : Text := []
  /-- Was a piece refused? -/
  failed : Bool := false
  deriving DecidableEq, Inhabited

namespace Written

/-- The complaint of an output that refuses a piece. -/
def shortWrite : Text := "short write"

/-- Writes pieces to an output that refuses the piece with number `limit`, counted from 1;
with 0 it refuses none. -/
def ofPieces (limit : Nat) (pieces : List Text) : Written :=
  if 0 < limit && limit ≤ pieces.length then ⟨(pieces.take (limit - 1)).flatten, true⟩
  else ⟨pieces.flatten, false⟩

end Written

end TokenLint
