import TokenLint.Json
import TokenLint.Text.Quoted
import TokenLint.Token.Stream

/-!
# Listing tokens

The tokens of a stream with their indices, for people and for programs.
-/

namespace TokenLint.Report

/-- The line for a token. -/
def tokenLine (t : Token × Nat) : Text :=
  let index := Text.ofNat t.2
  let name := t.1.kindName
  Text.padLeft 4 index.length index ++ ": " ++ Text.padRight 28 (Text.runeCount name) name ++ " "
    ++ Text.quoted t.1.content ++ " at " ++ Text.ofInt64 t.1.line ++ ":"
    ++ Text.ofInt64 t.1.column ++ "\n"

/-- The lines for the tokens of a stream, each written at once. -/
def tokenLines (s : Stream) : List Text := s.zipIdx.map tokenLine

/-- The tokens of a stream as JSON. -/
def tokensJson (s : Stream) : Json :=
  .array (s.zipIdx.map fun (t, i) =>
    .object
      [("index", Json.ofNat i), ("kind", .string t.kindName), ("content", .string t.content),
       ("line", Json.ofInt t.line.toInt), ("column", Json.ofInt t.column.toInt)])

end TokenLint.Report
