import TokenLint.Text.Utf8

/-!
# TOML values and keys

What can stand in a TOML document. Of numbers with fractions and of dates only the fact is
kept that they are well-formed.
-/

namespace TokenLint.Toml

/-- A value. -/
inductive Value where
  | string (t : Text)
  | integer (n : Int)
  | float
  | boolean (b : Bool)
  | datetime
  | array (items : List Value)
  | table (entries : List (Text × Value))
  /-- The tables that were written under the same name, in order. -/
  | tables (items : List (List (Text × Value)))
  deriving Inhabited

/-- The entries of a table, in the order in which they were written. -/
abbrev Entries := List (Text × Value)

/-- The names on the way to a value. -/
abbrev Key := List Text

/-- May a character stand in a name without quotes? -/
def isBare (c : Nat) : Bool :=
  (48 ≤ c && c ≤ 57) || (65 ≤ c && c ≤ 90) || (97 ≤ c && c ≤ 122) || c == 95 || c == 45

/-- A character of a name in quotes. -/
def quoteRune (r : Rune) : Text :=
  if r.code == 34 || r.code == 92 then 92 :: r.bytes
  else if r.code == 8 then "\\b"
  else if r.code == 9 then "\\t"
  else if r.code == 10 then "\\n"
  else if r.code == 12 then "\\f"
  else if r.code == 13 then "\\r"
  else if r.code < 32 || r.code == 127 then "\\u" ++ Text.hexFixed 4 r.code
  else r.bytes

/-- A name, in quotes where they are needed. -/
def renderName (t : Text) : Text :=
  let rs := Text.runes t
  if t.isEmpty || !rs.all (fun r => isBare r.code) then 34 :: rs.flatMap quoteRune ++ [34] else t

/-- The written form of a key. -/
def renderKey (k : Key) : Text := Text.join "." (k.map renderName)

end TokenLint.Toml
