import TokenLint.Text.Utf8

/-!
# JSON values and their printed form

A JSON value keeps its numbers as they are written and its members in order. There are two
printed forms: one line without blanks, and indented by two blanks a level. Strings are
written in UTF-8; a stray byte becomes the escaped replacement character, and the two line
separators U+2028 and U+2029 are always escaped. For output that ends up in a web page
the characters `<`, `>` and `&` are escaped too.
-/

namespace TokenLint

/-- A JSON value. -/
inductive Json where
  | null
  | bool (b : Bool)
  /-- A number, as its literal. -/
  | number (literal : Text)
  | string (t : Text)
  | array (items : List Json)
  | object (members : List (Text × Json))
  deriving Inhabited

namespace Json

/-- An integer. -/
def ofInt (n : Int) : Json := .number (Text.ofInt n)

/-- A natural number. -/
def ofNat (n : Nat) : Json := .number (Text.ofNat n)

/-- The members that are present. -/
def ofMembers (members : List (Option (Text × Json))) : Json := .object (members.filterMap id)

/-- A member that is always present. -/
def member (key : Text) (value : Json) : Option (Text × Json) := some (key, value)

/-- A member that is left out when its condition fails. -/
def memberIf (present : Bool) (key : Text) (value : Json) : Option (Text × Json) :=
  if present then some (key, value) else none

/-- A list of strings. -/
def ofTexts (ts : List Text) : Json := .array (ts.map .string)

/-- Which characters are escaped beyond the necessary ones. -/
structure Escaping where
  /-- Are `<`, `>` and `&` escaped? -/
  forMarkup : Bool
  deriving Inhabited

/-- Only what must be escaped. -/
def plain : Escaping := ⟨false⟩

/-- Safe inside markup. -/
def markup : Escaping := ⟨true⟩

/-- One rune of a string. -/
def escapeRune (e : Escaping) (r : Rune) : Text :=
  if !r.valid then "\\ufffd"
  else if r.code == 34 || r.code == 92 then 92 :: r.bytes
  else if r.code == 8 then "\\b"
  else if r.code == 12 then "\\f"
  else if r.code == 10 then "\\n"
  else if r.code == 13 then "\\r"
  else if r.code == 9 then "\\t"
  else if r.code < 0x20 || r.code == 0x2028 || r.code == 0x2029
      || (e.forMarkup && (r.code == 60 || r.code == 62 || r.code == 38)) then
    "\\u" ++ Text.hexFixed 4 r.code
  else r.bytes

/-- A string in quotes. -/
def renderString (e : Escaping) (t : Text) : Text :=
  34 :: (Text.runes t).flatMap (escapeRune e) ++ [34]

mutual

/-- A value on one line. -/
def compact (e : Escaping) : Json → Text
  | .null => "null"
  | .bool true => "true"
  | .bool false => "false"
  | .number literal => literal
  | .string t => renderString e t
  | .array items => 91 :: Text.join "," (compactItems e items) ++ [93]
  | .object members => 123 :: Text.join "," (compactMembers e members) ++ [125]

/-- The items of an array, each on one line. -/
def compactItems (e : Escaping) : List Json → List Text
  | [] => []
  | v :: rest => compact e v :: compactItems e rest

/-- The members of an object, each on one line. -/
def compactMembers (e : Escaping) : List (Text × Json) → List Text
  | [] => []
  | (k, v) :: rest => (renderString e k ++ 58 :: compact e v) :: compactMembers e rest

end

/-- A line break and the indentation of a level. -/
def lineStart (level : Nat) : Text := 10 :: List.replicate (2 * level) 32

/-- The parts of a container, each on a line of its own one level deeper. -/
def block (level : Nat) (opening closing : UInt8) (parts : List Text) : Text :=
  if parts.isEmpty then [opening, closing]
  else
    opening :: lineStart (level + 1) ++ Text.join (44 :: lineStart (level + 1)) parts
      ++ lineStart level ++ [closing]

mutual

/-- A value indented below a level. -/
def indented (e : Escaping) (level : Nat) : Json → Text
  | .null => "null"
  | .bool true => "true"
  | .bool false => "false"
  | .number literal => literal
  | .string t => renderString e t
  | .array items => block level 91 93 (indentedItems e (level + 1) items)
  | .object members => block level 123 125 (indentedMembers e (level + 1) members)

/-- The items of an array. -/
def indentedItems (e : Escaping) (level : Nat) : List Json → List Text
  | [] => []
  | v :: rest => indented e level v :: indentedItems e level rest

/-- The members of an object. -/
def indentedMembers (e : Escaping) (level : Nat) : List (Text × Json) → List Text
  | [] => []
  | (k, v) :: rest =>
    (renderString e k ++ (58 : UInt8) :: 32 :: indented e level v) :: indentedMembers e level rest

end

/-- The indented form as a file: with a line break at the end. -/
def document (e : Escaping) (v : Json) : Text := indented e 0 v ++ [10]

end Json

end TokenLint
