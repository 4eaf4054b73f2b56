import TokenLint.Json

/-!
# Reading JSON

A text is cut into lexemes, and the lexemes are assembled into a value with a stack of the
containers that are still open. Containers may be nested 10000 deep and no deeper. Escaped
surrogates that do not form a pair, and stray bytes, become the replacement character.
-/

namespace TokenLint.Json

/-- A lexeme of JSON. -/
inductive Lexeme where
  | openArray | closeArray | openObject | closeObject | comma | colon
  | null
  | bool (b : Bool)
  | number (literal : Text)
  | string (t : Text)
  deriving DecidableEq, Inhabited

/-- A piece of a string literal: a byte, or the number of a four-digit escape. -/
inductive Piece where
  | byte (b : UInt8)
  | escape (code : Nat)
  deriving DecidableEq, Inhabited

/-- The value of a hexadecimal digit. -/
def hexValue? (b : UInt8) : Option Nat :=
  if Text.isDigit b then some (b.toNat - 48)
  else if 97 ≤ b && b ≤ 102 then some (b.toNat - 87)
  else if 65 ≤ b && b ≤ 70 then some (b.toNat - 55)
  else none

/-- The number written by four hexadecimal digits. -/
def hexQuad? (a b c d : UInt8) : Option Nat := do
  return (← hexValue? a) * 4096 + (← hexValue? b) * 256 + (← hexValue? c) * 16 + (← hexValue? d)

/-- The byte a one-letter escape stands for. -/
def letterEscape? (b : UInt8) : Option UInt8 :=
  if b = 34 || b = 92 || b = 47 then some b
  else if b = 98 then some 8
  else if b = 102 then some 12
  else if b = 110 then some 10
  else if b = 114 then some 13
  else if b = 116 then some 9
  else none

/-- The pieces up to the closing quote, and the text after it. -/
def pieces : Text → Option (List Piece × Text)
  | [] => none
  | 34 :: rest => some ([], rest)
  | 92 :: 117 :: a :: b :: c :: d :: rest =>
    match hexQuad? a b c d, pieces rest with
    | some code, some (ps, after) => some (.escape code :: ps, after)
    | _, _ => none
  | 92 :: b :: rest =>
    match letterEscape? b, pieces rest with
    | some b, some (ps, after) => some (.byte b :: ps, after)
    | _, _ => none
  | b :: rest =>
    if b < 0x20 || b = 92 then none
    else match pieces rest with
      | some (ps, after) => some (.byte b :: ps, after)
      | none => none

/-- Is the number the first half of a surrogate pair? -/
def isHighSurrogate (code : Nat) : Bool := 0xD800 ≤ code && code < 0xDC00

/-- Is the number the second half of a surrogate pair? -/
def isLowSurrogate (code : Nat) : Bool := 0xDC00 ≤ code && code < 0xE000

/-- The bytes the pieces stand for; bytes that are not UTF-8 are still among them. -/
def assemble : List Piece → Text
  | [] => []
  | .byte b :: rest => b :: assemble rest
  | .escape high :: .escape low :: rest =>
    if isHighSurrogate high && isLowSurrogate low then
      Text.encodeRune (0x10000 + (high - 0xD800) * 1024 + (low - 0xDC00)) ++ assemble rest
    else Text.encodeRune high ++ assemble (.escape low :: rest)
  | .escape code :: rest => Text.encodeRune code ++ assemble rest

/-- A string literal after its opening quote. -/
def readString (t : Text) : Option (Text × Text) :=
  (pieces t).map fun (ps, rest) => (Text.toValid (assemble ps), rest)

/-- The digits at the start of a text, at least one. -/
def someDigits (t : Text) : Option (Text × Text) :=
  let digits := t.takeWhile Text.isDigit
  if digits.isEmpty then none else some (digits, t.drop digits.length)

/-- The integer part of a number: zero, or digits that do not start with zero. -/
def integerPart (t : Text) : Option (Text × Text) :=
  match t with
  | 48 :: rest => some ([48], rest)
  | _ => someDigits t

/-- The fraction of a number, possibly empty. -/
def fractionPart (t : Text) : Option (Text × Text) :=
  match t with
  | 46 :: rest => (someDigits rest).map fun (ds, after) => (46 :: ds, after)
  | _ => some ([], t)

/-- The exponent of a number, possibly empty. -/
def exponentPart (t : Text) : Option (Text × Text) :=
  match t with
  | b :: rest =>
    if b = 101 || b = 69 then
      match rest with
      | s :: more =>
        if s = 43 || s = 45 then (someDigits more).map fun (ds, after) => (b :: s :: ds, after)
        else (someDigits rest).map fun (ds, after) => (b :: ds, after)
      | [] => none
    else some ([], t)
  | [] => some ([], [])

/-- A number without its sign. -/
def readUnsigned (t : Text) : Option (Text × Text) := do
  let (whole, t) ← integerPart t
  let (fraction, t) ← fractionPart t
  let (exponent, t) ← exponentPart t
  return (whole ++ fraction ++ exponent, t)

/-- The blanks that may stand between lexemes. -/
def isSpace (b : UInt8) : Bool := b = 32 || b = 9 || b = 10 || b = 13

/-- The lexeme that starts with the byte `b`, and the rest. -/
def lexeme (b : UInt8) (rest : Text) : Option (Lexeme × Text) :=
  if b = 91 then some (.openArray, rest)
  else if b = 93 then some (.closeArray, rest)
  else if b = 123 then some (.openObject, rest)
  else if b = 125 then some (.closeObject, rest)
  else if b = 44 then some (.comma, rest)
  else if b = 58 then some (.colon, rest)
  else if b = 34 then (readString rest).map fun (t, rest) => (.string t, rest)
  else if b = 45 then (readUnsigned rest).map fun (n, rest) => (.number (45 :: n), rest)
  else if Text.isDigit b then (readUnsigned (b :: rest)).map fun (n, rest) => (.number n, rest)
  else match b :: rest with
    | 110 :: 117 :: 108 :: 108 :: rest => some (.null, rest)
    | 116 :: 114 :: 117 :: 101 :: rest => some (.bool true, rest)
    | 102 :: 97 :: 108 :: 115 :: 101 :: rest => some (.bool false, rest)
    | _ => none

/-- The lexemes of a text, in at most `fuel` steps. -/
def lexFrom : Nat → Text → Option (List Lexeme)
  | _, [] => some []
  | 0, _ :: _ => none
  | fuel + 1, b :: rest =>
    if isSpace b then lexFrom fuel rest
    else match lexeme b rest with
      | none => none
      | some (x, rest) => (lexFrom fuel rest).map (x :: ·)

/-- The lexemes of a text. Each step uses up a byte, so the length bounds the steps. -/
def lex (t : Text) : Option (List Lexeme) := lexFrom t.length t

/-- A container that is still open, with what it holds so far, the latest first. -/
inductive Frame where
  | array (items : List Json)
  | object (members : List (Text × Json)) (key : Text)
  deriving Inhabited

/-- What may come next. -/
inductive Expecting where
  /-- A value. -/
  | value
  /-- The first item of an array, or its end. -/
  | firstItem
  /-- The first key of an object, or its end. -/
  | firstKey
  /-- A key, the members so far being given. -/
  | key (members : List (Text × Json))
  /-- The colon after a key. -/
  | colon (members : List (Text × Json)) (key : Text)
  /-- What follows a complete value. -/
  | after (v : Json)
  deriving Inhabited

/-- How deep containers may be nested. -/
def maxDepth : Nat := 10000

/-- Assembles lexemes into one value. -/
def build : Expecting → List Frame → List Lexeme → Option Json
  | .after v, [], [] => some v
  | _, _, [] => none
  | .after v, .array items :: stack, .comma :: rest => build .value (.array (v :: items) :: stack) rest
  | .after v, .array items :: stack, .closeArray :: rest =>
    build (.after (.array (v :: items).reverse)) stack rest
  | .after v, .object members key :: stack, .comma :: rest => build (.key ((key, v) :: members)) stack rest
  | .after v, .object members key :: stack, .closeObject :: rest =>
    build (.after (.object ((key, v) :: members).reverse)) stack rest
  | .after _, _, _ => none
  | .firstItem, _ :: stack, .closeArray :: rest => build (.after (.array [])) stack rest
  | .firstKey, stack, .closeObject :: rest => build (.after (.object [])) stack rest
  | .firstKey, stack, .string k :: rest => build (.colon [] k) stack rest
  | .key members, stack, .string k :: rest => build (.colon members k) stack rest
  | .colon members key, stack, .colon :: rest => build .value (.object members key :: stack) rest
  | .firstKey, _, _ | .key _, _, _ | .colon _ _, _, _ => none
  | _, stack, .null :: rest => build (.after .null) stack rest
  | _, stack, .bool b :: rest => build (.after (.bool b)) stack rest
  | _, stack, .number n :: rest => build (.after (.number n)) stack rest
  | _, stack, .string t :: rest => build (.after (.string t)) stack rest
  | _, stack, .openArray :: rest =>
    if stack.length < maxDepth then build .firstItem (.array [] :: stack) rest else none
  | _, stack, .openObject :: rest =>
    if stack.length < maxDepth then build .firstKey stack rest else none
  | _, _, _ => none

/-- The value a text writes; nothing if the text is not JSON. -/
def parse (t : Text) : Option Json := (lex t).bind (build .value [])

/-- The value of an integer literal that fits 64 bits; a fraction or an exponent makes a
number no integer. -/
def int64? (literal : Text) : Option Int64 :=
  let (negative, digits) := match literal with
    | 45 :: digits => (true, digits)
    | digits => (false, digits)
  if !digits.isEmpty && digits.all Text.isDigit then
    let n : Int := if negative then -(Text.digitsValue digits : Int) else Text.digitsValue digits
    if -9223372036854775808 ≤ n && n ≤ 9223372036854775807 then some (Int64.ofInt n) else none
  else none

end TokenLint.Json
