import TokenLint.Yaml.Node

/-!
# What YAML scalars mean

A plain scalar without a tag may be the null value, a truth value, a number or a date; all
others are strings. A tag on a scalar has to fit what the scalar is.
-/

namespace TokenLint.Yaml

/-- What a scalar is. -/
inductive ScalarKind where
  | null | bool | int | float | timestamp | merge | string
  deriving DecidableEq, Inhabited

/-- The words for the null value. -/
def nullWords : List Text := ["", "~", "null", "Null", "NULL"]

/-- The words for the two truth values. -/
def boolWords : List Text := ["true", "True", "TRUE", "false", "False", "FALSE"]

/-- The words for numbers that have no digits. -/
def floatWords : List Text :=
  [".nan", ".NaN", ".NAN", ".inf", ".Inf", ".INF", "+.inf", "+.Inf", "+.INF", "-.inf", "-.Inf",
   "-.INF"]

/-- Without a sign in front. -/
def unsigned (t : Text) : Text :=
  match t with
  | 43 :: rest => rest
  | 45 :: rest => rest
  | t => t

/-- The value of digits in a base; nothing if one is no digit there. -/
def digitsIn? (base : Nat) (t : Text) : Option Nat :=
  if t.isEmpty then none
  else
    (t.mapM fun b => (hexValue? b.toNat).filter (· < base)).map fun ds =>
      ds.foldl (fun n d => n * base + d) 0

/-- The value of an integer without a sign. The base is given by two characters in front; a
zero in front of other digits means base eight. -/
def magnitude? (t : Text) : Option Nat :=
  match t with
  | 48 :: 120 :: rest | 48 :: 88 :: rest => digitsIn? 16 rest
  | 48 :: 111 :: rest | 48 :: 79 :: rest => digitsIn? 8 rest
  | 48 :: 98 :: rest | 48 :: 66 :: rest => digitsIn? 2 rest
  | 48 :: d :: rest => digitsIn? 8 (d :: rest)
  | t => digitsIn? 10 t

/-- Is the text an integer of at most 64 bits? -/
def isInteger (t : Text) : Bool :=
  match magnitude? (unsigned t) with
  | none => false
  | some n =>
    match t with
    | 45 :: _ => n ≤ 9223372036854775808
    | 43 :: _ => n ≤ 9223372036854775807
    | _ => n ≤ 18446744073709551615

/-- Is the text a decimal number? -/
def isDecimal (t : Text) : Bool :=
  let t := unsigned t
  let whole := t.takeWhile Text.isDigit
  let rest := t.dropWhile Text.isDigit
  let (fraction, rest) := match rest with
    | 46 :: rest => (rest.takeWhile Text.isDigit, rest.dropWhile Text.isDigit)
    | rest => ([], rest)
  let exponent := match rest with
    | [] => true
    | e :: rest => (e == 101 || e == 69) && !(unsigned rest).isEmpty && (unsigned rest).all Text.isDigit
  (!whole.isEmpty || !fraction.isEmpty) && exponent

/-- Is the text a date, possibly with a time of day? -/
def isTimestamp (t : Text) : Bool :=
  let isNumber (least most : Nat) (t : Text) : Bool :=
    !t.isEmpty && t.length ≤ 2 && t.all Text.isDigit && least ≤ Text.digitsValue t
      && Text.digitsValue t ≤ most
  let date (t : Text) : Bool :=
    match Text.splitOn 45 t with
    | [y, m, d] => y.length == 4 && y.all Text.isDigit && isNumber 1 12 m && isNumber 1 31 d
    | _ => false
  let time (t : Text) : Bool :=
    match Text.splitOn 58 (t.takeWhile fun b => Text.isDigit b || b == 58) with
    | [h, m, s] => isNumber 0 23 h && isNumber 0 59 m && isNumber 0 59 s
    | _ => false
  let isDatePart (b : UInt8) : Bool := Text.isDigit b || b == 45
  match t.dropWhile isDatePart with
  | [] => date t
  | sep :: rest =>
    (sep == 84 || sep == 116 || sep == 32) && date (t.takeWhile isDatePart) && time rest

/-- What a scalar without quotes and tag is. -/
def scalarKind (t : Text) : ScalarKind :=
  if nullWords.contains t then .null
  else if boolWords.contains t then .bool
  else if floatWords.contains t then .float
  else if t = "<<" then .merge
  else
    let first := t.headD 0
    if Text.isDigit first || first == 43 || first == 45 then
      let digits := t.filter (· ≠ 95)
      if isTimestamp t then .timestamp
      else if isInteger digits then .int
      else if isDecimal digits then .float
      else .string
    else if first == 46 && isDecimal t then .float
    else .string

/-- The short form of a tag. -/
def shortTag (tag : Text) : Text :=
  let start := Text.ofString "tag:yaml.org,2002:"
  if tag.hasStart start then "!!" ++ tag.drop start.length else tag

/-- The tag of a kind of scalars. -/
def ScalarKind.tag : ScalarKind → Text
  | .null => "!!null"
  | .bool => "!!bool"
  | .int => "!!int"
  | .float => "!!float"
  | .timestamp => "!!timestamp"
  | .merge => "!!merge"
  | .string => "!!str"

/-- The value of a character in base 64. -/
def base64Value? (b : UInt8) : Option Nat :=
  if 65 ≤ b && b ≤ 90 then some (b.toNat - 65)
  else if 97 ≤ b && b ≤ 122 then some (b.toNat - 71)
  else if Text.isDigit b then some (b.toNat + 4)
  else if b == 43 then some 62
  else if b == 47 then some 63
  else none

/-- The bytes that a text in base 64 stands for. -/
def base64? : Text → Option Text
  | [] => some []
  | [a, b, 61, 61] => do
    let x ← base64Value? a
    let y ← base64Value? b
    some [(x * 4 + y / 16).toUInt8]
  | [a, b, c, 61] => do
    let x ← base64Value? a
    let y ← base64Value? b
    let z ← base64Value? c
    some [(x * 4 + y / 16).toUInt8, (y % 16 * 16 + z / 4).toUInt8]
  | a :: b :: c :: d :: rest => do
    let x ← base64Value? a
    let y ← base64Value? b
    let z ← base64Value? c
    let w ← base64Value? d
    let more ← base64? rest
    some ((x * 4 + y / 16).toUInt8 :: (y % 16 * 16 + z / 4).toUInt8 :: (z % 4 * 64 + w).toUInt8 :: more)
  | _ => none

/-- The text of a scalar; the inner nothing is the null value, and the outer one means that
the tag does not fit. -/
def scalarText? (tag value : Text) (plain : Bool) : Option (Option Text) :=
  let tag := shortTag tag
  if tag = [] || tag = "!" then
    if plain && scalarKind value = .null then some none else some (some value)
  else if tag = "!!str" then some (some value)
  else if tag = "!!binary" then
    (base64? (value.filter fun b => b ≠ 10 && b ≠ 13)).map some
  else
    let kind := scalarKind value
    if kind.tag = tag || (kind = .int && tag = "!!float") then
      some (if kind = .null then none else some value)
    else none

end TokenLint.Yaml
