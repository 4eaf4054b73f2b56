import TokenLint.Text.Quoted
import TokenLint.Time.Duration

/-!
# Values of options

The value of an option is a text, a switch, a number or a duration. Numbers may be written
with a sign, in base 2, 8, 10 or 16, and with underscores between their digits; they have
64 bits.
-/

namespace TokenLint.Command

/-- What kind of value an option has. -/
inductive ValueKind where
  | text | switch | number | duration
  deriving DecidableEq, Inhabited

/-- The value of an option. -/
inductive Value where
  | text (t : Text)
  | switch (b : Bool)
  | number (n : Int)
  | duration (d : Time.Duration)
  deriving DecidableEq, Inhabited

/-! ## Numbers -/

/-- Why a text is no number. -/
inductive NumberError where
  | malformed
  | outOfRange
  deriving DecidableEq, Inhabited

/-- The base of a number and its digits. -/
def baseOf : Text → Nat × Text
  | 48 :: c :: d :: rest =>
    if c = 98 || c = 66 then (2, d :: rest)
    else if c = 111 || c = 79 then (8, d :: rest)
    else if c = 120 || c = 88 then (16, d :: rest)
    else (8, c :: d :: rest)
  | 48 :: rest => (8, rest)
  | t => (10, t)

/-- The value of a letter or a digit. -/
def digitValue? (b : UInt8) : Option Nat :=
  if Text.isDigit b then some (b.toNat - 48)
  else if 97 ≤ b && b ≤ 122 then some (b.toNat - 87)
  else if 65 ≤ b && b ≤ 90 then some (b.toNat - 55)
  else none

/-- The value of digits, between which underscores do not count. A number gets out of range
before what follows is looked at. -/
def readDigits (base value : Nat) : Text → Except NumberError Nat
  | [] => .ok value
  | 95 :: rest => readDigits base value rest
  | b :: rest =>
    match digitValue? b with
    | none => .error .malformed
    | some d =>
      if base ≤ d then .error .malformed
      else if 1 <<< 64 ≤ value * base + d then .error .outOfRange
      else readDigits base (value * base + d) rest

/-- Does every underscore stand between digits? `digit` says whether one comes before. -/
def underscoresFit (digit : Bool) : Text → Bool
  | [] => true
  | 95 :: rest => digit && !rest.isEmpty && rest.head? ≠ some 95 && underscoresFit false rest
  | _ :: rest => underscoresFit true rest

/-- Reads a number without a sign. -/
def readMagnitude (t : Text) : Except NumberError Nat :=
  let (base, digits) := baseOf t
  if t = [] then .error .malformed
  else
    match readDigits base 0 digits with
    | .ok n => if underscoresFit (t.head? = some 48) digits then .ok n else .error .malformed
    | e => e

/-- Reads a number. -/
def readNumber (t : Text) : Except NumberError Int :=
  let signed (negative : Bool) (t : Text) : Except NumberError Int :=
    match readMagnitude t with
    | .error e => .error e
    | .ok n =>
      if negative then if 1 <<< 63 < n then .error .outOfRange else .ok (-(n : Int))
      else if 1 <<< 63 ≤ n then .error .outOfRange else .ok n
  match t with
  | 45 :: rest => signed true rest
  | 43 :: rest => signed false rest
  | t => signed false t

/-- The words for an error in a text. -/
def NumberError.message (t : Text) (e : NumberError) : Text :=
  "strconv.ParseInt: parsing " ++ Text.quoted t ++ ": " ++ (match e with
    | .malformed => "invalid syntax"
    | .outOfRange => "value out of range")

/-! ## Switches -/

/-- The words that turn a switch on. -/
def onWords : List Text := ["1", "t", "T", "true", "TRUE", "True"]

/-- The words that turn a switch off. -/
def offWords : List Text := ["0", "f", "F", "false", "FALSE", "False"]

/-- Reads a switch. -/
def readSwitch? (t : Text) : Option Bool :=
  if onWords.contains t then some true else if offWords.contains t then some false else none

/-! ## All kinds -/

/-- Reads a value; otherwise says what is wrong with it. -/
def Value.read (kind : ValueKind) (t : Text) : Except Text Value :=
  match kind with
  | .text => .ok (.text t)
  | .switch =>
    match readSwitch? t with
    | some b => .ok (.switch b)
    | none => .error ("strconv.ParseBool: parsing " ++ Text.quoted t ++ ": invalid syntax")
  | .number => ((readNumber t).map Value.number).mapError (NumberError.message t)
  | .duration => ((Time.Duration.read t).map Value.duration).mapError (·.message t)

end TokenLint.Command
