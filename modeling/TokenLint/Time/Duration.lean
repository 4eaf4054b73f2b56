import TokenLint.Time.Calendar

/-!
# Durations

A duration is a 64-bit number of nanoseconds. Its written form takes the largest unit below
a second that fits, and from a second on hours, minutes and seconds.
-/

namespace TokenLint.Time

/-- A number of nanoseconds. -/
abbrev Duration := Int64

namespace Duration

/-- Full microseconds; what is finer is cut off. -/
def micros (d : Duration) : Int := d.toInt.tdiv 1000

/-- The least and the greatest duration bound every result. -/
def clamp (n : Int) : Duration :=
  if n < -9223372036854775808 then Int64.minValue
  else if 9223372036854775807 < n then Int64.maxValue
  else Int64.ofInt n

/-- The nearest multiple of a microsecond; halves go away from zero. -/
def roundMicros (d : Duration) : Duration :=
  let n := d.toInt.natAbs
  let rounded : Int := ((n + 500) / 1000 * 1000 : Nat)
  clamp (if d.toInt < 0 then -rounded else rounded)

/-- A number of nanoseconds in a unit of `10 ^ places` nanoseconds. -/
def inUnit (n places : Nat) (unit : Text) : Text :=
  Text.ofNat (n / Nat.pow 10 places) ++ fractionDigits places (n % Nat.pow 10 places) ++ unit

/-- The written form of nanoseconds without a sign. -/
def magnitude (n : Nat) : Text :=
  if n = 0 then "0s"
  else if n < 1000 then inUnit n 0 "ns"
  else if n < 1000000 then inUnit n 3 "µs"
  else if n < 1000000000 then inUnit n 6 "ms"
  else
    let minutes := n / 60000000000
    let seconds := inUnit (n % 60000000000) 9 "s"
    if minutes = 0 then seconds
    else if minutes < 60 then Text.ofNat minutes ++ "m" ++ seconds
    else Text.ofNat (minutes / 60) ++ "h" ++ Text.ofNat (minutes % 60) ++ "m" ++ seconds

/-- The written form of a duration. -/
def render (d : Duration) : Text :=
  if d.toInt < 0 then 45 :: magnitude d.toInt.natAbs else magnitude d.toInt.natAbs

/-! ## Reading -/

/-- Why a text is no duration. -/
inductive ReadError where
  | invalid
  | missingUnit
  | unknownUnit (unit : Text)
  deriving DecidableEq, Inhabited

/-- A byte of a text in quotes. Bytes that are no printable ASCII are written in hexadecimal. -/
def quoteByte (b : UInt8) : Text :=
  if b < 32 || 128 ≤ b then "\\x" ++ Text.hex [b] else if b = 34 || b = 92 then [92, b] else [b]

/-- A text in quotes. -/
def quote (t : Text) : Text := 34 :: t.flatMap quoteByte ++ [34]

/-- The words for an error in a text. -/
def ReadError.message (t : Text) : ReadError → Text
  | .invalid => "time: invalid duration " ++ quote t
  | .missingUnit => "time: missing unit in duration " ++ quote t
  | .unknownUnit unit => "time: unknown unit " ++ quote unit ++ " in duration " ++ quote t

/-- The units with their nanoseconds. -/
def units : List (Text × Nat) :=
  [("ns", 1), ("us", 1000), ("µs", 1000), ("μs", 1000), ("ms", 1000000), ("s", 1000000000),
   ("m", 60000000000), ("h", 3600000000000)]

/-- Can a byte not be part of a unit? -/
def endsUnit (b : UInt8) : Bool := b = 46 || Text.isDigit b

/-- The nanoseconds of the numbers with units in a text, which may be as many as half the range
of 64 bits. -/
def readParts (sum : Nat) : Nat → Text → Except ReadError Nat
  | _, [] => .ok sum
  | 0, _ => .error .invalid
  | fuel + 1, t =>
    let whole := t.takeWhile Text.isDigit
    let rest := t.dropWhile Text.isDigit
    let (fraction, rest) := match rest with
      | 46 :: rest => (rest.takeWhile Text.isDigit, rest.dropWhile Text.isDigit)
      | rest => ([], rest)
    if (whole.isEmpty && fraction.isEmpty) || 1 <<< 63 < Text.digitsValue whole then .error .invalid
    else
      let unit := rest.takeWhile (!endsUnit ·)
      if unit.isEmpty then .error .missingUnit
      else match units.lookup unit with
        | none => .error (.unknownUnit unit)
        | some nanos =>
          let sum := sum + Text.digitsValue whole * nanos
            + Text.digitsValue fraction * nanos / Nat.pow 10 fraction.length
          if 1 <<< 63 < sum then .error .invalid
          else readParts sum fuel (rest.dropWhile (!endsUnit ·))

/-- Reads a duration: a sign, and numbers with units. Zero needs no unit. -/
def read (t : Text) : Except ReadError Duration :=
  let (negative, digits) := match t with
    | 45 :: rest => (true, rest)
    | 43 :: rest => (false, rest)
    | rest => (false, rest)
  if digits = "0" then .ok 0
  else if digits = [] then .error .invalid
  else
    match readParts 0 (digits.length + 1) digits with
    | .error e => .error e
    | .ok n =>
      if negative then .ok (Int64.ofInt (-(n : Int)))
      else if 1 <<< 63 ≤ n then .error .invalid
      else .ok (Int64.ofInt n)

end Duration

end TokenLint.Time
