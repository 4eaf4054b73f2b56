import TokenLint.Text.Utf8
import TokenLint.Time.Duration

/-!
# Timers

A timer knows how long the phases of a run took. Durations are shown in milliseconds, as
binary floating point numbers with two decimal places.
-/

namespace TokenLint.Time

/-- A phase of a run. -/
structure Phase where
  name : Text := []
  duration : Duration := 0
  note : Text := []
  deriving DecidableEq, Inhabited

/-- Milliseconds. -/
def Duration.millis (d : Duration) : Float := d.toFloat / 1000000.0

/-- The quotient rounded to the nearest integer; a half goes to the even neighbour. -/
def roundToEven (num den : Nat) : Nat :=
  let q := num / den
  let r := num % den
  if 2 * r < den then q else if den < 2 * r then q + 1 else if q % 2 = 0 then q else q + 1

/-- The decimal text of a number of hundredths. -/
def hundredths (n : Nat) : Text := Text.ofNat (n / 100) ++ "." ++ digits 2 (n % 100)

/-- A finite number with two decimal places. The sign is shown for negative numbers and for
the negative zero. -/
def twoPlaces (x : Float) : Text :=
  let bits := x.toBits.toNat
  let exponent := (bits >>> 52) % 2048
  let fraction := bits % (1 <<< 52)
  let mantissa := if exponent = 0 then fraction else fraction + (1 <<< 52)
  let power : Int := (if exponent = 0 then 1 else exponent : Nat) - 1075
  let magnitude :=
    hundredths (roundToEven ((mantissa * 100) <<< power.toNat) (1 <<< (-power).toNat))
  if bits >>> 63 = 1 then 45 :: magnitude else magnitude

/-- A name and a number of milliseconds in columns. -/
def timingLine (name : Text) (millis : Float) (note : Text) : Text :=
  let number := twoPlaces millis
  "  " ++ Text.padRight 12 (Text.runeCount name) name ++ " " ++ Text.padLeft 8 number.length number
    ++ " ms" ++ Text.onlyIf (note ≠ []) ("  (" ++ note ++ ")") ++ "\n"

/-- The duration of all phases together. -/
def total (phases : List Phase) : Duration := phases.foldl (fun sum p => sum + p.duration) 0

/-- The lines about phases; none if there was no phase. -/
def timings (phases : List Phase) : List Text :=
  if phases.isEmpty then []
  else
    [Text.ofString "timings:\n"] ++ phases.map (fun p => timingLine p.name p.duration.millis p.note)
      ++ [timingLine "total" (total phases).millis []]

end TokenLint.Time
