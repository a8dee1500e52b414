/-! The values of a TOML document. Decimal numbers are rounded to 53-bit significands and written
with the fewest digits that are rounded back, all by arithmetic on natural numbers. -/
namespace KotlinCompile.Decimal

structure Magnitude where
  significand : Nat
  exponent : Int
deriving DecidableEq

inductive Binary64 where
  | finite (negative : Bool) (magnitude : Magnitude)
  | infinite (negative : Bool)
  | notANumber
deriving DecidableEq

def leastExponent : Int := -1074

def scaled (num den : Nat) (exponent : Int) : Nat × Nat :=
  if 0 ≤ exponent then (num, den * Nat.pow 2 exponent.toNat)
  else (num * Nat.pow 2 (-exponent).toNat, den)

def roundHalfEven (num den : Nat) : Nat :=
  let whole := num / den
  let rest := num % den
  if 2 * rest < den then whole
  else if den < 2 * rest then whole + 1
  else whole + whole % 2

def nearest? (num den : Nat) : Option Magnitude :=
  if num = 0 then some ⟨0, leastExponent⟩
  else
    let guess : Int := (Nat.log2 num : Int) - Nat.log2 den - 52
    let tried := scaled num den guess
    let exponent := max leastExponent (if tried.1 / tried.2 < Nat.pow 2 52 then guess - 1 else guess)
    let fraction := scaled num den exponent
    let significand := roundHalfEven fraction.1 fraction.2
    let result : Magnitude :=
      if significand = Nat.pow 2 53 then ⟨Nat.pow 2 52, exponent + 1⟩ else ⟨significand, exponent⟩
    if 971 < result.exponent then none else some result

/-- The nearest magnitude to `digits * 10 ^ exponent`. Beyond four hundred places on either side
the answer does not depend on the exponent any more. -/
def ofDecimal? (digits : Nat) (exponent : Int) : Option Magnitude :=
  let size : Int := (Nat.toDigits 10 digits).length + exponent
  if digits = 0 ∨ size < -400 then some ⟨0, leastExponent⟩
  else if 400 < size then none
  else if 0 ≤ exponent then nearest? (digits * Nat.pow 10 exponent.toNat) 1
  else nearest? digits (Nat.pow 10 (-exponent).toNat)

def decimalOver (digits : Nat) (exponent power : Int) : Nat × Nat :=
  let num := digits * Nat.pow 10 exponent.toNat * Nat.pow 2 (-power).toNat
  let den := Nat.pow 10 (-exponent).toNat * Nat.pow 2 power.toNat
  (num, den)

/-- Whether `digits * 10 ^ exponent` is rounded to the magnitude: it lies between the midpoints to
the neighbours, or on one of them if the significand is even. In quarters of a unit. -/
def rounds (m : Magnitude) (digits : Nat) (exponent : Int) : Bool :=
  let below := if m.significand = Nat.pow 2 52 ∧ leastExponent < m.exponent then 1 else 2
  let fraction := decimalOver digits exponent (m.exponent - 2)
  let low := (4 * m.significand - below) * fraction.2
  let high := (4 * m.significand + 2) * fraction.2
  if m.significand % 2 = 0 then decide (low ≤ fraction.1) && decide (fraction.1 ≤ high)
  else decide (low < fraction.1) && decide (fraction.1 < high)

/-- The whole multiple of `10 ^ exponent` at or under the magnitude, and twice what is left of it
over the unit, to tell which neighbour is nearer. -/
def floorOn (m : Magnitude) (exponent : Int) : Nat × Ordering :=
  let num := m.significand * Nat.pow 2 m.exponent.toNat * Nat.pow 10 (-exponent).toNat
  let den := Nat.pow 2 (-m.exponent).toNat * Nat.pow 10 exponent.toNat
  (num / den, compare (2 * (num % den)) den)

def places (m : Magnitude) : Int :=
  let whole := floorOn m (-400)
  (Nat.toDigits 10 whole.1).length - 400

/-- The shortest digits that are rounded to the magnitude, of two the nearer, with at most `tries`
digits dropped from the seventeen that always suffice. -/
def shortestFrom (m : Magnitude) (count : Nat) : Nat → Nat × Int
  | 0 => let exponent := places m - count; ((floorOn m exponent).1, exponent)
  | more + 1 =>
    let exponent := places m - count
    let (digits, side) := floorOn m exponent
    let below := rounds m digits exponent && digits != 0
    let above := rounds m (digits + 1) exponent
    if below && (!above || side.isLE) then (digits, exponent)
    else if above then (digits + 1, exponent)
    else shortestFrom m (count + 1) more

def shortest (m : Magnitude) : Nat × Int := shortestFrom m 1 20

def positional (digits : Nat) (exponent : Int) : String :=
  let text := Nat.toDigits 10 digits
  if 0 ≤ exponent then String.ofList (text ++ List.replicate exponent.toNat '0') ++ ".0"
  else
    let after := (-exponent).toNat
    let padded := List.replicate (after + 1 - text.length) '0' ++ text
    let split := padded.length - after
    String.ofList (padded.take split ++ '.' :: padded.drop split)

def Binary64.text : Binary64 → String
  | finite negative m =>
    (if negative then "-" else "") ++
      if m.significand = 0 then "0.0" else
        let (digits, exponent) := shortest m
        positional digits exponent
  | infinite negative => if negative then "-inf" else "inf"
  | notANumber => "NaN"

end KotlinCompile.Decimal

namespace KotlinCompile.Toml

inductive Origin where
  | header
  /-- Named only on the way to a longer header. -/
  | implied
  | dotted
  | braces
deriving DecidableEq

inductive Value where
  | boolean (value : Bool)
  | integer (value : Int)
  | float (value : Decimal.Binary64)
  | text (value : String)
  | moment (value : String)
  | list (items : List Value)
  | tables (items : List Value)
  | table (origin : Origin) (entries : List (String × Value))

abbrev Entries := List (String × Value)

namespace Value

/-- The key under which a date or time is handed on where a table was asked for. -/
def momentKey : String := "$__toml_private_datetime"

/-- The entries of a table in document order. -/
def entries? : Value → Option Entries
  | table _ entries => some entries
  | moment value => some [(momentKey, .text value)]
  | _ => none

def items? : Value → Option (List Value)
  | list items => some items
  | tables items => some items
  | _ => none

end Value
end KotlinCompile.Toml
