/-!
# Binary floating-point numbers

Numbers of the binary64 format as exact values: a decimal numeral is rounded to the nearest of
them, and a number is written with the fewest decimal digits that read back as the same number.
All arithmetic is on natural numbers.
-/

namespace IplReport

/-- A number of the binary64 format.  A finite one is `mantissa * 2 ^ exponent`, where the
mantissa is less than `2 ^ 53` and the exponent at least `-1074`. -/
inductive Binary64 where
  | nan
  | infinity (negative : Bool)
  | finite (negative : Bool) (mantissa : Nat) (exponent : Int)
  deriving DecidableEq, Repr

namespace Binary64

/-! ## Section 1: Rounding a decimal numeral -/

/-- `base` to the power of an exponent as a factor of the numerator; 1 if it is negative. -/
def powerAbove (base : Nat) (exponent : Int) : Nat :=
  Nat.pow base exponent.toNat

/-- `base` to the power of an exponent as a factor of the denominator; 1 unless it is
negative. -/
def powerBelow (base : Nat) (exponent : Int) : Nat :=
  Nat.pow base (-exponent).toNat

/-- The quotient, rounded to the nearest natural number; a half goes to the even one. -/
def roundQuotient (num den : Nat) : Nat :=
  let quotient := num / den
  let rest := num % den
  if 2 * rest < den then quotient
  else if den < 2 * rest then quotient + 1
  else quotient + quotient % 2

/-- The number of the format nearest to `num / den`, which is not zero. -/
def ofQuotient (negative : Bool) (num den : Nat) : Binary64 :=
  let magnitude : Int := num.log2 - den.log2
  let scaled (exponent : Int) : Nat × Nat :=
    (num * powerBelow 2 exponent, den * powerAbove 2 exponent)
  -- the exponent that leaves 53 bits, or one more if it would leave 54
  let fine := scaled (magnitude - 53)
  let exponent := if fine.1 / fine.2 < 0x20000000000000 then magnitude - 53 else magnitude - 52
  let exponent := max exponent (-1074)
  let (top, bottom) := scaled exponent
  let mantissa := roundQuotient top bottom
  -- rounding up may reach the 53rd power of two, which is written with one bit less
  let (mantissa, exponent) :=
    if mantissa = 0x20000000000000 then (0x10000000000000, exponent + 1) else (mantissa, exponent)
  if 971 < exponent then .infinity negative else .finite negative mantissa exponent

/-- The number of the format nearest to `digits * 10 ^ exponent`. -/
def ofDecimal (negative : Bool) (digits : Nat) (exponent : Int) : Binary64 :=
  let magnitude : Int := (Nat.toDigits 10 digits).length + exponent
  if digits = 0 ∨ magnitude < -400 then
    .finite negative 0 (-1074)
  else if 400 < magnitude then
    .infinity negative
  else
    ofQuotient negative (digits * powerAbove 10 exponent) (powerBelow 10 exponent)

/-! ## Section 2: The shortest digits -/

/-- The shortest decimal for a positive number, as a multiple of a power of ten: the coarsest
power is taken that has a multiple among the reals that round to the number, and of two such
multiples the nearer, of two equally near the greater.  Powers are tried from `power` down. -/
def shortestFrom (mantissa : Nat) (exponent : Int) : Nat → Int → Nat × Int
  | 0, power => (0, power)
  | tries + 1, power =>
    let unit := powerAbove 2 (exponent - 2) * powerBelow 10 power
    let step := powerAbove 10 power * powerBelow 2 (exponent - 2)
    let value := 4 * mantissa * unit
    let low := (if mantissa = 0x10000000000000 ∧ -1074 < exponent then 4 * mantissa - 1
      else 4 * mantissa - 2) * unit
    let high := (4 * mantissa + 2) * unit
    let even := mantissa % 2 = 0
    let below := value / step
    let belowFits := low < below * step ∨ (even ∧ low = below * step)
    let aboveFits := (below + 1) * step < high ∨ (even ∧ (below + 1) * step = high)
    let belowNearer := 2 * (value - below * step) < step
    if belowFits ∧ (belowNearer ∨ ¬ aboveFits) then (below, power)
    else if aboveFits then (below + 1, power)
    else shortestFrom mantissa exponent tries (power - 1)

/-- The shortest decimal for a positive number. -/
def shortest (mantissa : Nat) (exponent : Int) : Nat × Int :=
  shortestFrom mantissa exponent 700 310

/-! ## Section 3: Writing -/

/-- A multiple of a power of ten in positional notation, with at least one digit on either side
of the point. -/
def positional (multiple : Nat) (power : Int) : String :=
  let digits := Nat.toDigits 10 multiple
  if 0 ≤ power then
    String.ofList (digits ++ List.replicate power.toNat '0') ++ ".0"
  else
    let places := (-power).toNat
    let digits := List.replicate (places + 1 - digits.length) '0' ++ digits
    String.ofList (digits.take (digits.length - places)) ++ "."
      ++ String.ofList (digits.drop (digits.length - places))

/-- A number in decimal, always in positional notation. -/
def toText : Binary64 → String
  | nan => "NaN"
  | infinity negative => if negative then "-inf" else "inf"
  | finite negative mantissa exponent =>
    let (multiple, power) := if mantissa = 0 then (0, 0) else shortest mantissa exponent
    (if negative then "-" else "") ++ positional multiple power

end Binary64

end IplReport
