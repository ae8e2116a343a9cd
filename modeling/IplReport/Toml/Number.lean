import IplReport.Text.Numeral
import IplReport.Toml.Blank
import IplReport.Toml.Value

/-!
# Numbers in a settings file

Integers in four bases and floating-point numbers.  Underscores may stand between digits.
-/

namespace IplReport.Toml

/-! ## Section 1: Runs of digits -/

def isDigitOf (base : Nat) (c : Char) : Bool :=
  (digitValue? base c).isSome

/-- The further digits of a run, and what follows them. -/
def moreDigits (base : Nat) : List Char → List Char × List Char
  | [] => ([], [])
  | '_' :: c :: rest =>
    if isDigitOf base c then
      let (digits, rest) := moreDigits base rest
      (c :: digits, rest)
    else
      ([], '_' :: c :: rest)
  | c :: rest =>
    if isDigitOf base c then
      let (digits, rest) := moreDigits base rest
      (c :: digits, rest)
    else
      ([], c :: rest)

/-- A run of one or more digits. -/
def digits? (base : Nat) : Scan (List Char)
  | c :: rest =>
    if isDigitOf base c then
      let (digits, rest) := moreDigits base rest
      some (c :: digits, rest)
    else
      none
  | [] => none

def digitsValue (base : Nat) (digits : List Char) : Nat :=
  digits.foldl (fun value c => value * base + (digitValue? base c).getD 0) 0

/-- Whether there is a minus sign, and what follows the sign. -/
def sign : List Char → Bool × List Char
  | '-' :: rest => (true, rest)
  | '+' :: rest => (false, rest)
  | cs => (false, cs)

/-- The digits of a decimal integer: a zero stands alone. -/
def decimalDigits? : Scan (List Char)
  | '0' :: rest => some (['0'], rest)
  | cs => digits? 10 cs

/-! ## Section 2: Integers -/

/-- Integers are less than this, and not less than its negative. -/
def integerBound : Nat := 0x8000000000000000

/-- A non-negative integer in a base other than ten, after its mark. -/
def markedInteger? (base : Nat) (cs : List Char) : Option (Value × List Char) := do
  let (digits, rest) ← digits? base cs
  let value := digitsValue base digits
  if value < integerBound then return (.integer value, rest) else none

def decimalInteger? (cs : List Char) : Option (Value × List Char) := do
  let (negative, rest) := sign cs
  let (digits, rest) ← decimalDigits? rest
  let value : Int := digitsValue 10 digits
  let value := if negative then -value else value
  if -integerBound ≤ value ∧ value < integerBound then return (.integer value, rest) else none

def integer? : Scan Value
  | '0' :: 'x' :: rest => markedInteger? 16 rest
  | '0' :: 'o' :: rest => markedInteger? 8 rest
  | '0' :: 'b' :: rest => markedInteger? 2 rest
  | cs => decimalInteger? cs

/-! ## Section 3: Floating-point numbers -/

/-- A point and digits after it. -/
def fraction? : Scan (List Char)
  | '.' :: rest => digits? 10 rest
  | _ => none

def exponent? : Scan Int
  | c :: rest =>
    if c == 'e' || c == 'E' then do
      let (negative, rest) := sign rest
      let (digits, rest) ← digits? 10 rest
      let value : Int := digitsValue 10 digits
      return (if negative then -value else value, rest)
    else
      none
  | [] => none

/-- The digits after the point and the exponent of a decimal number, at least one of the two. -/
def fractionOrExponent? (cs : List Char) : Option ((List Char × Int) × List Char) :=
  match fraction? cs with
  | some (digits, rest) =>
    match exponent? rest with
    | some (exponent, rest) => some ((digits, exponent), rest)
    | none => some ((digits, 0), rest)
  | none => (exponent? cs).map fun (exponent, rest) => (([], exponent), rest)

/-- A decimal number with a fraction or an exponent.  One that rounds to positive infinity is
refused. -/
def decimalFloat? (cs : List Char) : Option (Value × List Char) := do
  let (negative, rest) := sign cs
  let (whole, rest) ← decimalDigits? rest
  let ((fraction, exponent), rest) ← fractionOrExponent? rest
  let value :=
    Binary64.ofDecimal negative (digitsValue 10 (whole ++ fraction)) (exponent - fraction.length)
  if value = .infinity false then none else return (.float value, rest)

/-- An infinity or not a number, with or without a sign. -/
def specialFloat? (cs : List Char) : Option (Value × List Char) :=
  let (negative, rest) := sign cs
  match rest with
  | 'i' :: 'n' :: 'f' :: rest => some (.float (.infinity negative), rest)
  | 'n' :: 'a' :: 'n' :: rest => some (.float .nan, rest)
  | _ => none

def float? (cs : List Char) : Option (Value × List Char) :=
  (decimalFloat? cs).or (specialFloat? cs)

end IplReport.Toml
