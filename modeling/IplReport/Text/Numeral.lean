/-!
# Written numbers

How numbers are written in messages (decimal, or hexadecimal after `0x`) and how an address
is read from a command line.
-/

namespace IplReport

/-! ## Section 1: Writing -/

/-- Hexadecimal digits of `n`, lower case, without a mark. -/
def hexDigits (n : Nat) : String :=
  String.ofList (Nat.toDigits 16 n)

/-- `n` in hexadecimal, lower case, after `0x`. -/
def hexLower (n : Nat) : String :=
  "0x" ++ hexDigits n

/-- `n` in hexadecimal with upper case digits, after `0x`. -/
def hexUpper (n : Nat) : String :=
  "0x" ++ String.ofList ((Nat.toDigits 16 n).map Char.toUpper)

/-- The two hexadecimal digits of a byte. -/
def hexByte (byte : UInt8) : List Char :=
  [Nat.digitChar (byte.toNat / 16), Nat.digitChar (byte.toNat % 16)]

/-! ## Section 2: Digits -/

/-- The value of a character as a digit in base `base`, letters of either case after nine. -/
def digitValue? (base : Nat) (c : Char) : Option Nat :=
  let value? :=
    if c.isDigit then some (c.toNat - '0'.toNat)
    else if 'a' ≤ c ∧ c ≤ 'z' then some (c.toNat - 'a'.toNat + 10)
    else if 'A' ≤ c ∧ c ≤ 'Z' then some (c.toNat - 'A'.toNat + 10)
    else none
  value?.filter (· < base)

/-! ## Section 3: Reading addresses -/

/-- Why a text is not an address. -/
inductive NumeralError where
  | empty
  /-- A character is not a digit of the base. -/
  | invalidDigit
  | tooLarge
  deriving DecidableEq, Repr

def NumeralError.message : NumeralError → String
  | empty => "cannot parse integer from empty string"
  | invalidDigit => "invalid digit found in string"
  | tooLarge => "number too large to fit in target type"

/-- Reads digits from the left, `acc` being the value of those before them.  Of two faults the
one further left is reported. -/
def readDigits (base : Nat) (acc : Nat) : List Char → Except NumeralError Nat
  | [] => .ok acc
  | c :: rest =>
    match digitValue? base c with
    | none => .error .invalidDigit
    | some d =>
      if acc * base + d < 2 ^ 64 then readDigits base (acc * base + d) rest else .error .tooLarge

/-- Reads an unsigned number: an optional plus sign, then one or more digits. -/
def readUnsigned (base : Nat) : List Char → Except NumeralError Nat
  | [] => .error .empty
  | ['+'] => .error .invalidDigit
  | '+' :: digits => readDigits base 0 digits
  | digits => readDigits base 0 digits

/-- Reads an address: decimal, or hexadecimal after `0x` or `0X`. -/
def readAddress (text : String) : Except NumeralError UInt64 :=
  let number :=
    match text.toList with
    | '0' :: 'x' :: digits => readUnsigned 16 digits
    | '0' :: 'X' :: digits => readUnsigned 16 digits
    | digits => readUnsigned 10 digits
  number.map UInt64.ofNat

end IplReport
