import IplReport.Toml.Blank
import IplReport.Toml.Value

/-!
# Dates and times in a settings file

A date, a time of day, or both with or without the offset from universal time.
-/

namespace IplReport.Toml

/-! ## Section 1: Parts -/

/-- Exactly `count` decimal digits, read as a number. -/
def fixedDigits? (count : Nat) (cs : List Char) : Option (Nat × List Char) :=
  let digits := cs.take count
  if digits.length = count ∧ digits.all Char.isDigit then
    some (digits.foldl (fun value c => value * 10 + (c.toNat - '0'.toNat)) 0, cs.drop count)
  else
    none

/-- Two decimal digits whose number is between two bounds. -/
def part? (least greatest : Nat) (cs : List Char) : Option (Nat × List Char) := do
  let (value, rest) ← fixedDigits? 2 cs
  if least ≤ value ∧ value ≤ greatest then return (value, rest) else none

/-- What follows a given character. -/
def after? (c : Char) : List Char → Option (List Char)
  | d :: rest => if d == c then some rest else none
  | [] => none

/-! ## Section 2: Dates and times of day -/

def daysOfMonth (year month : Nat) : Nat :=
  if month = 2 then
    if year % 4 = 0 ∧ (year % 100 ≠ 0 ∨ year % 400 = 0) then 29 else 28
  else if month = 4 ∨ month = 6 ∨ month = 9 ∨ month = 11 then 30
  else 31

def date? (cs : List Char) : Option (List Char) := do
  let (year, rest) ← fixedDigits? 4 cs
  let (month, rest) ← part? 1 12 (← after? '-' rest)
  let (_, rest) ← part? 1 (daysOfMonth year month) (← after? '-' rest)
  return rest

def time? (cs : List Char) : Option (List Char) := do
  let (_, rest) ← part? 0 23 cs
  let (_, rest) ← part? 0 59 (← after? ':' rest)
  let (_, rest) ← part? 0 60 (← after? ':' rest)
  match rest with
  | '.' :: c :: fraction =>
    if c.isDigit then return fraction.dropWhile Char.isDigit else return rest
  | _ => return rest

/-- What follows an offset from universal time. -/
def timeOffset? : List Char → Option (List Char)
  | [] => none
  | c :: rest =>
    if c == 'Z' || c == 'z' then
      some rest
    else if c == '+' || c == '-' then do
      let (_, rest) ← part? 0 23 rest
      let (_, rest) ← part? 0 59 (← after? ':' rest)
      return rest
    else
      none

/-- What follows the time of day that goes with a date, and its offset. -/
def timeOfDate? : List Char → Option (List Char)
  | [] => none
  | c :: rest =>
    if c == 'T' || c == 't' || c == ' ' then do
      let rest ← time? rest
      return (timeOffset? rest).getD rest
    else
      none

/-! ## Section 3: Moments -/

/-- What follows a date, a time of day or both. -/
def momentEnd? (cs : List Char) : Option (List Char) :=
  match date? cs with
  | some rest => some ((timeOfDate? rest).getD rest)
  | none => time? cs

/-- A date, a time of day or both. -/
def moment? (cs : List Char) : Option (Value × List Char) := do
  let rest ← momentEnd? cs
  return (.moment (String.ofList (cs.take (cs.length - rest.length))), rest)

end IplReport.Toml
