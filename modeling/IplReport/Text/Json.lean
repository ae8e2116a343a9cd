import IplReport.Text.Numeral

/-!
# JSON output

The two shapes of JSON that reports are written in: an object of strings on one line, and the
same object with each member on a line of its own.  Only quotes, backslashes and the control
characters below U+0020 are escaped inside strings; all else is written as it is.
-/

namespace IplReport.Json

/-! ## Section 1: Strings -/

/-- A character as it is written inside a JSON string. -/
def escapeChar (c : Char) : List Char :=
  match c with
  | '"' => ['\\', '"']
  | '\\' => ['\\', '\\']
  | '\n' => ['\\', 'n']
  | '\r' => ['\\', 'r']
  | '\t' => ['\\', 't']
  | '\x08' => ['\\', 'b']
  | '\x0c' => ['\\', 'f']
  | c =>
    if c.toNat < 0x20 then ['\\', 'u', '0', '0'] ++ hexByte (UInt8.ofNat c.toNat) else [c]

/-- A text as a JSON string, quotes included. -/
def quote (text : String) : String :=
  String.ofList ('"' :: text.toList.flatMap escapeChar ++ ['"'])

/-! ## Section 2: Objects -/

/-- A key and the string that belongs to it. -/
abbrev Member := String × String

/-- The opening brace of an object. -/
def openBrace : String := "\x7b"

/-- The closing brace of an object. -/
def closeBrace : String := "\x7d"

/-- An object of strings on one line, without spaces. -/
def compactObject (members : List Member) : String :=
  openBrace ++ ",".intercalate (members.map fun m => quote m.1 ++ ":" ++ quote m.2) ++ closeBrace

/-- An object of strings with each member on a line of its own, indented by two spaces. -/
def prettyObject (members : List Member) : String :=
  openBrace ++ "\n"
    ++ ",\n".intercalate (members.map fun m => "  " ++ quote m.1 ++ ": " ++ quote m.2)
    ++ "\n" ++ closeBrace

end IplReport.Json
