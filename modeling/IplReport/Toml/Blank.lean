/-!
# Blanks, comments and line ends

What may stand between the parts of a settings file.  Scanning functions take the characters
that are left and give back those after what they found.
-/

namespace IplReport.Toml

/-- A function that finds something at the start of a text. -/
abbrev Scan (α : Type) := List Char → Option (α × List Char)

/-- Blanks are spaces and tabs. -/
def isBlank (c : Char) : Bool :=
  c == ' ' || c == '\t'

/-- The characters of texts and comments: all but control characters other than the tab. -/
def isTextChar (c : Char) : Bool :=
  c == '\t' || (0x20 ≤ c.toNat && c.toNat != 0x7f)

def skipBlanks (cs : List Char) : List Char :=
  cs.dropWhile isBlank

/-- What follows a comment, if there is one. -/
def skipComment : List Char → List Char
  | '#' :: rest => rest.dropWhile isTextChar
  | cs => cs

def lineEnd? : List Char → Option (List Char)
  | '\n' :: rest => some rest
  | '\r' :: '\n' :: rest => some rest
  | _ => none

/-- What follows the rest of a line on which only blanks and a comment are left. -/
def endOfLine? (cs : List Char) : Option (List Char) :=
  match skipComment (skipBlanks cs) with
  | [] => some []
  | rest => lineEnd? rest

/-- What follows blanks, comments and line ends; `inComment` says whether a comment has begun. -/
def skipGap (inComment : Bool) : List Char → List Char
  | [] => []
  | '\n' :: rest => skipGap false rest
  | '\r' :: '\n' :: rest => skipGap false rest
  | c :: rest =>
    if inComment && isTextChar c then skipGap true rest
    else if !inComment && isBlank c then skipGap false rest
    else if !inComment && c == '#' then skipGap true rest
    else c :: rest

end IplReport.Toml
