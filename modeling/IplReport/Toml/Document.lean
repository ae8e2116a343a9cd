import IplReport.Toml.Entries
import IplReport.Toml.Moment
import IplReport.Toml.Number

/-!
# Documents

A settings file is a sequence of lines, each with a key and its value or with the header of a
table; values in brackets may go over several lines.  The lines after a header fill its table.
-/

namespace IplReport.Toml

/-! ## Section 1: Values -/

/-- A value that holds no other values. -/
def scalarValue? (cs : List Char) : Option (Value × List Char) :=
  match cs with
  | [] => none
  | 't' :: 'r' :: 'u' :: 'e' :: rest => some (.boolean true, rest)
  | 'f' :: 'a' :: 'l' :: 's' :: 'e' :: rest => some (.boolean false, rest)
  | c :: _ =>
    if c == '"' || c == '\x27' then
      (quotedText? cs).map fun (text, rest) => (.string text, rest)
    else
      (moment? cs).or ((float? cs).or (integer? cs))

/-- The items of an array, after the opening bracket or a comma. -/
def arrayItems? (item : Scan Value) : Nat → Scan (List Value)
  | 0, _ => none
  | fuel + 1, cs =>
    match skipGap false cs with
    | ']' :: rest => some ([], rest)
    | cs => do
      let (value, rest) ← item cs
      match skipGap false rest with
      | ']' :: rest => return ([value], rest)
      | ',' :: rest =>
        let (values, rest) ← arrayItems? item fuel rest
        return (value :: values, rest)
      | _ => none

def pair? (item : Scan Value) (cs : List Char) : Option ((KeyPath × Value) × List Char) := do
  let (path, rest) ← keyPath? maxKeyParts cs
  let rest ← after? '=' rest
  let (value, rest) ← item (skipBlanks rest)
  return ((path, value), rest)

/-- The keys and values of an inline table, after the opening brace or a comma. -/
def inlinePairs? (item : Scan Value) : Nat → Scan (List (KeyPath × Value))
  | 0, _ => none
  | fuel + 1, cs => do
    let (pair, rest) ← pair? item cs
    match skipBlanks rest with
    | '\x7d' :: rest => return ([pair], rest)
    | ',' :: rest =>
      let (pairs, rest) ← inlinePairs? item fuel rest
      return (pair :: pairs, rest)
    | _ => none

/-- An inline table, after the opening brace. -/
def inlineTable? (item : Scan Value) (cs : List Char) : Option (Value × List Char) :=
  match skipBlanks cs with
  | '\x7d' :: rest => some (.table [], rest)
  | cs => do
    let (pairs, rest) ← inlinePairs? item (cs.length + 1) cs
    return (.table (entriesToValues (← Entries.putAll? [] pairs)), rest)

/-- A value in which arrays and inline tables are nested at most `depth` deep. -/
def value? : Nat → Scan Value
  | 0, cs => scalarValue? cs
  | depth + 1, cs =>
    match cs with
    | '[' :: rest => do
      let (items, rest) ← arrayItems? (value? depth) (rest.length + 1) rest
      return (.array items, rest)
    | '\x7b' :: rest => inlineTable? (value? depth) rest
    | cs => scalarValue? cs

/-- How deep arrays and inline tables may be nested. -/
def maxDepth : Nat := 79

/-! ## Section 2: Lines -/

/-- What a line says. -/
inductive Line where
  | blank
  | pair (path : KeyPath) (value : Value)
  /-- The lines that follow fill a table. -/
  | tableHeader (path : KeyPath)
  /-- The lines that follow fill one more table of an array. -/
  | arrayHeader (path : KeyPath)

/-- A line with its line end. -/
def line? (cs : List Char) : Option (Line × List Char) :=
  match skipBlanks cs with
  | '[' :: '[' :: rest => do
    let (path, rest) ← keyPath? maxKeyParts rest
    let rest ← after? ']' (← after? ']' rest)
    return (.arrayHeader path, ← endOfLine? rest)
  | '[' :: rest => do
    let (path, rest) ← keyPath? maxKeyParts rest
    return (.tableHeader path, ← endOfLine? (← after? ']' rest))
  | cs =>
    match endOfLine? cs with
    | some rest => some (.blank, rest)
    | none => do
      let ((path, value), rest) ← pair? (value? maxDepth) cs
      return (.pair path value, ← endOfLine? rest)

/-- The lines of a text of at most `fuel` characters. -/
def lines? : Nat → List Char → Option (List Line)
  | 0, cs => if cs.isEmpty then some [] else none
  | fuel + 1, cs =>
    if cs.isEmpty then
      some []
    else do
      let (line, rest) ← line? cs
      return line :: (← lines? fuel rest)

/-! ## Section 3: Documents -/

/-- A header and the keys and values that follow it. -/
structure Section where
  isArray : Bool
  path : KeyPath
  pairs : List (KeyPath × Value)

/-- The keys and values before the first header, and the sections. -/
def sections : List Line → List (KeyPath × Value) × List Section
  | [] => ([], [])
  | .blank :: rest => sections rest
  | .pair path value :: rest =>
    let (pairs, others) := sections rest
    ((path, value) :: pairs, others)
  | .tableHeader path :: rest =>
    let (pairs, others) := sections rest
    ([], ⟨false, path, pairs⟩ :: others)
  | .arrayHeader path :: rest =>
    let (pairs, others) := sections rest
    ([], ⟨true, path, pairs⟩ :: others)

/-- Adds what a section says. -/
def addSection? (entries : Entries) (s : Section) : Option Entries :=
  if s.isArray then entries.appendTable? s.path s.pairs else entries.defineTable? s.path s.pairs

/-- The entries of the table that a text describes, or `none` if it is not a document.  A byte
order mark may come first. -/
def parse? (text : String) : Option (List (String × Value)) := do
  let cs := match text.toList with
    | '\ufeff' :: rest => rest
    | cs => cs
  let (pairs, sections) := sections (← lines? cs.length cs)
  let entries ← Entries.putAll? [] pairs
  return entriesToValues (← sections.foldlM addSection? entries)

end IplReport.Toml
