import IplReport.Text.Numeral
import IplReport.Toml.Blank

/-!
# Quoted texts and keys

Four kinds of quoted text: with or without escapes, on one line or on several.  The extent of
a quoted text is found first, and escapes are resolved in a second step.
-/

namespace IplReport.Toml

/-! ## Section 1: Escapes -/

/-- The character of a code point in hexadecimal. -/
def scalar? (digits : List Char) : Option Char := do
  let code ← digits.foldlM (fun code c => (digitValue? 16 c).map (code * 16 + ·)) 0
  if code.isValidChar then some (Char.ofNat code) else none

/-- The character that a letter stands for after a backslash. -/
def escaped? : Char → Option Char
  | 'b' => some '\x08'
  | 't' => some '\t'
  | 'n' => some '\n'
  | 'f' => some '\x0c'
  | 'r' => some '\r'
  | '"' => some '"'
  | '\\' => some '\\'
  | _ => none

/-- Resolves the escapes of a text.  A backslash at the end of a line takes the blanks and line
ends after it away; `trimming` says that this is going on. -/
def unescape (trimming : Bool) : List Char → Option (List Char)
  | [] => some []
  | '\\' :: rest =>
    if (skipBlanks rest).head? == some '\n' then
      unescape true rest
    else
      match rest with
      | 'u' :: a :: b :: c :: d :: rest => do
        return (← scalar? [a, b, c, d]) :: (← unescape false rest)
      | 'U' :: a :: b :: c :: d :: e :: f :: g :: h :: rest => do
        return (← scalar? [a, b, c, d, e, f, g, h]) :: (← unescape false rest)
      | c :: rest => do
        return (← escaped? c) :: (← unescape false rest)
      | [] => none
  | c :: rest =>
    if trimming && (isBlank c || c == '\n') then unescape true rest
    else do return c :: (← unescape false rest)

/-! ## Section 2: The extent of a quoted text -/

/-- The characters up to the closing quote of a text on one line.  With `escapes` a backslash
keeps the next character from closing it. -/
def lineBody (quote : Char) (escapes : Bool) : List Char → Option (List Char × List Char)
  | [] => none
  | c :: rest =>
    if c == quote then
      some ([], rest)
    else if !isTextChar c then
      none
    else if escapes && c == '\\' then
      match rest with
      | [] => none
      | next :: rest =>
        if isTextChar next then do
          let (body, rest) ← lineBody quote escapes rest
          return (c :: next :: body, rest)
        else
          none
    else do
      let (body, rest) ← lineBody quote escapes rest
      return (c :: body, rest)

/-- Closes a text on several lines after a run of quotes: the last three close it, and up to two
before them belong to the text. -/
def closeBlock (quote : Char) (run : Nat) (rest : List Char) : Option (List Char × List Char) :=
  if 3 ≤ run ∧ run ≤ 5 then some (List.replicate (run - 3) quote, rest) else none

/-- The characters up to the closing quotes of a text on several lines, after `run` quotes. Line
ends are single line feeds in what is found. -/
def blockBody (quote : Char) (escapes : Bool) (run : Nat) :
    List Char → Option (List Char × List Char)
  | [] => closeBlock quote run []
  | c :: rest =>
    if c == quote then
      blockBody quote escapes (run + 1) rest
    else if 3 ≤ run then
      closeBlock quote run (c :: rest)
    else if escapes && c == '\\' then
      match rest with
      | [] => none
      | '\r' :: '\n' :: rest => do
        let (body, rest) ← blockBody quote escapes 0 rest
        return (List.replicate run quote ++ '\\' :: '\n' :: body, rest)
      | next :: rest => do
        let (body, rest) ← blockBody quote escapes 0 rest
        return (List.replicate run quote ++ '\\' :: next :: body, rest)
    else if c == '\r' then
      match rest with
      | '\n' :: rest => do
        let (body, rest) ← blockBody quote escapes 0 rest
        return (List.replicate run quote ++ '\n' :: body, rest)
      | _ => none
    else if c == '\n' || isTextChar c then do
      let (body, rest) ← blockBody quote escapes 0 rest
      return (List.replicate run quote ++ c :: body, rest)
    else
      none

/-! ## Section 3: Quoted texts -/

/-- A quoted text on one line, after its opening quote. -/
def lineText (quote : Char) (cs : List Char) : Option (String × List Char) := do
  let (body, rest) ← lineBody quote (quote == '"') cs
  let body ← if quote == '"' then unescape false body else some body
  return (String.ofList body, rest)

/-- A quoted text on several lines, after its opening quotes.  A line end right after these
does not belong to it. -/
def blockText (quote : Char) (cs : List Char) : Option (String × List Char) := do
  let (body, rest) ← blockBody quote (quote == '"') 0 ((lineEnd? cs).getD cs)
  let body ← if quote == '"' then unescape false body else some body
  return (String.ofList body, rest)

/-- A quoted text of any kind. -/
def quotedText? : Scan String
  | '"' :: '"' :: '"' :: rest => blockText '"' rest
  | '\x27' :: '\x27' :: '\x27' :: rest => blockText '\x27' rest
  | '"' :: rest => lineText '"' rest
  | '\x27' :: rest => lineText '\x27' rest
  | _ => none

/-! ## Section 4: Keys -/

/-- The characters of keys without quotes. -/
def isBareKeyChar (c : Char) : Bool :=
  c.isAlphanum || c == '-' || c == '_'

/-- A single key: without quotes, or a quoted text on one line. -/
def key? : Scan String
  | '"' :: rest => lineText '"' rest
  | '\x27' :: rest => lineText '\x27' rest
  | cs =>
    let bare := cs.takeWhile isBareKeyChar
    if bare.isEmpty then none else some (String.ofList bare, cs.dropWhile isBareKeyChar)

/-- A key with the keys of the tables it is in, the outermost first. -/
structure KeyPath where
  parents : List String
  key : String
  deriving DecidableEq, Repr

/-- Keys with points between them, at most `parts` of them, and the blanks around them. -/
def keyPath? (parts : Nat) : Scan KeyPath := fun cs =>
  match parts with
  | 0 => none
  | parts + 1 => do
    let (key, rest) ← key? (skipBlanks cs)
    match skipBlanks rest with
    | '.' :: rest =>
      let (path, rest) ← keyPath? parts rest
      return (⟨key :: path.parents, path.key⟩, rest)
    | rest => return (⟨[], key⟩, rest)

/-- The highest number of keys with points between them. -/
def maxKeyParts : Nat := 79

end IplReport.Toml
