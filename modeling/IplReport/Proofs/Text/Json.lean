import IplReport.Text.Json
import Mathlib.Data.List.Basic
import Mathlib.Tactic.SplitIfs

/-!
# Reading JSON objects of strings

A reader for objects whose members are all strings, to be compared with the two ways of writing
them.  It takes one character after the other and knows nothing of how objects are written here:
spacing may stand between any two parts, and strings may be escaped in all the ways that there are.

Main statements:
- `read_escapeChar`: a character is read back from the way it is written inside a string;
- `readObject_prettyObject` and `readObject_compactObject`: objects are read back;
- `prettyObject_eq_intercalate`: the lines of an object with each member on a line of its own.
-/

namespace IplReport.Json

/-! ## Section 1: The parts of an object -/

/-- The parts of an object of strings, without the spacing between them. -/
inductive Part where
  | opening
  | closing
  | colon
  | comma
  /-- A string, with its escapes resolved. -/
  | text (value : String)
  deriving DecidableEq, Repr

/-- The part that a character by itself is. -/
def mark? : Char → Option Part
  | '\x7b' => some .opening
  | '\x7d' => some .closing
  | ':' => some .colon
  | ',' => some .comma
  | _ => none

/-- Spacing may stand between parts. -/
def isSpacing (c : Char) : Bool :=
  c == ' ' || c == '\n' || c == '\r' || c == '\t'

/-- The character that a letter or a sign stands for after a backslash. -/
def escaped? : Char → Option Char
  | '"' => some '"'
  | '\\' => some '\\'
  | '/' => some '/'
  | 'b' => some '\x08'
  | 'f' => some '\x0c'
  | 'n' => some '\n'
  | 'r' => some '\r'
  | 't' => some '\t'
  | _ => none

/-! ## Section 2: The reader -/

/-- Where a reader is. -/
inductive Place where
  /-- Outside of strings. -/
  | between
  /-- In a string, after `text`. -/
  | within (text : List Char)
  /-- After a backslash. -/
  | escape (text : List Char)
  /-- Among the four hexadecimal digits of a code, after `count` of them. -/
  | code (text : List Char) (count value : Nat)
  deriving DecidableEq, Repr

/-- What has been read: the parts that are complete, and what has begun. -/
structure Reading where
  parts : List Part
  place : Place
  deriving DecidableEq, Repr

/-- Reads a character.  In a string, control characters below U+0020 must be escaped.  A code must
be that of a character by itself, so one half of a surrogate pair is not accepted. -/
def readChar (r : Reading) (c : Char) : Option Reading :=
  match r.place with
  | .between =>
    if c = '"' then some ⟨r.parts, .within []⟩
    else if isSpacing c then some r
    else (mark? c).map fun part => ⟨r.parts ++ [part], .between⟩
  | .within text =>
    if c = '"' then some ⟨r.parts ++ [.text (String.ofList text)], .between⟩
    else if c = '\\' then some ⟨r.parts, .escape text⟩
    else if c.toNat < 0x20 then none
    else some ⟨r.parts, .within (text ++ [c])⟩
  | .escape text =>
    if c = 'u' then some ⟨r.parts, .code text 0 0⟩
    else (escaped? c).map fun d => ⟨r.parts, .within (text ++ [d])⟩
  | .code text count value =>
    (digitValue? 16 c).bind fun digit =>
      if count < 3 then some ⟨r.parts, .code text (count + 1) (value * 16 + digit)⟩
      else if (value * 16 + digit).isValidChar then
        some ⟨r.parts, .within (text ++ [Char.ofNat (value * 16 + digit)])⟩
      else none

/-- The parts of a text, if it consists of parts and none of them is left unfinished. -/
def parts? (text : String) : Option (List Part) :=
  match text.toList.foldlM readChar ⟨[], .between⟩ with
  | some ⟨parts, .between⟩ => some parts
  | _ => none

/-- The members of an object after one of its members. -/
def laterMembers? : List Part → Option (List Member)
  | [.closing] => some []
  | .comma :: .text key :: .colon :: .text value :: rest =>
    (laterMembers? rest).map ((key, value) :: ·)
  | _ => none

/-- The members of an object of strings. -/
def members? : List Part → Option (List Member)
  | [.opening, .closing] => some []
  | .opening :: .text key :: .colon :: .text value :: rest =>
    (laterMembers? rest).map ((key, value) :: ·)
  | _ => none

/-- The members of the object that a text is, if it is an object of strings. -/
def readObject (text : String) : Option (List Member) :=
  (parts? text).bind members?

/-! ## Section 3: Parts are read back -/

/-- Wherever a new part may begin, the text is read as these parts. -/
def Writes (text : String) (parts : List Part) : Prop :=
  ∀ before, text.toList.foldlM readChar ⟨before, .between⟩ = some ⟨before ++ parts, .between⟩

variable {text text' separator : String} {parts parts' : List Part} {before : List Part}

theorem Writes.append (h : Writes text parts) (h' : Writes text' parts') :
    Writes (text ++ text') (parts ++ parts') := by
  intro before
  rw [String.toList_append, List.foldlM_append, h before, ← List.append_assoc]
  exact h' _

/-- What is written with something in between is read with what that stands for in between. -/
theorem Writes.intercalate {α : Type} {write : α → String} {partsOf : α → List Part}
    (h : ∀ a, Writes (write a) (partsOf a)) (hseparator : Writes separator parts) (as : List α) :
    Writes (separator.intercalate (as.map write)) (parts.intercalate (as.map partsOf)) := by
  -- the separator comes after all but the last of them
  induction as with
  | nil =>
    intro before
    simp
  | cons a rest ih =>
    cases rest with
    | nil => simpa using h a
    | cons a' rest =>
      rw [List.map_cons, List.map_cons, String.intercalate_cons_cons, List.map_cons, List.map_cons,
        List.intercalate_cons_cons]
      exact ((h a).append hseparator).append ih

theorem parts?_eq_some (h : Writes text parts) : parts? text = some parts := by
  rw [parts?, h []]
  rfl

/-! ## Section 4: Strings are read back -/

theorem digitValue?_digitChar :
    ∀ digit < 16, digitValue? 16 (Nat.digitChar digit) = some digit := by
  decide

/-- The digits of a byte are read as the character with that code. -/
theorem read_hexByte (text : List Char) (byte : UInt8) :
    (hexByte byte).foldlM readChar ⟨before, .code text 2 0⟩ =
      some ⟨before, .within (text ++ [Char.ofNat byte.toNat])⟩ := by
  have hbyte : byte.toNat < 256 := byte.toNat_lt
  have hhigh := digitValue?_digitChar (byte.toNat / 16) (by omega)
  have hlow := digitValue?_digitChar (byte.toNat % 16) (by omega)
  have hvalue : byte.toNat / 16 * 16 + byte.toNat % 16 = byte.toNat := by omega
  have hvalid : byte.toNat.isValidChar := Or.inl (by omega)
  simp [hexByte, readChar, hhigh, hlow, hvalue, hvalid]

/-- A character is read back from the way it is written. -/
theorem read_escapeChar (text : List Char) (c : Char) :
    (escapeChar c).foldlM readChar ⟨before, .within text⟩ =
      some ⟨before, .within (text ++ [c])⟩ := by
  unfold escapeChar
  split
  -- a character without an escape of its own is written by its code, or as it is
  case h_8 hquote hbackslash _ _ _ _ _ =>
    split_ifs with hcontrol
    · have hcode : (UInt8.ofNat c.toNat).toNat = c.toNat :=
        UInt8.toNat_ofNat_of_lt' (Nat.lt_trans hcontrol (by decide))
      show (hexByte (UInt8.ofNat c.toNat)).foldlM readChar ⟨before, .code text 2 0⟩ = _
      rw [read_hexByte, hcode, Char.ofNat_toNat]
    · have hquote : c ≠ '"' := hquote
      have hbackslash : c ≠ '\\' := hbackslash
      simp [readChar, hquote, hbackslash, hcontrol]
  all_goals rfl

theorem read_flatMap_escapeChar (text chars : List Char) :
    (chars.flatMap escapeChar).foldlM readChar ⟨before, .within text⟩ =
      some ⟨before, .within (text ++ chars)⟩ := by
  induction chars generalizing text with
  | nil => simp
  | cons c rest ih =>
    rw [List.flatMap_cons, List.foldlM_append, read_escapeChar]
    show (rest.flatMap escapeChar).foldlM readChar ⟨before, .within (text ++ [c])⟩ = _
    rw [ih, List.append_assoc, List.singleton_append]

/-- A text that is written as a string is read back as it was. -/
theorem writes_quote (text : String) : Writes (quote text) [.text text] := by
  intro before
  rw [quote, String.toList_ofList, List.cons_append, List.foldlM_cons]
  show (text.toList.flatMap escapeChar ++ ['"']).foldlM readChar ⟨before, .within []⟩ = _
  rw [List.foldlM_append, read_flatMap_escapeChar, List.nil_append]
  show some (Reading.mk (before ++ [.text (String.ofList text.toList)]) .between) = _
  rw [String.ofList_toList]

/-! ## Section 5: Objects are read back -/

def memberParts (m : Member) : List Part :=
  [.text m.1, .colon, .text m.2]

def objectParts (members : List Member) : List Part :=
  .opening :: [Part.comma].intercalate (members.map memberParts) ++ [.closing]

theorem intercalate_memberParts (m : Member) (rest : List Member) :
    [Part.comma].intercalate ((m :: rest).map memberParts) =
      memberParts m ++ rest.flatMap fun m => .comma :: memberParts m := by
  induction rest generalizing m with
  | nil => simp
  | cons m' rest ih =>
    rw [List.map_cons, List.map_cons, List.intercalate_cons_cons, ← List.map_cons, ih,
      List.flatMap_cons, List.append_assoc, List.singleton_append, List.cons_append]

theorem laterMembers?_flatMap (members : List Member) :
    laterMembers? (members.flatMap (fun m => .comma :: memberParts m) ++ [.closing]) =
      some members := by
  induction members with
  | nil => rfl
  | cons m rest ih =>
    -- the reader has taken off a comma and a member
    show (laterMembers? (rest.flatMap (fun m => .comma :: memberParts m) ++ [.closing])).map
      (m :: ·) = _
    rw [ih]
    rfl

theorem members?_objectParts (members : List Member) :
    members? (objectParts members) = some members := by
  cases members with
  | nil => rfl
  | cons m rest =>
    rw [objectParts, intercalate_memberParts]
    show (laterMembers? (rest.flatMap (fun m => .comma :: memberParts m) ++ [.closing])).map
      (m :: ·) = _
    rw [laterMembers?_flatMap]
    rfl

theorem writes_openBrace : Writes openBrace [.opening] := fun _ => rfl

theorem writes_closeBrace : Writes closeBrace [.closing] := fun _ => rfl

theorem readObject_of_writes {members : List Member} (h : Writes text (objectParts members)) :
    readObject text = some members := by
  rw [readObject, parts?_eq_some h]
  exact members?_objectParts members

/-- The members of an object on one line are read back. -/
theorem readObject_compactObject (members : List Member) :
    readObject (compactObject members) = some members := by
  have hcolon : Writes ":" [.colon] := fun _ => rfl
  have hcomma : Writes "," [.comma] := fun _ => rfl
  have hmember : ∀ m : Member, Writes (quote m.1 ++ ":" ++ quote m.2) (memberParts m) :=
    fun m => ((writes_quote m.1).append hcolon).append (writes_quote m.2)
  exact readObject_of_writes
    ((writes_openBrace.append (.intercalate hmember hcomma members)).append writes_closeBrace)

def memberLine (m : Member) : String :=
  "  " ++ quote m.1 ++ ": " ++ quote m.2

theorem writes_memberLine (m : Member) : Writes (memberLine m) (memberParts m) := by
  have hindent : Writes "  " [] := fun _ => by simp [readChar, isSpacing]
  have hcolon : Writes ": " [.colon] := fun _ => rfl
  exact ((hindent.append (writes_quote m.1)).append hcolon).append (writes_quote m.2)

theorem prettyObject_eq (members : List Member) :
    prettyObject members =
      openBrace ++ "\n" ++ ",\n".intercalate (members.map memberLine) ++ "\n" ++ closeBrace := rfl

/-- The members of an object are read back, each of them being on a line of its own. -/
theorem readObject_prettyObject (members : List Member) :
    readObject (prettyObject members) = some members := by
  have hcomma : Writes ",\n" [.comma] := fun _ => rfl
  have hline : Writes "\n" [] := fun _ => by simp [readChar, isSpacing]
  have hobject := (((writes_openBrace.append hline).append
    (.intercalate writes_memberLine hcomma members)).append hline).append writes_closeBrace
  simp only [List.append_nil] at hobject
  exact readObject_of_writes hobject

/-- An object may be written in other ways, but no comma may stand before its end. -/
example : readObject "\x7b\"a\":\n\"\\u004b\\/\"\x7d" = some [("a", "K/")] ∧
    readObject "\x7b\"a\":\"K/\",\x7d" = none := by decide +kernel

/-! ## Section 6: Lines -/

/-- No control character below U+0020 is written inside a string. -/
theorem le_toNat_of_mem_escapeChar {c d : Char} (h : d ∈ escapeChar c) : 0x20 ≤ d.toNat := by
  have hdigit : ∀ digit < 16, 0x20 ≤ (Nat.digitChar digit).toNat := by decide
  unfold escapeChar at h
  split at h
  -- any character that has no escape of its own: four hex digits, or itself
  case h_8 =>
    split_ifs at h with hcontrol
    · have hbyte := (UInt8.ofNat c.toNat).toNat_lt
      simp only [hexByte, List.cons_append, List.nil_append, List.mem_cons, List.not_mem_nil,
        or_false] at h
      rcases h with rfl | rfl | rfl | rfl | rfl | rfl
      · decide
      · decide
      · decide
      · decide
      · exact hdigit _ (by omega)
      · exact hdigit _ (by omega)
    · obtain rfl := List.mem_singleton.1 h
      omega
  all_goals
    simp only [List.mem_cons, List.not_mem_nil, or_false] at h
    rcases h with rfl | rfl <;> decide

theorem newline_notMem_quote (text : String) : '\n' ∉ (quote text).toList := by
  rw [quote, String.toList_ofList]
  simp only [List.cons_append, List.mem_cons, List.mem_append, List.mem_flatMap, List.not_mem_nil,
    or_false, not_or, not_exists, not_and]
  refine ⟨by decide, fun c _ hmem => ?_, by decide⟩
  exact absurd (le_toNat_of_mem_escapeChar hmem) (by decide)

theorem newline_notMem_intercalate {separator : String} {texts : List String}
    (hseparator : '\n' ∉ separator.toList) (h : ∀ text ∈ texts, '\n' ∉ text.toList) :
    '\n' ∉ (separator.intercalate texts).toList := by
  induction texts with
  | nil => simp
  | cons text rest ih =>
    obtain ⟨htext, hrest⟩ := List.forall_mem_cons.1 h
    cases rest with
    | nil => simpa using htext
    | cons text' rest =>
      simp only [String.intercalate_cons_cons, String.toList_append, List.mem_append, not_or]
      exact ⟨⟨htext, hseparator⟩, ih hrest⟩

/-- An object without spaces is on one line, whatever is in its strings. -/
theorem newline_notMem_compactObject (members : List Member) :
    '\n' ∉ (compactObject members).toList := by
  have hmember (m : Member) : '\n' ∉ (quote m.1 ++ ":" ++ quote m.2).toList := by
    simp [newline_notMem_quote]
  have hmembers := @newline_notMem_intercalate "," _ (by decide)
    (List.forall_mem_map.2 fun m (_ : m ∈ members) => hmember m)
  simp only [compactObject, String.toList_append, List.mem_append, not_or]
  exact ⟨⟨by decide, hmembers⟩, by decide⟩

/-- The lines of the members of an object.  All but the last one end in a comma. -/
def memberLines : List Member → List String
  | [] => []
  | [m] => [memberLine m]
  | m :: rest => (memberLine m ++ ",") :: memberLines rest

theorem length_memberLines (members : List Member) :
    (memberLines members).length = members.length := by
  fun_induction memberLines members with
  | case1 => rfl
  | case2 => rfl
  | case3 m rest _ ih => rw [List.length_cons, List.length_cons, ih]

theorem newline_notMem_memberLine (m : Member) : '\n' ∉ (memberLine m).toList := by
  simp [memberLine, newline_notMem_quote]

theorem newline_notMem_of_mem_memberLines {members : List Member} {line : String}
    (h : line ∈ memberLines members) : '\n' ∉ line.toList := by
  fun_induction memberLines members with
  | case1 => cases h
  | case2 m =>
    obtain rfl := List.mem_singleton.1 h
    exact newline_notMem_memberLine m
  | case3 m rest _ ih =>
    rcases List.mem_cons.1 h with rfl | h
    · simp [newline_notMem_memberLine m]
    · exact ih h

theorem memberLines_ne_nil {members : List Member} (h : members ≠ []) :
    memberLines members ≠ [] := by
  rwa [← List.length_pos_iff, length_memberLines, List.length_pos_iff]

/-- The commas are at the ends of the lines. -/
theorem intercalate_memberLines (members : List Member) :
    "\n".intercalate (memberLines members) = ",\n".intercalate (members.map memberLine) := by
  fun_induction memberLines members with
  | case1 => simp
  | case2 m => simp
  | case3 m rest hrest ih =>
    have hrest : rest ≠ [] := hrest
    have hcomma : memberLine m ++ "," ++ "\n" = memberLine m ++ ",\n" := String.append_assoc
    rw [String.intercalate_cons_of_ne_nil (memberLines_ne_nil hrest), ih, hcomma, List.map_cons,
      String.intercalate_cons_of_ne_nil (by simpa using hrest)]

/-- An object that has members consists of the lines of the members between those of the braces. -/
theorem prettyObject_eq_intercalate {members : List Member} (h : members ≠ []) :
    prettyObject members =
      "\n".intercalate (openBrace :: memberLines members ++ [closeBrace]) := by
  rw [prettyObject_eq, List.cons_append, String.intercalate_cons_of_ne_nil (by simp),
    String.intercalate_append_of_ne_nil (memberLines_ne_nil h) (by simp), intercalate_memberLines,
    String.intercalate_singleton]
  simp only [String.append_assoc]

end IplReport.Json
