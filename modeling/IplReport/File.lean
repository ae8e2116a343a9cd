import IplReport.Memory.Bytes

/-!
# Files

What the program sees of the files around it: a path leads to bytes or to a reason why there
are none.
-/

namespace IplReport

/-- Why a file cannot be read. -/
inductive FileError where
  | notFound
  /-- A file stands where a directory is needed. -/
  | notADirectory
  | isADirectory
  /-- A name in the path, or the path, is longer than the system allows. -/
  | nameTooLong
  /-- The bytes are not UTF-8 where text is needed. -/
  | notUtf8
  | other (description : String) (number : Nat)
  deriving DecidableEq, Repr

def FileError.message : FileError → String
  | notFound => "No such file or directory (os error 2)"
  | notADirectory => "Not a directory (os error 20)"
  | isADirectory => "Is a directory (os error 21)"
  | nameTooLong => "File name too long (os error 36)"
  | notUtf8 => "stream did not contain valid UTF-8"
  | other description number => s!"{description} (os error {number})"

/-- The files that can be seen: the contents at a path. -/
abbrev FileView := String → Except FileError Bytes

def FileView.readText (files : FileView) (path : String) : Except FileError String := do
  let bytes ← files path
  match String.fromUTF8? (ByteArray.mk bytes.toArray) with
  | some text => return text
  | none => throw .notUtf8

end IplReport
