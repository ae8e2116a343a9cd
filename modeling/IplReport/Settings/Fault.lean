import IplReport.File
import IplReport.Memory.AddressingMode
import IplReport.Text.Quoted
import IplReport.Toml.Value

/-!
# Faults of settings

Why a file or a text does not hold settings.  What does not fit is named by its shape and, where
it is short, by its value.
-/

namespace IplReport

open Toml (Value)

/-! ## Section 1: What is found and what is wanted -/

/-- What is found in a place where something else is wanted. -/
inductive Shape where
  | integer (value : Int)
  | float (value : Binary64)
  | boolean (value : Bool)
  | string (text : String)
  | sequence
  /-- A table, or a date or time. -/
  | map
  deriving DecidableEq, Repr

def Shape.of : Value → Shape
  | .integer value => .integer value
  | .float value => .float value
  | .boolean value => .boolean value
  | .string text => .string text
  | .array _ => .sequence
  | .table _ => .map
  | .moment _ => .map

def Shape.message : Shape → String
  | integer value => s!"integer `{value}`"
  | float value => s!"floating point `{value.toText}`"
  | boolean value => s!"boolean `{value}`"
  | string text => s!"string {quotedText text}"
  | sequence => "sequence"
  | map => "map"

/-- What is wanted in some place. -/
inductive Wanted where
  | bits
  | address
  | extent
  | name
  | placements
  | storage
  | layout
  | placement
  deriving DecidableEq, Repr

def Wanted.message : Wanted → String
  | bits => "u8"
  | address => "u64"
  | extent => "usize"
  | name => "a string"
  | placements => "a sequence"
  | storage => "struct StorageConfig"
  | layout => "struct LayoutConfig"
  | placement => "struct FieldOverride"

/-! ## Section 2: Documents that do not fit -/

/-- Why a document does not hold settings. -/
inductive DecodeError where
  | unsupportedMode (bits : Nat)
  | outOfRange (value : Int) (wanted : Wanted)
  /-- A value is of another kind than wanted. -/
  | wrongShape (found : Shape) (wanted : Wanted)
  | unknownEncoding (name : String)
  /-- An encoding is given by neither a text nor a table. -/
  | encodingNotNamed
  /-- An encoding is given by a table without keys. -/
  | encodingNotChosen
  /-- An encoding is given by a table with several keys. -/
  | encodingAmbiguous
  /-- An encoding is given by a key whose value is not empty. -/
  | encodingNotEmpty (found : Shape)
  | missing (member : String)
  /-- A placement in the form of an array is too short. -/
  | tooShort (length : Nat)
  deriving DecidableEq, Repr

def DecodeError.message : DecodeError → String
  | unsupportedMode bits => AddressingMode.unsupportedMessage bits
  | outOfRange value wanted => s!"invalid value: integer `{value}`, expected {wanted.message}"
  | wrongShape found wanted => s!"invalid type: {found.message}, expected {wanted.message}"
  | unknownEncoding name => s!"unknown variant `{name}`, expected `ebcdic` or `ascii`"
  | encodingNotNamed => "wanted string or table"
  | encodingNotChosen => "wanted exactly 1 element, found 0 elements"
  | encodingAmbiguous => "wanted exactly 1 element, more than 1 element"
  | encodingNotEmpty found =>
    match found with
    | .map => "expected empty table"
    | .sequence => "expected empty array"
    | .integer _ => "expected table, found integer"
    | .float _ => "expected table, found float"
    | .boolean _ => "expected table, found boolean"
    | .string _ => "expected table, found string"
  | missing member => s!"missing field `{member}`"
  | tooShort length =>
    s!"invalid length {length}, expected {Wanted.placement.message} with 4 elements"

/-! ## Section 3: Files and texts -/

/-- How the reader of documents reports on texts without settings.  Its reports go over several
lines, with the place in the text and an excerpt, and nothing is relied on but that they depend on
the text and on what is wrong with it. -/
structure DecodeWording where
  notADocument : String → String
  /-- The report on a text whose document does not fit, for a reason that is given in words. -/
  misfit : String → String → String

/-- Reports without the place and the excerpt. -/
def DecodeWording.brief : DecodeWording where
  notADocument _ := "not a TOML document"
  misfit _ reason := reason

/-- Why there are no settings. -/
inductive SettingsError where
  | unreadable (path : String) (reason : FileError)
  | notADocument (report : String)
  /-- The document does not hold settings. -/
  | misfit (reason : DecodeError) (report : String)
  deriving DecidableEq, Repr

def SettingsError.message : SettingsError → String
  | unreadable path reason => s!"cannot read configuration {path}: {reason.message}"
  | notADocument report => s!"invalid configuration: {report}"
  | misfit _ report => s!"invalid configuration: {report}"

end IplReport
