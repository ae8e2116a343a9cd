import IplReport.Text.Binary64

/-!
# Values of a settings file

A settings file in TOML is a table of values; tables keep their entries in the order in which
the file first mentions them.
-/

namespace IplReport.Toml

inductive Value where
  | string (text : String)
  /-- A number of 64 bits with a sign. -/
  | integer (value : Int)
  | float (value : Binary64)
  | boolean (value : Bool)
  /-- A date, a time or both, as it is written. -/
  | moment (text : String)
  | array (items : List Value)
  | table (entries : List (String × Value))
  deriving Repr

end IplReport.Toml
