import IplReport.Snapshot.Basic
import IplReport.Text.Json

/-!
# Rendering a snapshot

A snapshot is shown to an operator in two lines, or to a program as a JSON object.
-/

namespace IplReport

/-- The two ways of showing a snapshot. -/
inductive OutputFormat where
  /-- Two lines for an operator. -/
  | text
  | json
  deriving DecidableEq, Repr

namespace OutputFormat

def isJson : OutputFormat → Bool
  | text => false
  | json => true

/-- The format of a given name; names are lower case. -/
def ofName? : String → Option OutputFormat
  | "text" => some text
  | "json" => some json
  | _ => none

end OutputFormat

namespace Snapshot

/-- The two lines for an operator. -/
def renderText (s : Snapshot) : String :=
  s!"USED LOAD{s.loadDataset.text} IN {s.parmlibDatasetName.text} ON {s.deviceId.text}\n"
    ++ s!"IODF {s.iodfId.text}\n"

/-- The JSON object, one member for each field. -/
def renderJson (s : Snapshot) : String :=
  Json.prettyObject (SnapshotField.all.map fun field => (field.key, (s.value field).text))

def render (s : Snapshot) : OutputFormat → String
  | .text => s.renderText
  | .json => s.renderJson

end Snapshot

end IplReport
