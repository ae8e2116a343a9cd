import IplReport.FieldValue

/-!
# Snapshots

A snapshot is what the control blocks say about the last initial program load: four text
fields, all of them or none.
-/

namespace IplReport

/-! ## Section 1: The fields of a snapshot -/

/-- The fields of a snapshot. -/
inductive SnapshotField where
  /-- The suffix of the LOADxx member. -/
  | loadDataset
  /-- The data set that holds the LOADxx member. -/
  | parmlibDatasetName
  /-- The device number of the volume with that data set. -/
  | deviceId
  /-- The identifier of the active I/O definition file. -/
  | iodfId
  deriving DecidableEq, Repr

namespace SnapshotField

/-- All fields, in the order in which they are read. -/
def all : List SnapshotField :=
  [loadDataset, parmlibDatasetName, deviceId, iodfId]

/-- The name of a field in messages. -/
def name : SnapshotField → String
  | loadDataset => "load-dataset"
  | parmlibDatasetName => "parmlib-dataset-name"
  | deviceId => "device-id"
  | iodfId => "iodf-id"

/-- The key of a field in JSON. -/
def key : SnapshotField → String
  | loadDataset => "load_dataset"
  | parmlibDatasetName => "parmlib_dataset_name"
  | deviceId => "device_id"
  | iodfId => "iodf_id"

end SnapshotField

/-! ## Section 2: Snapshots -/

/-- The values of the four fields. -/
structure Snapshot where
  loadDataset : FieldValue
  parmlibDatasetName : FieldValue
  deviceId : FieldValue
  iodfId : FieldValue
  deriving DecidableEq, Repr

def Snapshot.value (s : Snapshot) : SnapshotField → FieldValue
  | .loadDataset => s.loadDataset
  | .parmlibDatasetName => s.parmlibDatasetName
  | .deviceId => s.deviceId
  | .iodfId => s.iodfId

/-! ## Section 3: Faults -/

/-- Why there is no snapshot. -/
inductive SnapshotError where
  /-- The block of a field cannot be reached. -/
  | traversal (field : SnapshotField) (cause : WalkError)
  /-- A field cannot be read from its block. -/
  | extraction (field : SnapshotField) (cause : ExtractionError)
  deriving DecidableEq, Repr

namespace SnapshotError

def field : SnapshotError → SnapshotField
  | traversal field _ => field
  | extraction field _ => field

def message : SnapshotError → String
  | traversal field cause => s!"cannot locate {field.name}: {cause.message}"
  | extraction field cause => s!"cannot read {field.name}: {cause.message}"

end SnapshotError

end IplReport
