import IplReport.Catalog.Zos
import IplReport.Memory.Image
import IplReport.Snapshot.Basic

/-!
# Taking a snapshot

A plan holds what is looked up in a catalog once: two paths that start at the prefixed save
area, and the four fields to be read in the blocks at their ends.  Taking a snapshot walks the
first path, reads its three fields, walks the second path and reads its field; the first
failure ends it.
-/

namespace IplReport

/-- What to read for a snapshot. -/
structure Plan where
  /-- The path to the initialization parameter area. -/
  ipaPath : Path
  /-- The path to the second extension of the communications vector table. -/
  extensionPath : Path
  /-- Where the suffix of the LOADxx member is. -/
  loadDataset : Field
  /-- Where the name of its data set is. -/
  parmlibDatasetName : Field
  /-- Where the device number is. -/
  deviceId : Field
  /-- Where the identifier of the I/O definition file is. -/
  iodfId : Field
  deriving DecidableEq, Repr

namespace Plan

/-! ## Section 1: Making a plan -/

/-- The links that lead to the initialization parameter area. -/
def ipaLinks : List (String × String) :=
  [("PSA", "PSACVT"), ("CVT", "CVTECVT"), ("ECVT", "ECVTIPA")]

/-- The links that lead to the second extension of the communications vector table. -/
def extensionLinks : List (String × String) :=
  [("PSA", "PSACVT"), ("CVT", "CVTEXT2")]

/-- The plan for the blocks of a catalog. -/
def ofCatalog (c : Catalog) : Except LayoutError Plan := do
  return {
    ipaPath := ← c.path "ipa" ipaLinks "IPA"
    extensionPath := ← c.path "cvtext2" extensionLinks "CVTEXT2"
    loadDataset := ← c.textField "IPA" "IPALOADS"
    parmlibDatasetName := ← c.textField "IPA" "IPALPDSN"
    deviceId := ← c.textField "IPA" "IPALPDDV"
    iodfId := ← c.textField "CVTEXT2" "IODF_ID" }

/-! ## Section 2: Following a plan -/

/-- Walks a path for the sake of a field. -/
def locate (path : Path) (space : AddressSpace) (root : UInt64) (field : SnapshotField) :
    Traced SnapshotError LocatedBlock :=
  (path.walk space root).mapError (SnapshotError.traversal field)

def extract (here : LocatedBlock) (f : Field) (field : SnapshotField) :
    Traced SnapshotError FieldValue :=
  .ofExcept ((here.extract f).mapError (SnapshotError.extraction field))

/-- Takes a snapshot of storage in which the prefixed save area is at `root`. -/
def capture (plan : Plan) (space : AddressSpace) (root : UInt64) :
    Traced SnapshotError Snapshot := do
  let ipa ← locate plan.ipaPath space root .loadDataset
  let loadDataset ← extract ipa plan.loadDataset .loadDataset
  let parmlibDatasetName ← extract ipa plan.parmlibDatasetName .parmlibDatasetName
  let deviceId ← extract ipa plan.deviceId .deviceId
  let extension ← locate plan.extensionPath space root .iodfId
  let iodfId ← extract extension plan.iodfId .iodfId
  return ⟨loadDataset, parmlibDatasetName, deviceId, iodfId⟩

/-- Takes a snapshot of a memory image, from the root that is set in it. -/
def captureImage (plan : Plan) (image : Image) : Except SnapshotError Snapshot :=
  match image.root with
  | none => .error (.traversal .loadDataset .noRoot)
  | some root => (plan.capture image.space root).outcome

end Plan

end IplReport
