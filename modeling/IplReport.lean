import IplReport.Main
import IplReport.Proofs.Block.Reposition
import IplReport.Proofs.Block.Soundness
import IplReport.Proofs.Catalog.Contents
import IplReport.Proofs.Chain.InImage
import IplReport.Proofs.Chain.Reads
import IplReport.Proofs.Chain.Trail
import IplReport.Proofs.FieldValue
import IplReport.Proofs.Memory.Bytes
import IplReport.Proofs.Memory.Frame
import IplReport.Proofs.Memory.Image
import IplReport.Proofs.Settings.Placements
import IplReport.Proofs.Snapshot.Anatomy
import IplReport.Proofs.Snapshot.Capture
import IplReport.Proofs.Snapshot.Reads
import IplReport.Proofs.Snapshot.Footprint
import IplReport.Proofs.Catalog.Faults
import IplReport.Proofs.Settings.Plans
import IplReport.Proofs.Settings.Reordering
import IplReport.Proofs.Chain.Clipped
import IplReport.Proofs.Snapshot.Clipped
import IplReport.Proofs.Memory.Relocation
import IplReport.Proofs.Snapshot.Relocation
import IplReport.Proofs.Memory.Overwriting
import IplReport.Proofs.Block.SingleMove
import IplReport.Proofs.Block.Conservation
import IplReport.Proofs.Text.Encoding
import IplReport.Proofs.FieldValue.Extraction
import IplReport.Proofs.FieldValue.StoredText
import IplReport.Proofs.Chain.Sums
import IplReport.Proofs.Chain.Composition
import IplReport.Proofs.Chain.Limits
import IplReport.Proofs.Catalog.FirstFault
import IplReport.Proofs.Text.WholeTexts
import IplReport.Proofs.Block.RepeatedMoves
import IplReport.Proofs.Catalog.Paths
import IplReport.Proofs.Text.Json
import IplReport.Proofs.Snapshot.Rendering
import IplReport.Proofs.Text.Numeral
import IplReport.Proofs.Toml.WellFormed
import IplReport.Proofs.Settings.Decoding
import IplReport.Proofs.Settings.Documents
import IplReport.Proofs.Settings.Files
import IplReport.Proofs.Command.Outcome
