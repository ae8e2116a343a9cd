import IplReport.File
import IplReport.Memory.AddressSpace
import IplReport.Memory.AddressingMode
import IplReport.Text.Numeral

/-!
# Memory images

A memory image is a sparse map of the storage of a machine: regions of bytes at ascending base
addresses, none of which reaches into the next.  A new region is checked only against its two
neighbours, and a read looks only at the nearest region at or below its address.
-/

namespace IplReport

/-! ## Section 1: Regions -/

/-- Bytes that are mapped at an address. -/
structure Region where
  base : UInt64
  bytes : Bytes
  deriving DecidableEq, Repr

/-- One past the address of the last byte of a region. -/
def Region.stop (r : Region) : Nat :=
  r.base.toNat + r.bytes.length

/-- Puts a region in its place among regions of ascending base, in the stead of one of the same
base. -/
def insertRegion (r : Region) : List Region → List Region
  | [] => [r]
  | s :: rest =>
    if s.base < r.base then s :: insertRegion r rest
    else if s.base = r.base then r :: rest
    else r :: s :: rest

/-! ## Section 2: Faults -/

/-- Why bytes do not get into an image. -/
inductive StorageError where
  | unreadable (path : String) (reason : FileError)
  | overlappingRegion (base : UInt64) (length : Nat)
  /-- The bytes end past the highest address. -/
  | beyondLimit (base : UInt64) (length : Nat) (limit : UInt64)
  deriving DecidableEq, Repr

def StorageError.message : StorageError → String
  | unreadable path reason => s!"cannot read storage dump {path}: {reason.message}"
  | overlappingRegion base length =>
    s!"region at {hexLower base.toNat} ({length} bytes) overlaps an existing region"
  | beyondLimit base length limit =>
    s!"region at {hexLower base.toNat} ({length} bytes) exceeds the addressable limit "
      ++ hexLower limit.toNat

/-! ## Section 3: Images -/

/-- The storage of a machine, as far as it is known. -/
structure Image where
  mode : AddressingMode
  /-- What is mapped, by ascending base. -/
  regions : List Region
  /-- Where the chain of control blocks starts, if that is known. -/
  root : Option UInt64
  deriving DecidableEq, Repr

namespace Image

def empty (mode : AddressingMode) : Image :=
  ⟨mode, [], none⟩

/-- The image with another start of the chain. -/
def withRoot (image : Image) (address : UInt64) : Image :=
  { image with root := some address }

/-- The nearest region whose base is at or below an address. -/
def regionAtOrBelow? (image : Image) (address : UInt64) : Option Region :=
  image.regions.reverse.find? fun r => r.base ≤ address

/-- The nearest region whose base is at or above an address. -/
def regionAtOrAbove? (image : Image) (address : UInt64) : Option Region :=
  image.regions.find? fun r => address ≤ r.base

/-! ## Section 4: Mapping, writing and reading -/

/-- Whether one of the two neighbours is in the way of `length` bytes at `base`. -/
def obstructs (image : Image) (base : UInt64) (length : Nat) : Bool :=
  (image.regionAtOrBelow? base).any (fun r => base.toNat < r.stop) ||
  (image.regionAtOrAbove? base).any (fun r => r.base.toNat < base.toNat + length)

/-- The image with more bytes mapped, from `base` on. -/
def map (image : Image) (base : UInt64) (bytes : Bytes) : Except StorageError Image :=
  if image.mode.limit.toNat < base.toNat + bytes.length then
    .error (.beyondLimit base bytes.length image.mode.limit)
  else if image.obstructs base bytes.length then
    .error (.overlappingRegion base bytes.length)
  else
    .ok { image with regions := insertRegion ⟨base, bytes⟩ image.regions }

/-- The image with other bytes from `address` on, if all of these are mapped in one region. -/
def write? (image : Image) (address : UInt64) (patch : Bytes) : Option Image := do
  let r ← image.regionAtOrBelow? address
  let offset := address.toNat - r.base.toNat
  if offset + patch.length ≤ r.bytes.length then
    let patched : Region := { r with bytes := r.bytes.overlay offset patch }
    let replace (s : Region) := if s.base = r.base then patched else s
    return { image with regions := image.regions.map replace }
  else
    none

/-- The `size` bytes from `address` on, if all of them are mapped in one region. -/
def read (image : Image) (address size : UInt64) : Option Bytes := do
  let r ← image.regionAtOrBelow? address
  r.bytes.window? (address.toNat - r.base.toNat) size.toNat

def space (image : Image) : AddressSpace :=
  ⟨image.mode.limit, image.read⟩

/-- The image of a storage dump that is kept in a file. -/
def ofDump (files : FileView) (path : String) (base : UInt64) (mode : AddressingMode) :
    Except StorageError Image := do
  let bytes ← (files path).mapError (StorageError.unreadable path)
  (Image.empty mode).map base bytes

end Image

end IplReport
