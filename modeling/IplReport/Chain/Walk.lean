import IplReport.Chain.Fault
import IplReport.Chain.Path
import IplReport.Chain.Traced

/-!
# Walking a path

A walk reads the root block and then follows one link after the other.  Every link is checked
before it is used: it has to lie inside the bytes that were read, to hold an address other than
zero, and the block it leads to has to end at or below the limit of the address space.  Only
then is that block read.
-/

namespace IplReport

/-! ## Section 1: Blocks in storage -/

/-- The bytes that were read for a control block. -/
structure LocatedBlock where
  block : Block
  address : UInt64
  /-- The bytes; fewer than the size of the block if the storage handed back fewer. -/
  bytes : Bytes
  deriving DecidableEq, Repr

namespace LocatedBlock

/-- The bytes of a field, if they were read. -/
def window? (here : LocatedBlock) (f : Field) : Option Bytes :=
  here.bytes.window? f.offset.toNat f.width.toNat

/-- The address that a link of the block holds. -/
def linkValue? (here : LocatedBlock) (link : Field) : Option UInt64 :=
  (here.window? link).bind Bytes.address?

/-- Where a link leads, if a block of `size` bytes may be read there. -/
def target (here : LocatedBlock) (link : Field) (size limit : UInt64) :
    Except LinkFault UInt64 :=
  match here.linkValue? link with
  | none => .error (.unmapped (here.address + link.offset) link.width)
  | some address =>
    if address = 0 then .error .null
    else if limit.toNat < address.toNat + size.toNat then .error (.outOfRange address limit)
    else .ok address

end LocatedBlock

/-! ## Section 2: The walk -/

/-- Follows steps towards `terminal` from the block `here`; the first of them is number `index`. -/
def follow (space : AddressSpace) (terminal : Block) (index : Nat) (here : LocatedBlock) :
    List Step → Traced WalkError LocatedBlock
  | [] => pure here
  | step :: rest => do
    let next := startOf terminal rest
    let broken := WalkError.brokenLink index step.block.name step.link.name
    let address ← .ofExcept ((here.target step.link next.size space.limit).mapError broken)
    let bytes ← .read space address next.size (broken (.unmapped address next.size))
    follow space terminal (index + 1) ⟨next, address, bytes⟩ rest

def Path.walk (path : Path) (space : AddressSpace) (root : UInt64) :
    Traced WalkError LocatedBlock := do
  let first := path.root
  let bytes ← .read space root first.size (.rootUnavailable first.name root first.size)
  follow space path.terminal 0 ⟨first, root, bytes⟩ path.steps

end IplReport
