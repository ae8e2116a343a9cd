import IplReport.Block.Basic

/-!
# Sound descriptions

A description is sound if its field names are distinct and each field has bytes, ends inside
the block, is pointer-sized if it is a link, and starts no earlier than the field before it
ends.  The check reports the first field that breaks a rule, and of the rules it breaks the
first in this order.
-/

namespace IplReport

def linkWidths : List UInt64 := [4, 8]

namespace Block

/-- The first rule about its own place that a field breaks. -/
def placeFault? (b : Block) (f : Field) : Option LayoutError :=
  if f.width = 0 then
    some (.zeroWidth b.name f.name)
  else if b.size.toNat < f.stop then
    some (.fieldOutOfBounds b.name f.name f.cappedStop b.size)
  else if f.kind = .link ∧ f.width ∉ linkWidths then
    some (.badLinkWidth b.name f.name f.width)
  else
    none

/-- The first rule about the field before it that a field breaks. -/
def orderFault? (b : Block) (previous f : Field) : Option LayoutError :=
  if f.offset < previous.offset then
    some (.outOfOrder b.name f.name f.offset previous.name previous.offset)
  else if f.offset.toNat < previous.stop then
    some (.overlap b.name f.name previous.name)
  else
    none

/-- The first rule that a field breaks after the fields `earlier`, the latest of them first. -/
def fieldFault? (b : Block) (earlier : List Field) (f : Field) : Option LayoutError :=
  if earlier.any fun g => g.name == f.name then
    some (.duplicateField b.name f.name)
  else
    (b.placeFault? f).or (earlier.head?.bind fun previous => b.orderFault? previous f)

/-- Checks fields in turn, after the fields `earlier`. -/
def checkFields (b : Block) (earlier : List Field) : List Field → Except LayoutError Unit
  | [] => .ok ()
  | f :: rest =>
    match b.fieldFault? earlier f with
    | some fault => .error fault
    | none => b.checkFields (f :: earlier) rest

def check (b : Block) : Except LayoutError Unit :=
  b.checkFields [] b.fields

end Block

end IplReport
