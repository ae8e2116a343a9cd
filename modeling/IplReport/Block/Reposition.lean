import IplReport.Block.Basic

/-!
# Moving a text field

A text field can be given another place in its block.  Padding in the way is dropped, and the
fields are put in the order of their offsets; whether the result is still a sound description
is a question of its own.
-/

namespace IplReport

/-! ## Section 1: Order by offset -/

/-- Puts a field before the first one that does not start earlier. -/
def insertByOffset (f : Field) : List Field → List Field
  | [] => [f]
  | g :: rest => if g.offset < f.offset then g :: insertByOffset f rest else f :: g :: rest

/-- The fields in the order of their offsets; those of one offset keep their order. -/
def sortByOffset : List Field → List Field
  | [] => []
  | f :: rest => insertByOffset f (sortByOffset rest)

/-! ## Section 2: Repositioning -/

namespace Block

/-- The block after its field `f`, the first of its name, has moved to `moved`. -/
def place (b : Block) (f moved : Field) : Block :=
  let others := b.fields.eraseP fun g => g.name == f.name
  let kept := others.filter fun g => !(g.kind == .padding && g.overlaps moved)
  { b with fields := sortByOffset (kept ++ [moved]) }

/-- Moves the text field of a given name to another offset and width. -/
def reposition (b : Block) (name : String) (offset width : UInt64) : Except LayoutError Block := do
  let f ← b.field name
  if f.isText then
    return b.place f (f.moveTo offset width)
  else
    throw (.notText b.name name)

end Block

end IplReport
