import IplReport.Block.Validation

/-!
# Catalogs of control blocks

A catalog is a list of sound block descriptions with distinct names.  It is made by checking a
list, so whoever holds a catalog may rely on every rule of the check.
-/

namespace IplReport

/-! ## Section 1: The check -/

/-- Checks blocks in turn, after blocks with the names `seen`. -/
def checkBlocksAfter (seen : List String) : List Block → Except LayoutError Unit
  | [] => .ok ()
  | b :: rest =>
    if seen.contains b.name then
      .error (.duplicateBlock b.name)
    else
      match b.check with
      | .error fault => .error fault
      | .ok () => checkBlocksAfter (b.name :: seen) rest

def checkBlocks (blocks : List Block) : Except LayoutError Unit :=
  checkBlocksAfter [] blocks

/-! ## Section 2: The catalog -/

/-- Sound block descriptions with distinct names. -/
structure Catalog where
  /-- The blocks, in order of declaration. -/
  blocks : List Block
  checked : checkBlocks blocks = .ok ()
  deriving DecidableEq

namespace Catalog

/-- The catalog of a list of blocks, or the first fault of the list. -/
def ofBlocks (blocks : List Block) : Except LayoutError Catalog :=
  match h : checkBlocks blocks with
  | .ok () => .ok ⟨blocks, h⟩
  | .error fault => .error fault

/-! ## Section 3: Finding blocks and fields -/

def block? (c : Catalog) (name : String) : Option Block :=
  c.blocks.find? fun b => b.name == name

/-- The block of a given name, or the fault that there is none. -/
def block (c : Catalog) (name : String) : Except LayoutError Block :=
  match c.block? name with
  | some b => .ok b
  | none => .error (.unknownBlock name)

def textField (c : Catalog) (block field : String) : Except LayoutError Field := do
  let b ← c.block block
  let f ← b.field field
  if f.isText then return f else throw (.notText block field)

end Catalog

end IplReport
