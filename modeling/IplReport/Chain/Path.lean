import IplReport.Catalog.Basic

/-!
# Paths along links

A path says which link to follow out of which block, and which block the last of these links
leads to.  Paths that a catalog makes have at least one step, and every step names a link.
-/

namespace IplReport

/-- One step of a path: a block and the link that leads out of it. -/
structure Step where
  block : Block
  link : Field
  deriving DecidableEq, Repr

/-- A way from one control block to another. -/
structure Path where
  name : String
  /-- The steps, the first of them out of the root block. -/
  steps : List Step
  /-- The block that the last step leads to. -/
  terminal : Block
  deriving DecidableEq, Repr

/-- The block at which steps towards `terminal` start. -/
def startOf (terminal : Block) : List Step → Block
  | [] => terminal
  | step :: _ => step.block

def Path.root (path : Path) : Block :=
  startOf path.terminal path.steps

namespace Catalog

/-- The step out of a block by a link, both given by name. -/
def step (c : Catalog) (block link : String) : Except LayoutError Step := do
  let b ← c.block block
  let f ← b.field link
  if f.kind = .link then return ⟨b, f⟩ else throw (.notALink block link)

/-- The path that takes the named links in turn and ends at the named block. -/
def path (c : Catalog) (name : String) (links : List (String × String)) (terminal : String) :
    Except LayoutError Path := do
  if links.isEmpty then
    throw (.emptyPath name)
  let steps ← links.mapM fun (block, link) => c.step block link
  return ⟨name, steps, ← c.block terminal⟩

end Catalog

end IplReport
