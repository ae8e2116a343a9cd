/-!
# Faults of control-block descriptions

Everything that can be wrong with a description of control blocks, and with a request that
names a block or a field of it.
-/

namespace IplReport

/-- A fault in a description of control blocks, or in a request against one. -/
inductive LayoutError where
  | duplicateBlock (block : String)
  | duplicateField (block field : String)
  | zeroWidth (block field : String)
  /-- A field stops past the end of its block. -/
  | fieldOutOfBounds (block field : String) (stop size : UInt64)
  /-- A field starts before the field that precedes it. -/
  | outOfOrder (block field : String) (offset : UInt64) (previous : String)
      (previousOffset : UInt64)
  /-- A field starts before the field that precedes it has ended. -/
  | overlap (block field previous : String)
  /-- A link is neither 4 nor 8 bytes wide. -/
  | badLinkWidth (block field : String) (width : UInt64)
  | unknownBlock (block : String)
  | unknownField (block field : String)
  /-- A step of a path names a field that is not a link. -/
  | notALink (block field : String)
  /-- A field that should be text is not. -/
  | notText (block field : String)
  | emptyPath (path : String)
  deriving DecidableEq, Repr

def LayoutError.message : LayoutError → String
  | duplicateBlock block => s!"control block '{block}' is declared more than once"
  | duplicateField block field => s!"field '{field}' is declared more than once in {block}"
  | zeroWidth block field => s!"field {block}.{field} has zero width"
  | fieldOutOfBounds block field stop size =>
    s!"field {block}.{field} ends at byte {stop}, past the {size}-byte block"
  | outOfOrder block field offset previous previousOffset =>
    s!"field {block}.{field} at offset {offset} is declared after {previous} "
      ++ s!"at offset {previousOffset}"
  | overlap block field previous => s!"field {block}.{field} overlaps {previous}"
  | badLinkWidth block field width =>
    s!"link field {block}.{field} is {width} bytes wide; links must be 4 or 8 bytes"
  | unknownBlock block => s!"control block '{block}' is not in the layout catalog"
  | unknownField block field => s!"field '{field}' is not declared in {block}"
  | notALink block field => s!"field {block}.{field} is not a link to another control block"
  | notText block field => s!"field {block}.{field} is not a printable field"
  | emptyPath path => s!"chain path '{path}' has no steps"

end IplReport
