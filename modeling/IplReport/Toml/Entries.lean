import IplReport.Toml.Text
import IplReport.Toml.Value

/-!
# Tables under construction

A settings file fills its tables piece by piece.  While this goes on, a table is kept together
with the way it came about, since that decides whether it may still be added to: no key may be
given twice, no table may have two headers, and a table with a header may not be reached by a
key with points.
-/

namespace IplReport.Toml

/-! ## Section 1: Nodes -/

/-- How a table came about. -/
inductive TableOrigin where
  /-- It has a header of its own. -/
  | header
  /-- It is above a table that has a header. -/
  | implied
  /-- It is named by a key with points. -/
  | dottedKey
  deriving DecidableEq, Repr

/-- What stands under a key of a table under construction. -/
inductive Node where
  | leaf (value : Value)
  | table (origin : TableOrigin) (entries : List (String × Node))
  /-- An array of tables, each with a header. -/
  | tables (items : List (List (String × Node)))

/-- The entries of a table under construction, in the order in which the keys came up. -/
abbrev Entries := List (String × Node)

mutual

def Node.toValue : Node → Value
  | .leaf value => value
  | .table _ entries => .table (entriesToValues entries)
  | .tables items => .array (itemsToValues items)

def entriesToValues : List (String × Node) → List (String × Value)
  | [] => []
  | (key, node) :: rest => (key, node.toValue) :: entriesToValues rest

/-- Tables of an array as finished values. -/
def itemsToValues : List (List (String × Node)) → List Value
  | [] => []
  | entries :: rest => .table (entriesToValues entries) :: itemsToValues rest

end

namespace Entries

/-- Changes what stands under a key; a new key comes last. -/
def alter? (key : String) (change : Option Node → Option Node) : Entries → Option Entries
  | [] => do return [(key, ← change none)]
  | (k, node) :: rest =>
    if k == key then do return (k, ← change (some node)) :: rest
    else do return (k, node) :: (← alter? key change rest)

/-- Changes the last one of some tables. -/
def alterLast? (change : Entries → Option Entries) : List Entries → Option (List Entries)
  | [] => none
  | [entries] => do return [← change entries]
  | entries :: rest => do return entries :: (← alterLast? change rest)

/-! ## Section 2: Keys and values -/

/-- Puts a value under a key with points.  The tables on the way are made as needed; those that
are there must not have headers, and the innermost must come from a key with points itself. -/
def put? (key : String) (value : Value) : List String → Entries → Option Entries
  | [], entries => entries.alter? key fun
    | none => some (.leaf value)
    | some _ => none
  | parent :: deeper, entries => entries.alter? parent fun
    | none => (put? key value deeper []).map (.table .dottedKey)
    | some (.leaf _) => none
    | some (.table origin inner) =>
      if origin = .header ∨ (deeper = [] ∧ origin ≠ .dottedKey) then none
      else (put? key value deeper inner).map (.table origin)
    | some (.tables items) =>
      if deeper = [] then none else (alterLast? (put? key value deeper) items).map .tables

/-- Puts values under their keys, one after the other. -/
def putAll? (entries : Entries) (pairs : List (KeyPath × Value)) : Option Entries :=
  pairs.foldlM (fun entries (path, value) => put? path.key value path.parents entries) entries

/-! ## Section 3: Headers -/

/-- Changes the table that the tables of a header lead to.  Tables on the way are made as needed,
and of an array of tables the last one is taken. -/
def alterAt? (change : Entries → Option Entries) : List String → Entries → Option Entries
  | [], entries => change entries
  | parent :: deeper, entries => entries.alter? parent fun
    | none => (alterAt? change deeper []).map (.table .implied)
    | some (.leaf _) => none
    | some (.table origin inner) => (alterAt? change deeper inner).map (.table origin)
    | some (.tables items) => (alterLast? (alterAt? change deeper) items).map .tables

/-- Fills the table of a header.  A table that was only implied so far moves behind all others. -/
def defineTable? (path : KeyPath) (pairs : List (KeyPath × Value)) (entries : Entries) :
    Option Entries :=
  entries |> alterAt? (fun siblings =>
    match siblings.lookup path.key with
    | none => do return siblings ++ [(path.key, .table .header (← putAll? [] pairs))]
    | some (.table .implied inner) => do
      let others := siblings.filter fun entry => entry.1 != path.key
      return others ++ [(path.key, .table .header (← putAll? inner pairs))]
    | some _ => none) path.parents

/-- Adds a table to the array of tables of a header. -/
def appendTable? (path : KeyPath) (pairs : List (KeyPath × Value)) (entries : Entries) :
    Option Entries :=
  entries |> alterAt? (alter? path.key fun
    | none => do return .tables [← putAll? [] pairs]
    | some (.tables items) => do return .tables (items ++ [← putAll? [] pairs])
    | some _ => none) path.parents

end Entries

end IplReport.Toml
