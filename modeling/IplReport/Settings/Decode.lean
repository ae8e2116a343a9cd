import IplReport.Settings.Basic
import IplReport.Settings.Fault
import IplReport.Toml.Document

/-!
# Reading settings

Settings are read from the tables `storage` and `layout` of a settings file.  Values are taken
in the order of the file and the first that does not fit is reported; keys without a meaning are
passed over, and what is not said keeps its default.
-/

namespace IplReport

open Toml (Value)

/-! ## Section 1: Single values -/

/-- The integer from 0 up to a bound that a value is. -/
def readNatural (wanted : Wanted) (bound : Nat) : Value → Except DecodeError Nat
  | .integer value =>
    if 0 ≤ value ∧ value < bound then .ok value.toNat else .error (.outOfRange value wanted)
  | value => .error (.wrongShape (.of value) wanted)

/-- The addressing mode that a value names by its number of bits. -/
def readMode (value : Value) : Except DecodeError AddressingMode := do
  let bits ← readNatural .bits 256 value
  match AddressingMode.ofBits? bits with
  | some mode => return mode
  | none => throw (.unsupportedMode bits)

def readWord (wanted : Wanted) (value : Value) : Except DecodeError UInt64 := do
  return UInt64.ofNat (← readNatural wanted 0x10000000000000000 value)

def readName : Value → Except DecodeError String
  | .string text => .ok text
  | value => .error (.wrongShape (.of value) .name)

def readEncodingName (name : String) : Except DecodeError TextEncoding :=
  match TextEncoding.ofName? name with
  | some encoding => .ok encoding
  | none => .error (.unknownEncoding name)

/-- The encoding that a value names: a text, or a table with the name as its only key. -/
def readEncoding : Value → Except DecodeError TextEncoding
  | .string name => readEncodingName name
  | .table [] => .error .encodingNotChosen
  | .table [(name, content)] => do
    let encoding ← readEncodingName name
    match content with
    | .table [] => return encoding
    | .array [] => return encoding
    | content => throw (.encodingNotEmpty (.of content))
  | .table (_ :: _ :: _) => .error .encodingAmbiguous
  | _ => .error .encodingNotNamed

/-! ## Section 2: Tables -/

/-- A key of a table and how its value changes what has been read so far. -/
abbrev Member (σ : Type) := String × (σ → Value → Except DecodeError σ)

/-- Reads a member that has been found in a table. -/
def readMember {σ : Type} (members : List (Member σ)) (state : σ) (entry : String × Value) :
    Except DecodeError σ :=
  match members.lookup entry.1 with
  | some read => read state entry.2
  | none => .ok state

/-- Reads the members of a table.  An array gives them without their keys, in a fixed order; a
date or time has none of them. -/
def readMembers {σ : Type} (members : List (Member σ)) (wanted : Wanted) (state : σ) :
    Value → Except DecodeError σ
  | .table entries => entries.foldlM (readMember members) state
  | .array items => (members.zip items).foldlM (fun state (m, value) => m.2 state value) state
  | .moment _ => .ok state
  | value => .error (.wrongShape (.of value) wanted)

/-- What has been read of a placement. -/
structure PlacementDraft where
  block : Option String := none
  field : Option String := none
  offset : Option UInt64 := none
  width : Option UInt64 := none

def placementMembers : List (Member PlacementDraft) := [
  ("block", fun draft value => do return { draft with block := ← readName value }),
  ("field", fun draft value => do return { draft with field := ← readName value }),
  ("offset", fun draft value => do return { draft with offset := ← readWord .extent value }),
  ("width", fun draft value => do return { draft with width := ← readWord .extent value })]

/-- A member that has been read, or the fault that it is missing. -/
def requireMember {α : Type} (fault : DecodeError) : Option α → Except DecodeError α
  | some a => .ok a
  | none => .error fault

/-- The fault of a member that is missing: in an array, that there are too few of them. -/
def missingFault (value : Value) (member : String) (index : Nat) : DecodeError :=
  match value with
  | .array _ => .tooShort index
  | _ => .missing member

def readPlacement (value : Value) : Except DecodeError Placement := do
  let draft ← readMembers placementMembers .placement {} value
  let missing := missingFault value
  return {
    block := ← requireMember (missing "block" 0) draft.block
    field := ← requireMember (missing "field" 1) draft.field
    offset := ← requireMember (missing "offset" 2) draft.offset
    width := ← requireMember (missing "width" 3) draft.width }

def readPlacements : Value → Except DecodeError (List Placement)
  | .array items => items.mapM readPlacement
  | value => .error (.wrongShape (.of value) .placements)

def storageMembers : List (Member Settings) := [
  ("addressing_mode", fun s value => do return { s with mode := ← readMode value }),
  ("root_address", fun s value => do return { s with rootAddress := ← readWord .address value })]

def layoutMembers : List (Member Settings) := [
  ("text_encoding", fun s value => do return { s with encoding := ← readEncoding value }),
  ("overrides", fun s value => do return { s with placements := ← readPlacements value })]

def documentMembers : List (Member Settings) := [
  ("storage", readMembers storageMembers .storage),
  ("layout", readMembers layoutMembers .layout)]

/-! ## Section 3: Documents -/

namespace Settings

def ofDocument (document : List (String × Value)) : Except DecodeError Settings :=
  document.foldlM (readMember documentMembers) {}

def ofText (wording : DecodeWording) (text : String) : Except SettingsError Settings :=
  match Toml.parse? text with
  | some document =>
    (ofDocument document).mapError fun reason =>
      .misfit reason (wording.misfit text reason.message)
  | none => .error (.notADocument (wording.notADocument text))

def ofFile (wording : DecodeWording) (files : FileView) (path : String) :
    Except SettingsError Settings := do
  ofText wording (← (files.readText path).mapError (SettingsError.unreadable path))

end Settings

end IplReport
