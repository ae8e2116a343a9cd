import IplReport.Proofs.Toml.WellFormed
import IplReport.Settings.Decode
import Mathlib.Tactic.MkIffOfInductiveProp
import Mathlib.Tactic.SplitIfs

/-!
# The settings that are read

A document is read entry by entry, in the order of the file.  A member is found by its key and
changes a part of the settings that no other member changes, so that what comes out depends on the
values under the keys of the members and on nothing else.

Main statements:
- `Settings.Changed`: what the values under the keys make of settings;
- `Settings.ofDocument_eq_ok_iff`: this is what is read from a document.
-/

namespace IplReport

open Toml (Value)

/-! ## Section 1: What values say -/

/-- The addressing modes, by their numbers of bits. -/
inductive SaysMode : Value → AddressingMode → Prop where
  | amode24 : SaysMode (.integer 24) .amode24
  | amode31 : SaysMode (.integer 31) .amode31
  | amode64 : SaysMode (.integer 64) .amode64

/-- The encodings, by their names. -/
inductive SaysEncoding : Value → TextEncoding → Prop where
  | ebcdic : SaysEncoding (.string "ebcdic") .ebcdic
  | ascii : SaysEncoding (.string "ascii") .ascii

def SaysWord (value : Value) (word : UInt64) : Prop :=
  value = .integer word.toNat

def SaysName (value : Value) (name : String) : Prop :=
  value = .string name

/-- A placement is written as a table of its four parts. -/
@[mk_iff]
structure SaysPlacement (entries : List (String × Value)) (p : Placement) : Prop where
  block : entries.lookup "block" = some (.string p.block)
  field : entries.lookup "field" = some (.string p.field)
  offset : entries.lookup "offset" = some (.integer p.offset.toNat)
  width : entries.lookup "width" = some (.integer p.width.toNat)

/-- Placements are written as an array, one table for each of them, in their order. -/
def SaysPlacements (value : Value) (placements : List Placement) : Prop :=
  ∃ items, value = .array items ∧
    List.Forall₂ (fun item p => ∃ entries, item = .table entries ∧ SaysPlacement entries p) items
      placements

section Values

variable {value : Value} {wanted : Wanted} {bound n : Nat}

theorem readNatural_eq_ok_iff :
    readNatural wanted bound value = .ok n ↔ value = .integer n ∧ n < bound := by
  unfold readNatural
  split
  · rename_i i
    split_ifs with h
    · rw [Except.ok.injEq, Value.integer.injEq]
      omega
    · simp only [Value.integer.injEq, false_iff]
      omega
  · rename_i hne
    have hne : ∀ i, value ≠ .integer i := hne
    simp [hne]

theorem readMode_eq_ok_iff {mode : AddressingMode} :
    readMode value = .ok mode ↔ SaysMode value mode := by
  rw [readMode, bind_eq_ok_iff]
  simp only [readNatural_eq_ok_iff]
  constructor
  -- three numbers are modes, and any other number is refused
  · rintro ⟨bits, ⟨rfl, -⟩, hmode⟩
    split at hmode
    · rename_i hbits
      unfold AddressingMode.ofBits? at hbits
      split at hbits
      · cases hbits
        cases hmode
        exact .amode24
      · cases hbits
        cases hmode
        exact .amode31
      · cases hbits
        cases hmode
        exact .amode64
      · cases hbits
    · cases hmode
  · intro h
    cases h with
    | amode24 => exact ⟨24, ⟨rfl, by decide⟩, rfl⟩
    | amode31 => exact ⟨31, ⟨rfl, by decide⟩, rfl⟩
    | amode64 => exact ⟨64, ⟨rfl, by decide⟩, rfl⟩

theorem readWord_eq_ok_iff {word : UInt64} :
    readWord wanted value = .ok word ↔ SaysWord value word := by
  rw [readWord, bind_eq_ok_iff]
  simp only [readNatural_eq_ok_iff]
  constructor
  · rintro ⟨n, ⟨rfl, hn⟩, hword⟩
    cases hword
    rw [SaysWord, UInt64.toNat_ofNat_of_lt' hn]
  · rintro rfl
    refine ⟨word.toNat, ⟨rfl, word.toNat_lt⟩, ?_⟩
    rw [UInt64.ofNat_toNat]
    rfl

theorem readName_eq_ok_iff {name : String} : readName value = .ok name ↔ SaysName value name := by
  cases value <;> simp [readName, SaysName]

/-- An encoding that is given by a text has to be one of the names. -/
theorem readEncoding_eq_ok_iff {name : String} {encoding : TextEncoding} :
    readEncoding (.string name) = .ok encoding ↔ SaysEncoding (.string name) encoding := by
  rw [readEncoding, readEncodingName]
  constructor
  · intro h
    split at h
    · rename_i found hname
      cases h
      unfold TextEncoding.ofName? at hname
      split at hname
      · cases hname
        exact .ebcdic
      · cases hname
        exact .ascii
      · cases hname
    · cases h
  · intro h
    cases h with
    | ebcdic => rfl
    | ascii => rfl

end Values

/-! ## Section 2: What tables say -/

/-- A setting is what its value says, or what it was before where there is no value. -/
def Told {α : Type} (Says : Value → α → Prop) (before : α) : Option Value → α → Prop
  | none, after => after = before
  | some value, after => Says value after

section Members

variable {α σ : Type} {members : List (Member σ)} {entries : List (String × Value)}

@[simp]
theorem told_none {Says : Value → α → Prop} {before after : α} :
    Told Says before none after ↔ after = before := Iff.rfl

@[simp]
theorem told_some {Says : Value → α → Prop} {before after : α} {value : Value} :
    Told Says before (some value) after ↔ Says value after := Iff.rfl

/-- A table makes of a state what the values under the keys of its members say, if that is so for
each member alone: `Out` is what they say, and `said` what is under the keys that are left. -/
theorem foldlM_readMember_eq_ok_iff {Out : (String → Option Value) → σ → σ → Prop}
    (hnone : ∀ s s', Out (fun _ => none) s s' ↔ s' = s)
    (hmember : ∀ m ∈ members, ∀ value, (m.1, value) ∈ entries → ∀ said, said m.1 = none →
      ∀ s s', Out (Function.update said m.1 (some value)) s s' ↔
        ∃ s₁, m.2 s value = .ok s₁ ∧ Out said s₁ s')
    (hother : ∀ key ∉ members.map Prod.fst, ∀ value said s s',
      Out (Function.update said key value) s s' ↔ Out said s s')
    (hkeys : (entries.map Prod.fst).Nodup) {s s' : σ} :
    entries.foldlM (readMember members) s = .ok s' ↔ Out (fun key => entries.lookup key) s s' := by
  induction entries generalizing s with
  | nil =>
    rw [List.foldlM_nil, pure_eq_ok_iff]
    exact (hnone s s').symm
  | cons entry rest ih =>
    obtain ⟨key, value⟩ := entry
    obtain ⟨hkey, hrest⟩ := List.nodup_cons.1 hkeys
    have ih {s : σ} := @ih
      (fun m hm value hvalue => hmember m hm value (List.mem_cons_of_mem _ hvalue)) hrest s
    -- the first entry is read, and the rest makes of that state what it would make of any
    rw [List.foldlM_cons, bind_eq_ok_iff, lookup_cons_eq_update]
    simp only [ih]
    rw [readMember]
    cases hfound : members.lookup key with
    | none =>
      rw [hother key (lookup_eq_none_iff_notMem.1 hfound)]
      simp
    | some read =>
      obtain ⟨before, after, hcut, -⟩ := List.lookup_eq_some_iff.1 hfound
      have hmem : (key, read) ∈ members := hcut ▸ List.mem_append_right _ List.mem_cons_self
      exact (hmember (key, read) hmem value List.mem_cons_self _
        (lookup_eq_none_iff_notMem.2 hkey) s s').symm

end Members

/-! ## Section 3: Placements -/

/-- A part of a draft is there once something says what it is. -/
def SaysSome {α : Type} (Says : Value → α → Prop) (value : Value) (part : Option α) : Prop :=
  ∃ a, Says value a ∧ part = some a

/-- What the values under the keys of a table make of the draft of a placement. -/
@[mk_iff]
structure PlacementDraft.Changed (said : String → Option Value) (before after : PlacementDraft) :
    Prop where
  block : Told (SaysSome SaysName) before.block (said "block") after.block
  field : Told (SaysSome SaysName) before.field (said "field") after.field
  offset : Told (SaysSome SaysWord) before.offset (said "offset") after.offset
  width : Told (SaysSome SaysWord) before.width (said "width") after.width

section Placements

variable {entries : List (String × Value)}

theorem PlacementDraft.eq_iff {d d' : PlacementDraft} : d = d' ↔
    d.block = d'.block ∧ d.field = d'.field ∧ d.offset = d'.offset ∧ d.width = d'.width := by
  cases d
  cases d'
  simp

theorem readDraft_eq_ok_iff (hkeys : (entries.map Prod.fst).Nodup) {d d' : PlacementDraft} :
    readMembers placementMembers .placement d (.table entries) = .ok d' ↔
      d.Changed (fun key => entries.lookup key) d' := by
  refine foldlM_readMember_eq_ok_iff ?_ ?_ ?_ hkeys
  · simp only [PlacementDraft.changed_iff, told_none, PlacementDraft.eq_iff, implies_true]
  · simp only [placementMembers, List.forall_mem_cons, bind_eq_ok_iff, readName_eq_ok_iff,
      readWord_eq_ok_iff, pure_eq_ok_iff]
    refine ⟨?_, ?_, ?_, ?_, by simp⟩
    -- each of the four sets its own part and leaves the other three
    all_goals
      intro value _ said hsaid d d'
      simp [PlacementDraft.changed_iff, Function.update, hsaid, SaysSome]
      grind
  · intro key hkey value said d d'
    simp only [placementMembers, List.map_cons, List.map_nil, List.mem_cons, not_or] at hkey
    simp [PlacementDraft.changed_iff, Function.update, hkey, eq_comm]

theorem requireMember_eq_ok_iff {α : Type} {fault : DecodeError} {part : Option α} {a : α} :
    requireMember fault part = .ok a ↔ part = some a := by
  cases part <;> simp [requireMember]

theorem told_saysSome_iff {α : Type} {Says : Value → α → Prop} {o : Option Value} {a : α} :
    Told (SaysSome Says) none o (some a) ↔ ∃ value, o = some value ∧ Says value a := by
  cases o <;> simp [SaysSome]

/-- All parts of a placement have to be there. -/
theorem readPlacement_eq_ok_iff (hkeys : (entries.map Prod.fst).Nodup) {p : Placement} :
    readPlacement (.table entries) = .ok p ↔ SaysPlacement entries p := by
  rw [readPlacement]
  simp only [bind_eq_ok_iff, readDraft_eq_ok_iff hkeys, requireMember_eq_ok_iff, pure_eq_ok_iff]
  constructor
  -- a draft starts with nothing, so what is there at the end has been said
  · rintro ⟨⟨_, _, _, _⟩, hdraft, block, rfl, field, rfl, offset, rfl, width, rfl, rfl⟩
    simpa only [PlacementDraft.changed_iff, told_saysSome_iff, SaysName, SaysWord,
      exists_eq_right, saysPlacement_iff] using hdraft
  · intro h
    refine ⟨⟨some p.block, some p.field, some p.offset, some p.width⟩, ?_, p.block, rfl, p.field,
      rfl, p.offset, rfl, p.width, rfl, rfl⟩
    constructor <;> rw [told_saysSome_iff]
    · exact ⟨_, h.block, rfl⟩
    · exact ⟨_, h.field, rfl⟩
    · exact ⟨_, h.offset, rfl⟩
    · exact ⟨_, h.width, rfl⟩

theorem readPlacements_eq_ok_iff {value : Value} (hvalue : value.WellFormed)
    (htables : ∀ items, value = .array items → ∀ item ∈ items, ∃ entries, item = .table entries)
    {placements : List Placement} :
    readPlacements value = .ok placements ↔ SaysPlacements value placements := by
  cases hvalue with
  | @array items hitems =>
    rw [readPlacements, mapM_eq_ok_iff, SaysPlacements]
    -- an item of another kind is excluded; it could be read by position
    have hitem (item : Value) (hitem : item ∈ items) (p : Placement) : readPlacement item = .ok p ↔
        ∃ entries, item = .table entries ∧ SaysPlacement entries p := by
      obtain ⟨entries, rfl⟩ := htables items rfl item hitem
      simp [readPlacement_eq_ok_iff (hitems _ hitem).keys]
    simp only [Value.array.injEq, exists_eq_left', List.forall₂_iff_get]
    exact and_congr_right fun _ => forall₃_congr fun i hi hi' => hitem _ (List.get_mem _ _) _
  | _ => simp [readPlacements, SaysPlacements]

end Placements

/-! ## Section 4: Documents -/

/-- What is under a key, if something is a table. -/
def under? (key : String) : Value → Option Value
  | .table entries => entries.lookup key
  | _ => none

/-- What is under a key of the table that is under another key. -/
def setting? (said : String → Option Value) (table key : String) : Option Value :=
  (said table).bind (under? key)

namespace Settings

/-- What the values under the keys of the storage table make of settings. -/
@[mk_iff]
structure StorageChanged (said : String → Option Value) (before after : Settings) : Prop where
  mode : Told SaysMode before.mode (said "addressing_mode") after.mode
  rootAddress : Told SaysWord before.rootAddress (said "root_address") after.rootAddress
  encoding : after.encoding = before.encoding
  placements : after.placements = before.placements

/-- What the values under the keys of the layout table make of settings. -/
@[mk_iff]
structure LayoutChanged (said : String → Option Value) (before after : Settings) : Prop where
  mode : after.mode = before.mode
  rootAddress : after.rootAddress = before.rootAddress
  encoding : Told SaysEncoding before.encoding (said "text_encoding") after.encoding
  placements : Told SaysPlacements before.placements (said "overrides") after.placements

/-- What the values under the keys of a document, and of its two tables, make of settings. -/
@[mk_iff]
structure Changed (said : String → Option Value) (before after : Settings) : Prop where
  mode : Told SaysMode before.mode (setting? said "storage" "addressing_mode") after.mode
  rootAddress :
    Told SaysWord before.rootAddress (setting? said "storage" "root_address") after.rootAddress
  encoding :
    Told SaysEncoding before.encoding (setting? said "layout" "text_encoding") after.encoding
  placements :
    Told SaysPlacements before.placements (setting? said "layout" "overrides") after.placements

/-- Where they are there, the two tables for settings are tables, the encoding is a text, and the
items of an array of placements are tables. -/
structure Shaped (said : String → Option Value) : Prop where
  storage : ∀ value, said "storage" = some value → ∃ entries, value = .table entries
  layout : ∀ value, said "layout" = some value → ∃ entries, value = .table entries
  encoding : ∀ value, setting? said "layout" "text_encoding" = some value →
    ∃ name, value = .string name
  placements : ∀ items, setting? said "layout" "overrides" = some (.array items) →
    ∀ item ∈ items, ∃ entries, item = .table entries

theorem eq_iff {s s' : Settings} : s = s' ↔ s.mode = s'.mode ∧ s.rootAddress = s'.rootAddress ∧
    s.encoding = s'.encoding ∧ s.placements = s'.placements := by
  cases s
  cases s'
  simp

end Settings

section Tables

variable {entries : List (String × Value)} {s s' : Settings}

theorem readStorage_eq_ok_iff (hkeys : (entries.map Prod.fst).Nodup) :
    readMembers storageMembers .storage s (.table entries) = .ok s' ↔
      s.StorageChanged (fun key => entries.lookup key) s' := by
  refine foldlM_readMember_eq_ok_iff ?_ ?_ ?_ hkeys
  · simp only [Settings.storageChanged_iff, told_none, Settings.eq_iff, implies_true]
  · simp only [storageMembers, List.forall_mem_cons, bind_eq_ok_iff, readMode_eq_ok_iff,
      readWord_eq_ok_iff, pure_eq_ok_iff]
    refine ⟨fun value _ said hsaid s s' => ?_, fun value _ said hsaid s s' => ?_, by simp⟩
    · simp [Settings.storageChanged_iff, Function.update, hsaid]
    · simp [Settings.storageChanged_iff, Function.update, hsaid, and_left_comm]
  · intro key hkey value said s s'
    simp only [storageMembers, List.map_cons, List.map_nil, List.mem_cons, not_or] at hkey
    simp [Settings.storageChanged_iff, Function.update, hkey, eq_comm]

theorem readLayout_eq_ok_iff (hkeys : (entries.map Prod.fst).Nodup)
    (hencoding : ∀ value, ("text_encoding", value) ∈ entries → ∃ name, value = .string name)
    (hplacements : ∀ value, ("overrides", value) ∈ entries → ∀ placements,
      readPlacements value = .ok placements ↔ SaysPlacements value placements) :
    readMembers layoutMembers .layout s (.table entries) = .ok s' ↔
      s.LayoutChanged (fun key => entries.lookup key) s' := by
  refine foldlM_readMember_eq_ok_iff ?_ ?_ ?_ hkeys
  · simp only [Settings.layoutChanged_iff, told_none, Settings.eq_iff, implies_true]
  -- each of the two members changes its own part, so they may come in any order
  · simp only [layoutMembers, List.forall_mem_cons, bind_eq_ok_iff, pure_eq_ok_iff]
    refine ⟨fun value hvalue said hsaid s s' => ?_, fun value hvalue said hsaid s s' => ?_, by simp⟩
    · obtain ⟨name, rfl⟩ := hencoding value hvalue
      simp [Settings.layoutChanged_iff, Function.update, hsaid, readEncoding_eq_ok_iff,
        and_left_comm]
    · simp [Settings.layoutChanged_iff, Function.update, hsaid, hplacements value hvalue,
        and_left_comm, and_comm]
  · intro key hkey value said s s'
    simp only [layoutMembers, List.map_cons, List.map_nil, List.mem_cons, not_or] at hkey
    simp [Settings.layoutChanged_iff, Function.update, hkey, eq_comm]

end Tables

section Documents

variable {said : String → Option Value} {table other key : String}
  {entries document : List (String × Value)} {o : Option Value} {s s' : Settings}

theorem setting?_of_none (h : said table = none) : setting? said table key = none := by
  rw [setting?, h]
  rfl

theorem setting?_of_some (h : said table = some (.table entries)) :
    setting? said table key = entries.lookup key := by
  rw [setting?, h]
  rfl

theorem setting?_update_of_ne (h : other ≠ table) :
    setting? (Function.update said table o) other key = setting? said other key := by
  rw [setting?, setting?, Function.update_of_ne h]

/-- What is in the tables of a well-formed document is well formed. -/
theorem wellFormed_of_setting? {value : Value} (hdocument : (Value.table document).WellFormed)
    (h : setting? (fun key => document.lookup key) table key = some value) : value.WellFormed := by
  obtain ⟨entries, hentries, hvalue⟩ := Option.bind_eq_some_iff.1 h
  cases entries with
  | table entries => exact (hdocument.lookup hentries).lookup hvalue
  | _ => cases hvalue

namespace Settings

/-- The storage table has no say in what the layout table is about. -/
theorem changed_update_storage (hsaid : said "storage" = none) :
    Changed (Function.update said "storage" (some (.table entries))) s s' ↔
      ∃ s₁, StorageChanged (fun key => entries.lookup key) s s₁ ∧ Changed said s₁ s' := by
  have hlayout : "layout" ≠ "storage" := by decide
  simp only [changed_iff, storageChanged_iff, setting?_of_some (Function.update_self ..),
    setting?_update_of_ne hlayout, setting?_of_none hsaid, told_none]
  constructor
  · rintro ⟨hmode, hroot, hencoding, hplacements⟩
    -- after this table, its own two parts are final and the other two are as before
    exact ⟨{ s' with encoding := s.encoding, placements := s.placements },
      ⟨hmode, hroot, rfl, rfl⟩, rfl, rfl, hencoding, hplacements⟩
  · rintro ⟨s₁, ⟨hmode, hroot, hencoding, hplacements⟩, hmode', hroot', hencoding', hplacements'⟩
    rw [hmode', hroot', ← hencoding, ← hplacements]
    exact ⟨hmode, hroot, hencoding', hplacements'⟩

theorem changed_update_layout (hsaid : said "layout" = none) :
    Changed (Function.update said "layout" (some (.table entries))) s s' ↔
      ∃ s₁, LayoutChanged (fun key => entries.lookup key) s s₁ ∧ Changed said s₁ s' := by
  have hstorage : "storage" ≠ "layout" := by decide
  simp only [changed_iff, layoutChanged_iff, setting?_of_some (Function.update_self ..),
    setting?_update_of_ne hstorage, setting?_of_none hsaid, told_none]
  -- the settings in between have the new layout and the old storage
  constructor
  · rintro ⟨hmode, hroot, hencoding, hplacements⟩
    exact ⟨{ s' with mode := s.mode, rootAddress := s.rootAddress },
      ⟨rfl, rfl, hencoding, hplacements⟩, hmode, hroot, rfl, rfl⟩
  · rintro ⟨s₁, ⟨hmode, hroot, hencoding, hplacements⟩, hmode', hroot', hencoding', hplacements'⟩
    rw [hencoding', hplacements', ← hmode, ← hroot]
    exact ⟨hmode', hroot', hencoding, hplacements⟩

/-- From a document of the right shape are read the settings that its values say, starting from
the defaults. -/
theorem ofDocument_eq_ok_iff (hdocument : (Value.table document).WellFormed)
    (hshaped : Shaped fun key => document.lookup key) :
    ofDocument document = .ok s ↔
      Changed (fun key => document.lookup key) ⟨.amode31, 0, .ebcdic, []⟩ s := by
  -- with distinct keys, an entry is what is found under its key
  have hunder {key : String} {value : Value} (h : (key, value) ∈ document) :
      document.lookup key = some value :=
    (lookup_eq_some_iff_mem hdocument.keys).2 h
  refine foldlM_readMember_eq_ok_iff ?_ ?_ ?_ hdocument.keys
  · simp only [changed_iff, setting?, Option.bind_none, told_none, eq_iff, implies_true]
  · simp only [documentMembers, List.forall_mem_cons]
    refine ⟨fun value hvalue said hsaid s s' => ?_, fun value hvalue said hsaid s s' => ?_, by simp⟩
    · obtain ⟨entries, rfl⟩ := hshaped.storage value (hunder hvalue)
      simp only [readStorage_eq_ok_iff (hdocument.entry _ hvalue).keys]
      exact changed_update_storage hsaid
    · obtain ⟨entries, rfl⟩ := hshaped.layout value (hunder hvalue)
      have hentries := hdocument.entry _ hvalue
      have hmem (key : String) (value : Value) (h : (key, value) ∈ entries) :
          setting? (fun key => document.lookup key) "layout" key = some value :=
        (setting?_of_some (hunder hvalue)).trans ((lookup_eq_some_iff_mem hentries.keys).2 h)
      have hplacements (value : Value) (h : ("overrides", value) ∈ entries)
          (placements : List Placement) :
          readPlacements value = .ok placements ↔ SaysPlacements value placements :=
        readPlacements_eq_ok_iff (hentries.entry _ h)
          fun items hitems => hshaped.placements items (hitems ▸ hmem _ _ h)
      simp only [readLayout_eq_ok_iff hentries.keys
        (fun value h => hshaped.encoding value (hmem _ _ h)) hplacements]
      exact changed_update_layout hsaid
  · intro key hkey value said s s'
    simp only [documentMembers, List.map_cons, List.map_nil, List.mem_cons, not_or] at hkey
    simp [changed_iff, setting?, Function.update, hkey, eq_comm]

end Settings

end Documents

end IplReport
