import IplReport.Proofs.Settings.Decoding

/-!
# Which documents hold settings

Whether a document holds settings, and which ones, is a matter of the values under the keys of its
tables: what else is in a document, and in which order it comes, makes no difference.

Main statement:
- `Settings.ofDocument_outcome`: when settings are read from a document, and which ones.
-/

namespace IplReport

open Toml (Value)

/-! ## Section 1: Values that fit -/

/-- What describes a placement. -/
def FitsPlacement (item : Value) : Prop :=
  ∃ entries, item = .table entries ∧
    (∃ block, entries.lookup "block" = some (.string block)) ∧
    (∃ field, entries.lookup "field" = some (.string field)) ∧
    (∃ offset : Nat, entries.lookup "offset" = some (.integer offset)) ∧
    (∃ width : Nat, entries.lookup "width" = some (.integer width))

/-- What is under the keys of a document that holds settings. -/
@[mk_iff]
structure Settings.Fits (said : String → Option Value) : Prop where
  mode : ∀ value, setting? said "storage" "addressing_mode" = some value →
    value = .integer 24 ∨ value = .integer 31 ∨ value = .integer 64
  rootAddress : ∀ value, setting? said "storage" "root_address" = some value →
    ∃ n : Nat, value = .integer n
  encoding : ∀ value, setting? said "layout" "text_encoding" = some value →
    value = .string "ebcdic" ∨ value = .string "ascii"
  placements : ∀ value, setting? said "layout" "overrides" = some value →
    ∃ items, value = .array items ∧ ∀ item ∈ items, FitsPlacement item

section Values

variable {value : Value} {entries : List (String × Value)}

theorem exists_saysMode_iff : (∃ mode, SaysMode value mode) ↔
    value = .integer 24 ∨ value = .integer 31 ∨ value = .integer 64 := by
  constructor
  · rintro ⟨mode, h⟩
    cases h <;> simp
  · rintro (rfl | rfl | rfl)
    exacts [⟨_, .amode24⟩, ⟨_, .amode31⟩, ⟨_, .amode64⟩]

theorem exists_saysEncoding_iff : (∃ encoding, SaysEncoding value encoding) ↔
    value = .string "ebcdic" ∨ value = .string "ascii" := by
  constructor
  · rintro ⟨encoding, h⟩
    cases h <;> simp
  · rintro (rfl | rfl)
    exacts [⟨_, .ebcdic⟩, ⟨_, .ascii⟩]

/-- Since an integer has a sign, none of them is too large for a number of 64 bits. -/
theorem exists_saysWord_iff (hvalue : value.WellFormed) :
    (∃ word, SaysWord value word) ↔ ∃ n : Nat, value = .integer n := by
  constructor
  · rintro ⟨word, h⟩
    exact ⟨_, h⟩
  · rintro ⟨n, rfl⟩
    have hn : n < UInt64.size := by
      cases hvalue
      rw [UInt64.size]
      omega
    exact ⟨UInt64.ofNat n, by rw [SaysWord, UInt64.toNat_ofNat_of_lt' hn]⟩

theorem exists_saysPlacement_iff (hentries : (Value.table entries).WellFormed) :
    (∃ p, SaysPlacement entries p) ↔ FitsPlacement (.table entries) := by
  -- an integer has 64 bits with its sign, so one that is not negative is a word
  have hword (key : String) : (∃ word : UInt64, entries.lookup key = some (.integer word.toNat)) ↔
      ∃ n : Nat, entries.lookup key = some (.integer n) := by
    constructor
    · rintro ⟨word, h⟩
      exact ⟨_, h⟩
    · rintro ⟨n, h⟩
      obtain ⟨word, hword⟩ := (exists_saysWord_iff (hentries.lookup h)).2 ⟨n, rfl⟩
      exact ⟨word, hword ▸ h⟩
  simp only [FitsPlacement, Value.table.injEq, exists_eq_left', ← hword]
  constructor
  · rintro ⟨p, h⟩
    exact ⟨⟨_, h.block⟩, ⟨_, h.field⟩, ⟨_, h.offset⟩, ⟨_, h.width⟩⟩
  · rintro ⟨⟨block, hblock⟩, ⟨field, hfield⟩, ⟨offset, hoffset⟩, width, hwidth⟩
    exact ⟨⟨block, field, offset, width⟩, hblock, hfield, hoffset, hwidth⟩

theorem exists_saysPlacements_iff (hvalue : value.WellFormed) :
    (∃ placements, SaysPlacements value placements) ↔
      ∃ items, value = .array items ∧ ∀ item ∈ items, FitsPlacement item := by
  simp only [SaysPlacements]
  -- there are placements for an array if there is one for each of its items
  rw [exists_comm]
  simp only [exists_and_left, exists_forall₂_iff]
  refine exists_congr fun items => and_congr_right fun h => forall₂_congr fun item hitem => ?_
  subst h
  rw [exists_comm]
  simp only [exists_and_left]
  constructor
  · rintro ⟨entries, rfl, hp⟩
    exact (exists_saysPlacement_iff (Toml.wellFormed_array_iff.1 hvalue _ hitem)).1 hp
  · intro h
    obtain ⟨entries, rfl, -⟩ := id h
    exact ⟨entries, rfl, (exists_saysPlacement_iff (Toml.wellFormed_array_iff.1 hvalue _ hitem)).2 h⟩

theorem exists_told_iff {α : Type} {Says : Value → α → Prop} {before : α} {o : Option Value} :
    (∃ after, Told Says before o after) ↔ ∀ value, o = some value → ∃ after, Says value after := by
  cases o <;> simp

end Values

/-- Settings can be made of values that fit, as each of them has its own part in the settings. -/
theorem Settings.exists_changed_iff {said : String → Option Value} {before : Settings}
    (hsaid : ∀ table key value, setting? said table key = some value → value.WellFormed) :
    (∃ s, Changed said before s) ↔ Fits said := by
  have hparts : (∃ s, Changed said before s) ↔
      (∃ mode, Told SaysMode before.mode (setting? said "storage" "addressing_mode") mode) ∧
      (∃ word, Told SaysWord before.rootAddress (setting? said "storage" "root_address") word) ∧
      (∃ encoding,
        Told SaysEncoding before.encoding (setting? said "layout" "text_encoding") encoding) ∧
      ∃ placements,
        Told SaysPlacements before.placements (setting? said "layout" "overrides") placements := by
    constructor
    · rintro ⟨s, h⟩
      exact ⟨⟨_, h.mode⟩, ⟨_, h.rootAddress⟩, ⟨_, h.encoding⟩, ⟨_, h.placements⟩⟩
    · rintro ⟨⟨mode, hmode⟩, ⟨word, hword⟩, ⟨encoding, hencoding⟩, placements, hplacements⟩
      exact ⟨⟨mode, word, encoding, placements⟩, hmode, hword, hencoding, hplacements⟩
  rw [hparts, fits_iff]
  simp only [exists_told_iff]
  refine and_congr ?_ (and_congr ?_ (and_congr ?_ ?_)) <;>
    refine forall₂_congr fun value hvalue => ?_
  · exact exists_saysMode_iff
  · exact exists_saysWord_iff (hsaid _ _ _ hvalue)
  · exact exists_saysEncoding_iff
  · exact exists_saysPlacements_iff (hsaid _ _ _ hvalue)

/-! ## Section 2: Order and other keys -/

/-- Tables that say the same under some keys, for each of which it is given what the same is.  The
entries under these keys may come in another order, and there may be any others. -/
def SameUnder (members : List (String × (Value → Value → Prop)))
    (entries entries' : List (String × Value)) : Prop :=
  ∃ reordered, (entries.filter fun entry => entry.1 ∈ members.map Prod.fst).Perm reordered ∧
    List.Forall₂ (fun entry entry' =>
      entry.1 = entry'.1 ∧ ∀ m ∈ members, m.1 = entry.1 → m.2 entry.2 entry'.2)
      reordered (entries'.filter fun entry => entry.1 ∈ members.map Prod.fst)

/-- Values that are such tables. -/
def SameTable (members : List (String × (Value → Value → Prop))) (value value' : Value) : Prop :=
  ∃ entries entries', value = .table entries ∧ value' = .table entries' ∧
    SameUnder members entries entries'

def SamePlacement : Value → Value → Prop :=
  SameTable [("block", Eq), ("field", Eq), ("offset", Eq), ("width", Eq)]

/-- The same placements in the same order, or the same value instead of placements. -/
def SamePlacements (value value' : Value) : Prop :=
  value = value' ∨ ∃ items items', value = .array items ∧ value' = .array items' ∧
    List.Forall₂ SamePlacement items items'

/-- The same under all keys that have a meaning. -/
def SameSettings : List (String × Value) → List (String × Value) → Prop :=
  SameUnder [
    ("storage", SameTable [("addressing_mode", Eq), ("root_address", Eq)]),
    ("layout", SameTable [("text_encoding", Eq), ("overrides", SamePlacements)])]

section Same

variable {members : List (String × (Value → Value → Prop))} {Same : Value → Value → Prop}
  {key : String} {entries entries' : List (String × Value)} {o o' : Option Value}
  {value value' : Value}

theorem eq_of_rel_eq (h : Option.Rel Eq o o') : o = o' := by
  cases h with
  | some h => rw [h]
  | none => rfl

theorem exists_of_rel (h : Option.Rel Same o (some value')) :
    ∃ value, o = some value ∧ Same value value' := by
  cases h with
  | some h => exact ⟨_, rfl, h⟩

theorem table_of_rel (h : Option.Rel (SameTable members) o (some value')) :
    ∃ entries, value' = .table entries := by
  obtain ⟨_, -, _, entries, -, hvalue, -⟩ := exists_of_rel h
  exact ⟨entries, hvalue⟩

theorem rel_lookup_of_forall₂ (hmember : (key, Same) ∈ members)
    (h : List.Forall₂ (fun entry entry' =>
      entry.1 = entry'.1 ∧ ∀ m ∈ members, m.1 = entry.1 → m.2 entry.2 entry'.2) entries entries') :
    Option.Rel Same (entries.lookup key) (entries'.lookup key) := by
  induction h with
  | nil => exact .none
  | @cons entry entry' rest rest' hentry _ ih =>
    obtain ⟨k, value⟩ := entry
    obtain ⟨k', value'⟩ := entry'
    obtain ⟨rfl, hsame⟩ := hentry
    rw [List.lookup_cons, List.lookup_cons]
    -- both tables have the same keys, so the first entry is found in both or in neither
    by_cases hk : key = k
    · rw [beq_iff_eq.2 hk]
      exact .some (hsame _ hmember hk)
    · rw [beq_eq_false_iff_ne.2 hk]
      exact ih

/-- If no key occurs twice, the same is under each of the keys. -/
theorem SameUnder.rel_lookup (hsame : SameUnder members entries entries')
    (hmember : (key, Same) ∈ members) (hkeys : (entries.map Prod.fst).Nodup) :
    Option.Rel Same (entries.lookup key) (entries'.lookup key) := by
  obtain ⟨reordered, hperm, hsame⟩ := hsame
  have hkey : key ∈ members.map Prod.fst := List.mem_map_of_mem hmember
  have hreordered :=
    @lookup_congr_of_perm _ _ _ key (hkeys.sublist (List.filter_sublist.map Prod.fst)) hperm
  -- other keys do not matter, on either side, and neither does the order
  rw [← lookup_filter_of_mem hkey, hreordered, ← @lookup_filter_of_mem _ entries' _ _ hkey]
  exact rel_lookup_of_forall₂ hmember hsame

theorem rel_under? (h : Option.Rel (SameTable members) o o')
    (ho : ∀ value, o = some value → value.WellFormed) (hmember : (key, Same) ∈ members) :
    Option.Rel Same (o.bind (under? key)) (o'.bind (under? key)) := by
  cases h with
  | none => exact .none
  | some h =>
    obtain ⟨entries, entries', rfl, rfl, hsame⟩ := h
    exact hsame.rel_lookup hmember (ho _ rfl).keys

theorem told_congr {α : Type} {Says : Value → α → Prop} {before after : α}
    (h : Option.Rel Same o o')
    (hvalues : ∀ value value', o = some value → Same value value' →
      (Says value after ↔ Says value' after)) :
    Told Says before o after ↔ Told Says before o' after := by
  cases h with
  | none => rfl
  | some h => exact hvalues _ _ rfl h

theorem saysPlacement_congr {p : Placement} (hsame : SamePlacement value value')
    (hvalue : value.WellFormed) :
    (∃ entries, value = .table entries ∧ SaysPlacement entries p) ↔
      ∃ entries, value' = .table entries ∧ SaysPlacement entries p := by
  obtain ⟨entries, entries', rfl, rfl, hsame⟩ := hsame
  have hlookup (key : String) (hmember : (key, Eq) ∈ _) :
      entries.lookup key = entries'.lookup key :=
    eq_of_rel_eq (hsame.rel_lookup hmember hvalue.keys)
  simp only [Value.table.injEq, exists_eq_left', saysPlacement_iff]
  rw [hlookup "block" (by simp), hlookup "field" (by simp), hlookup "offset" (by simp),
    hlookup "width" (by simp)]

theorem saysPlacements_congr {placements : List Placement} (hsame : SamePlacements value value')
    (hvalue : value.WellFormed) :
    SaysPlacements value placements ↔ SaysPlacements value' placements := by
  obtain rfl | ⟨items, items', rfl, rfl, hsame⟩ := hsame
  · rfl
  · have hitems := Toml.wellFormed_array_iff.1 hvalue
    clear hvalue
    simp only [SaysPlacements, Value.array.injEq, exists_eq_left']
    -- along both arrays at once, as they have the same placements at the same positions
    induction hsame generalizing placements with
    | nil => rfl
    | cons hitem _ ih =>
      obtain ⟨hwellFormed, hrest⟩ := List.forall_mem_cons.1 hitems
      simp only [List.forall₂_cons_left_iff, saysPlacement_congr hitem hwellFormed, ih hrest]

end Same

namespace Settings

variable {document document' : List (String × Value)} {Same : Value → Value → Prop}

theorem rel_storage (hsame : SameSettings document document')
    (hdocument : (Value.table document).WellFormed) (key : String)
    (hmember : (key, Same) ∈ [("addressing_mode", Eq), ("root_address", Eq)]) :
    Option.Rel Same (setting? (fun key => document.lookup key) "storage" key)
      (setting? (fun key => document'.lookup key) "storage" key) :=
  rel_under? (hsame.rel_lookup (by simp) hdocument.keys) (fun _ => hdocument.lookup) hmember

theorem rel_layout (hsame : SameSettings document document')
    (hdocument : (Value.table document).WellFormed) (key : String)
    (hmember : (key, Same) ∈ [("text_encoding", Eq), ("overrides", SamePlacements)]) :
    Option.Rel Same (setting? (fun key => document.lookup key) "layout" key)
      (setting? (fun key => document'.lookup key) "layout" key) :=
  rel_under? (hsame.rel_lookup (by simp) hdocument.keys) (fun _ => hdocument.lookup) hmember

/-- Documents that say the same make the same of settings. -/
theorem changed_congr (hsame : SameSettings document document')
    (hdocument : (Value.table document).WellFormed) {before after : Settings} :
    Changed (fun key => document.lookup key) before after ↔
      Changed (fun key => document'.lookup key) before after := by
  have hmode := eq_of_rel_eq (rel_storage hsame hdocument "addressing_mode" (by simp))
  have hroot := eq_of_rel_eq (rel_storage hsame hdocument "root_address" (by simp))
  have hencoding := eq_of_rel_eq (rel_layout hsame hdocument "text_encoding" (by simp))
  have hplacements :=
    @rel_layout _ _ SamePlacements hsame hdocument "overrides" (by simp)
  -- only placements may differ, in the order of their own keys and in others
  rw [changed_iff, changed_iff, hmode, hroot, hencoding]
  refine and_congr_right' (and_congr_right' (and_congr_right' (told_congr hplacements ?_)))
  intro value value' hvalue h
  exact saysPlacements_congr h (wellFormed_of_setting? hdocument hvalue)

theorem Shaped.congr (hshaped : Shaped fun key => document.lookup key)
    (hsame : SameSettings document document') (hdocument : (Value.table document).WellFormed) :
    Shaped fun key => document'.lookup key where
  storage value hvalue := by
    have hstorage := hsame.rel_lookup List.mem_cons_self hdocument.keys
    exact table_of_rel (hvalue ▸ hstorage)
  layout value hvalue := by
    have hlayout :=
      hsame.rel_lookup (List.mem_cons_of_mem _ List.mem_cons_self) hdocument.keys
    exact table_of_rel (hvalue ▸ hlayout)
  encoding := by
    have hencoding := eq_of_rel_eq (rel_layout hsame hdocument "text_encoding" (by simp))
    exact hencoding ▸ hshaped.encoding
  placements items' hitems' := by
    have hplacements := @rel_layout _ _ SamePlacements hsame hdocument "overrides" (by simp)
    rw [hitems'] at hplacements
    obtain ⟨value, hvalue, rfl | ⟨items, _, rfl, heq, hitems⟩⟩ := exists_of_rel hplacements
    · exact hshaped.placements _ hvalue
    · cases heq
      intro item' hitem'
      obtain ⟨_, _, _, entries', _, hentries', _⟩ := exists_left_of_forall₂ hitems hitem'
      exact ⟨entries', hentries'⟩

/-! ## Section 3: The outcome -/

/-- Settings are read from the document that a text is.  Of the documents with integers of 64 bits
and no key twice, in which the tables for settings are tables and an encoding is a text, exactly
those hold settings whose values fit; the settings are what the values say, and the defaults where
there are none.  The order of the keys and what is under other keys have no part in it.  Which of
several faults is reported may depend on the order. -/
theorem ofDocument_outcome :
    (∀ wording text document, Toml.parse? text = some document →
      (Value.table document).WellFormed ∧
        ofText wording text = (ofDocument document).mapError fun reason =>
          .misfit reason (wording.misfit text reason.message)) ∧
    ∀ document, (Value.table document).WellFormed → (Shaped fun key => document.lookup key) →
      ((∃ s, ofDocument document = .ok s) ↔ Fits fun key => document.lookup key) ∧
      (∀ s, ofDocument document = .ok s ↔
        Changed (fun key => document.lookup key) ⟨.amode31, 0, .ebcdic, []⟩ s) ∧
      ∀ document', (Value.table document').WellFormed → SameSettings document document' →
        ∀ s, ofDocument document' = .ok s ↔ ofDocument document = .ok s := by
  refine ⟨fun wording text document h => ⟨Toml.wellFormed_of_parse? h, by rw [ofText, h]⟩,
    fun document hdocument hshaped => ?_⟩
  -- all that is asked of a document is what it says under the keys with a meaning
  have hsaid {s : Settings} := @ofDocument_eq_ok_iff _ s hdocument hshaped
  refine ⟨?_, fun _ => hsaid, fun document' hdocument' hsame s => ?_⟩
  · simp only [hsaid]
    exact exists_changed_iff fun _ _ _ => wellFormed_of_setting? hdocument
  · rw [hsaid, ofDocument_eq_ok_iff hdocument' (hshaped.congr hsame hdocument),
      changed_congr hsame hdocument]

/-- A text in which the keys are in no particular order and some of them have no meaning. -/
def jumbledText : String :=
  "x = 1\n[layout]\noverrides = [ \x7b block = \"CVTEXT2\", y = \"\", field = \"IODF_ID\", "
    ++ "width = 8, offset = 4 \x7d ]\ntext_encoding = \"ascii\"\n[storage]\nroot_address = 512"

def jumbledPlacement : Value := .table [("block", .string "CVTEXT2"), ("y", .string ""),
  ("field", .string "IODF_ID"), ("width", .integer 8), ("offset", .integer 4)]

def jumbled : List (String × Value) := [
  ("x", .integer 1),
  ("layout", .table [("overrides", .array [jumbledPlacement]), ("text_encoding", .string "ascii")]),
  ("storage", .table [("root_address", .integer 512)])]

/-- The same placement without the key that has no meaning. -/
def tidyPlacement : Value := .table [("block", .string "CVTEXT2"), ("field", .string "IODF_ID"),
  ("offset", .integer 4), ("width", .integer 8)]

/-- The same document without the keys that have no meaning. -/
def tidy : List (String × Value) := [
  ("storage", .table [("root_address", .integer 512)]),
  ("layout", .table [("text_encoding", .string "ascii"), ("overrides", .array [tidyPlacement])])]

theorem wellFormed_jumbled : (Value.table jumbled).WellFormed := by
  simp [jumbled, jumbledPlacement, Toml.wellFormed_table_iff, Toml.wellFormed_array_iff,
    Toml.wellFormed_integer_iff, Value.WellFormed.string]

theorem wellFormed_tidy : (Value.table tidy).WellFormed := by
  simp [tidy, tidyPlacement, Toml.wellFormed_table_iff, Toml.wellFormed_array_iff,
    Toml.wellFormed_integer_iff, Value.WellFormed.string]

theorem shaped_jumbled : Shaped fun key => jumbled.lookup key where
  storage := by simp [jumbled, List.lookup_cons]
  layout := by simp [jumbled, List.lookup_cons]
  encoding := by simp [setting?, under?, jumbled, List.lookup_cons]
  placements := by simp [setting?, under?, jumbled, jumbledPlacement, List.lookup_cons]

theorem sameSettings_jumbled_tidy : SameSettings jumbled tidy := by
  have hplacement : SamePlacement jumbledPlacement tidyPlacement := by
    refine ⟨_, _, rfl, rfl, [("block", .string "CVTEXT2"), ("field", .string "IODF_ID"),
      ("offset", .integer 4), ("width", .integer 8)], ?_, by simp⟩
    simpa using List.Perm.swap ..
  have hplacements : SamePlacements (.array [jumbledPlacement]) (.array [tidyPlacement]) :=
    Or.inr ⟨_, _, rfl, rfl, .cons hplacement .nil⟩
  have hlayout : SameTable [("text_encoding", Eq), ("overrides", SamePlacements)]
      (.table [("overrides", .array [jumbledPlacement]), ("text_encoding", .string "ascii")])
      (.table [("text_encoding", .string "ascii"), ("overrides", .array [tidyPlacement])]) := by
    refine ⟨_, _, rfl, rfl, [("text_encoding", .string "ascii"),
      ("overrides", .array [jumbledPlacement])], ?_, by simpa using hplacements⟩
    simpa using List.Perm.swap ..
  have hstorage : SameTable [("addressing_mode", Eq), ("root_address", Eq)]
      (.table [("root_address", .integer 512)]) (.table [("root_address", .integer 512)]) :=
    ⟨_, _, rfl, rfl, [("root_address", .integer 512)], by simp, by simp⟩
  -- the key `x` is left out, and the two tables change places
  refine ⟨[jumbled[2], jumbled[1]], ?_, by simpa [jumbled, tidy] using ⟨hstorage, hlayout⟩⟩
  simpa [jumbled] using List.Perm.swap ..

/-- The text holds the settings that are in both documents. -/
theorem ofDocument_outcome_jumbled :
    let settings : Settings := ⟨.amode31, 512, .ascii, [⟨"CVTEXT2", "IODF_ID", 4, 8⟩]⟩
    (∃ document, Toml.parse? jumbledText = some document ∧ (Value.table document).WellFormed ∧
      ofDocument document = .ok settings) ∧
    (Value.table jumbled).WellFormed ∧ (Shaped fun key => jumbled.lookup key) ∧
    (Fits fun key => jumbled.lookup key) ∧ ofDocument jumbled = .ok settings ∧
    (Value.table tidy).WellFormed ∧ SameSettings jumbled tidy ∧ ofDocument tidy = .ok settings := by
  intro settings
  have hread : ofDocument jumbled = .ok settings := by decide +kernel
  have htext : ofText .brief jumbledText = .ok settings := by decide +kernel
  obtain ⟨hparsed, houtcome⟩ := ofDocument_outcome
  obtain ⟨hfits, -, hsame⟩ := houtcome jumbled wellFormed_jumbled shaped_jumbled
  refine ⟨?_, wellFormed_jumbled, shaped_jumbled, hfits.1 ⟨_, hread⟩, hread, wellFormed_tidy,
    sameSettings_jumbled_tidy, (hsame tidy wellFormed_tidy sameSettings_jumbled_tidy _).2 hread⟩
  -- the text is read as some document, which need not be shown to be `jumbled`
  cases hdocument : Toml.parse? jumbledText with
  | none => simp [ofText, hdocument] at htext
  | some document =>
    obtain ⟨hwellFormed, hsame⟩ := hparsed .brief jumbledText document hdocument
    exact ⟨document, rfl, hwellFormed, mapError_eq_ok_iff.1 (hsame ▸ htext)⟩

end Settings

end IplReport
