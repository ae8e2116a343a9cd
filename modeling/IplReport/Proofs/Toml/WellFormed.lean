import IplReport.Proofs.Lookup
import IplReport.Toml.Document

/-!
# Well-formed documents

The tables of a settings file are filled piece by piece: headers and keys with points may come back
to a table that has been begun before.  Whatever way a document takes, it ends up as a tree in which
no table has a key twice and all integers have 64 bits.

Main statements:
- `Value.WellFormed`: what a document may be, wherever it comes from;
- `wellFormed_of_parse?`: every text that is a document is one of these.
-/

namespace IplReport.Toml

/-! ## Section 1: Well-formed values -/

/-- Integers have 64 bits with a sign, and no table has a key twice, however deep it is. -/
inductive Value.WellFormed : Value → Prop where
  | string (text : String) : WellFormed (.string text)
  | integer {value : Int} : -0x8000000000000000 ≤ value → value < 0x8000000000000000 →
      WellFormed (.integer value)
  | float (value : Binary64) : WellFormed (.float value)
  | boolean (value : Bool) : WellFormed (.boolean value)
  | moment (text : String) : WellFormed (.moment text)
  | array {items : List Value} : (∀ item ∈ items, WellFormed item) → WellFormed (.array items)
  | table {entries : List (String × Value)} : (entries.map Prod.fst).Nodup →
      (∀ entry ∈ entries, WellFormed entry.2) → WellFormed (.table entries)

section Parts

variable {value : Int} {items : List Value} {entries : List (String × Value)}

theorem wellFormed_integer_iff : (Value.integer value).WellFormed ↔
    -0x8000000000000000 ≤ value ∧ value < 0x8000000000000000 :=
  ⟨fun h => by cases h; exact ⟨‹_›, ‹_›⟩, fun h => .integer h.1 h.2⟩

theorem wellFormed_array_iff :
    (Value.array items).WellFormed ↔ ∀ item ∈ items, item.WellFormed :=
  ⟨fun h => by cases h; assumption, .array⟩

theorem wellFormed_table_iff : (Value.table entries).WellFormed ↔
    (entries.map Prod.fst).Nodup ∧ ∀ entry ∈ entries, entry.2.WellFormed :=
  ⟨fun h => by cases h; exact ⟨‹_›, ‹_›⟩, fun h => .table h.1 h.2⟩

theorem Value.WellFormed.keys (h : (Value.table entries).WellFormed) :
    (entries.map Prod.fst).Nodup :=
  (wellFormed_table_iff.1 h).1

theorem Value.WellFormed.entry (h : (Value.table entries).WellFormed) :
    ∀ entry ∈ entries, entry.2.WellFormed :=
  (wellFormed_table_iff.1 h).2

theorem Value.WellFormed.lookup {key : String} {value : Value}
    (h : (Value.table entries).WellFormed) (hvalue : entries.lookup key = some value) :
    value.WellFormed :=
  h.entry _ ((lookup_eq_some_iff_mem h.keys).1 hvalue)

end Parts

/-- The same of what stands under a key of a table under construction. -/
inductive Node.WellFormed : Node → Prop where
  | leaf {value : Value} : value.WellFormed → WellFormed (.leaf value)
  | table {origin : TableOrigin} {entries : List (String × Node)} :
      (entries.map Prod.fst).Nodup → (∀ entry ∈ entries, WellFormed entry.2) →
      WellFormed (.table origin entries)
  | tables {items : List (List (String × Node))} :
      (∀ entries ∈ items, (entries.map Prod.fst).Nodup) →
      (∀ entries ∈ items, ∀ entry ∈ entries, WellFormed entry.2) → WellFormed (.tables items)

/-- The same of the entries of a table under construction. -/
structure Entries.WellFormed (entries : Entries) : Prop where
  keys : (entries.map Prod.fst).Nodup
  nodes : ∀ entry ∈ entries, entry.2.WellFormed

section Finished

variable {entries : Entries} {node : Node}

theorem entriesToValues_eq_map (entries : Entries) :
    entriesToValues entries = entries.map fun entry => (entry.1, entry.2.toValue) := by
  induction entries with
  | nil => rfl
  | cons entry rest ih => rw [entriesToValues, ih, List.map_cons]

theorem itemsToValues_eq_map (items : List Entries) :
    itemsToValues items = items.map fun entries => .table (entriesToValues entries) := by
  induction items with
  | nil => rfl
  | cons entries rest ih => rw [itemsToValues, ih, List.map_cons]

theorem wellFormed_entriesToValues (hkeys : (entries.map Prod.fst).Nodup)
    (hvalues : ∀ entry ∈ entries, entry.2.toValue.WellFormed) :
    (Value.table (entriesToValues entries)).WellFormed := by
  rw [entriesToValues_eq_map]
  refine .table ?_ (List.forall_mem_map.2 hvalues)
  -- the keys stay as they are
  rwa [List.map_map]

/-- What is well formed while it is under construction is so when it is finished. -/
theorem Node.WellFormed.toValue (h : node.WellFormed) : node.toValue.WellFormed := by
  induction h with
  | leaf h => exact h
  | table hkeys _ ih => exact wellFormed_entriesToValues hkeys ih
  | tables hkeys _ ih =>
    rw [Node.toValue, itemsToValues_eq_map]
    exact .array (List.forall_mem_map.2 fun entries hentries =>
      wellFormed_entriesToValues (hkeys entries hentries) (ih entries hentries))

theorem Entries.WellFormed.toValue (h : entries.WellFormed) :
    (Value.table (entriesToValues entries)).WellFormed :=
  wellFormed_entriesToValues h.keys fun entry hentry => (h.nodes entry hentry).toValue

end Finished

/-! ## Section 2: Tables under construction -/

namespace Entries

variable {key : String} {change : Option Node → Option Node} {entries entries' : Entries}
  {items items' : List Entries} {value : Value}

theorem wellFormed_nil : WellFormed [] := ⟨List.nodup_nil, by simp⟩

theorem WellFormed.concat {node : Node} (h : entries.WellFormed)
    (hkey : key ∉ entries.map Prod.fst) (hnode : node.WellFormed) :
    WellFormed (entries ++ [(key, node)]) := by
  refine ⟨?_, List.forall_mem_append.2 ⟨h.nodes, by simpa using hnode⟩⟩
  simpa using h.keys.concat hkey

/-- A change under a key is made to the entry with that key, or puts a new one at the end. -/
theorem cases_of_alter? (h : entries.alter? key change = some entries') :
    (∃ before node after node', entries = before ++ (key, node) :: after ∧
      change (some node) = some node' ∧ entries' = before ++ (key, node') :: after) ∨
    key ∉ entries.map Prod.fst ∧ ∃ node', change none = some node' ∧
      entries' = entries ++ [(key, node')] := by
  induction entries generalizing entries' with
  | nil =>
    obtain ⟨node', hchange, hsame⟩ := Option.bind_eq_some_iff.1 h
    cases hsame
    exact Or.inr ⟨by simp, node', hchange, rfl⟩
  | cons entry rest ih =>
    obtain ⟨k, node⟩ := entry
    rw [alter?] at h
    split at h
    · rename_i hkey
      obtain rfl : k = key := beq_iff_eq.1 hkey
      obtain ⟨node', hchange, hsame⟩ := Option.bind_eq_some_iff.1 h
      cases hsame
      exact Or.inl ⟨[], node, rest, node', rfl, hchange, rfl⟩
    · rename_i hkey
      have hkey : k ≠ key := by simpa using hkey
      -- the change is made further down, with this entry in front
      obtain ⟨rest', hrest, hsame⟩ := Option.bind_eq_some_iff.1 h
      cases hsame
      rcases ih hrest with ⟨before, node₀, after, node', rfl, hchange, rfl⟩ |
        ⟨hnew, node', hchange, rfl⟩
      · exact Or.inl ⟨(k, node) :: before, node₀, after, node', rfl, hchange, rfl⟩
      · exact Or.inr ⟨by simp [hkey.symm] at hnew ⊢; exact hnew, node', hchange, rfl⟩

/-- Of some tables, the last one is changed. -/
theorem cases_of_alterLast? {change : Entries → Option Entries}
    (h : alterLast? change items = some items') :
    ∃ before last last', items = before ++ [last] ∧ change last = some last' ∧
      items' = before ++ [last'] := by
  -- along the tables down to the last one, which is the only one that changes
  fun_induction alterLast? change items generalizing items' with
  | case1 => cases h
  | case2 entries =>
    obtain ⟨last', hchange, hsame⟩ := Option.bind_eq_some_iff.1 h
    cases hsame
    exact ⟨[], entries, last', rfl, hchange, rfl⟩
  | case3 entries rest _ ih =>
    obtain ⟨rest', hrest, hsame⟩ := Option.bind_eq_some_iff.1 h
    cases hsame
    obtain ⟨before, last, last', rfl, hchange, rfl⟩ := ih hrest
    exact ⟨entries :: before, last, last', rfl, hchange, rfl⟩

/-- A change under a key keeps a table well formed if it does so with what stands there. -/
theorem WellFormed.alter? (h : entries.WellFormed)
    (hnew : ∀ node', change none = some node' → node'.WellFormed)
    (hold : ∀ node node', node.WellFormed → change (some node) = some node' → node'.WellFormed)
    (hchanged : entries.alter? key change = some entries') : entries'.WellFormed := by
  rcases cases_of_alter? hchanged with ⟨before, node, after, node', rfl, hchange, rfl⟩ |
    ⟨hkey, node', hchange, rfl⟩
  · obtain ⟨hbefore, hafter⟩ := List.forall_mem_append.1 h.nodes
    obtain ⟨hnode, hafter⟩ := List.forall_mem_cons.1 hafter
    have hnode' : node'.WellFormed := hold node node' hnode hchange
    refine ⟨by simpa using h.keys, List.forall_mem_append.2 ⟨hbefore, ?_⟩⟩
    exact List.forall_mem_cons.2 ⟨hnode', hafter⟩
  · exact h.concat hkey (hnew node' hchange)

theorem WellFormed.alterLast? {change : Entries → Option Entries}
    (h : ∀ entries ∈ items, entries.WellFormed)
    (hold : ∀ entries entries', entries.WellFormed → change entries = some entries' →
      entries'.WellFormed)
    (hchanged : Entries.alterLast? change items = some items') :
    ∀ entries ∈ items', entries.WellFormed := by
  obtain ⟨before, last, last', rfl, hchange, rfl⟩ := cases_of_alterLast? hchanged
  obtain ⟨hbefore, hlast⟩ := List.forall_mem_append.1 h
  have hlast' := hold last last' (hlast last (by simp)) hchange
  exact List.forall_mem_append.2 ⟨hbefore, by simpa using hlast'⟩

theorem node_table_iff {origin : TableOrigin} :
    (Node.table origin entries).WellFormed ↔ entries.WellFormed := by
  constructor
  · intro h
    cases h with
    | table hkeys hnodes => exact ⟨hkeys, hnodes⟩
  · exact fun h => .table h.keys h.nodes

theorem node_tables_iff :
    (Node.tables items).WellFormed ↔ ∀ entries ∈ items, WellFormed entries := by
  constructor
  · intro h entries hentries
    cases h with
    | tables hkeys hnodes => exact ⟨hkeys entries hentries, hnodes entries hentries⟩
  · exact fun h => .tables (fun entries hentries => (h entries hentries).keys)
      fun entries hentries => (h entries hentries).nodes

/-- So does a change of the table that stands there, or that is put there, or of the last one of
some tables. -/
theorem WellFormed.alter?_of_deeper (deeper : Entries → Option Entries) (h : entries.WellFormed)
    (hdeeper : ∀ entries entries', entries.WellFormed → deeper entries = some entries' →
      entries'.WellFormed)
    (hnone : ∀ node', change none = some node' →
      ∃ origin, (deeper []).map (.table origin) = some node')
    (hleaf : ∀ value, change (some (.leaf value)) = none)
    (htable : ∀ origin inner node', change (some (.table origin inner)) = some node' →
      (deeper inner).map (.table origin) = some node')
    (htables : ∀ items node', change (some (.tables items)) = some node' →
      (Entries.alterLast? deeper items).map .tables = some node')
    (hchanged : entries.alter? key change = some entries') : entries'.WellFormed := by
  refine h.alter? (fun node' hnode' => ?_) (fun node node' hnode hnode' => ?_) hchanged
  · obtain ⟨origin, hnode'⟩ := hnone node' hnode'
    obtain ⟨inner, hinner, rfl⟩ := Option.map_eq_some_iff.1 hnode'
    exact node_table_iff.2 (hdeeper _ _ wellFormed_nil hinner)
  · cases node with
    | leaf value =>
      rw [hleaf] at hnode'
      cases hnode'
    | table origin inner =>
      obtain ⟨inner', hinner', rfl⟩ := Option.map_eq_some_iff.1 (htable origin inner node' hnode')
      exact node_table_iff.2 (hdeeper _ _ (node_table_iff.1 hnode) hinner')
    | tables items =>
      obtain ⟨items', hitems', rfl⟩ := Option.map_eq_some_iff.1 (htables items node' hnode')
      exact node_tables_iff.2 (WellFormed.alterLast? (node_tables_iff.1 hnode) hdeeper hitems')

/-- Values are put below tables that may have to be made first. -/
theorem WellFormed.put? {parents : List String} (hvalue : value.WellFormed) (h : entries.WellFormed)
    (hput : entries.put? key value parents = some entries') : entries'.WellFormed := by
  induction parents generalizing entries entries' with
  | nil =>
    rw [Entries.put?] at hput
    refine h.alter? (fun node' hnode' => ?_) (fun node node' _ hnode' => by cases hnode') hput
    cases hnode'
    exact .leaf hvalue
  | cons parent deeper ih =>
    rw [Entries.put?] at hput
    -- on the way a table is changed, whether it is there or has to be made
    refine h.alter?_of_deeper (Entries.put? key value deeper)
      (fun _ _ hentries hdeeper => ih hentries hdeeper) (fun node' hnode' => ⟨_, hnode'⟩)
      (fun _ => rfl) (fun origin inner node' hnode' => ?_) (fun items node' hnode' => ?_) hput
    · dsimp only at hnode'
      split at hnode'
      · cases hnode'
      · exact hnode'
    · dsimp only at hnode'
      split at hnode'
      · cases hnode'
      · exact hnode'

theorem WellFormed.putAll? {pairs : List (KeyPath × Value)}
    (hpairs : ∀ pair ∈ pairs, pair.2.WellFormed) (h : entries.WellFormed)
    (hput : entries.putAll? pairs = some entries') : entries'.WellFormed := by
  induction pairs generalizing entries with
  | nil =>
    cases hput
    exact h
  | cons pair rest ih =>
    obtain ⟨entries₁, hfirst, hrest⟩ := Option.bind_eq_some_iff.1 hput
    obtain ⟨hpair, hpairs⟩ := List.forall_mem_cons.1 hpairs
    exact ih hpairs (h.put? hpair hfirst) hrest

theorem WellFormed.alterAt? {change : Entries → Option Entries} {parents : List String}
    (hchange : ∀ entries entries', entries.WellFormed → change entries = some entries' →
      entries'.WellFormed) (h : entries.WellFormed)
    (hchanged : entries.alterAt? change parents = some entries') : entries'.WellFormed := by
  induction parents generalizing entries entries' with
  | nil => exact hchange _ _ h hchanged
  | cons parent deeper ih =>
    rw [Entries.alterAt?] at hchanged
    exact h.alter?_of_deeper (Entries.alterAt? change deeper)
      (fun _ _ hentries hdeeper => ih hentries hdeeper) (fun node' hnode' => ⟨_, hnode'⟩)
      (fun _ => rfl) (fun _ _ _ hnode' => hnode') (fun _ _ hnode' => hnode') hchanged

/-- A header makes a new table, or comes back to one that was only implied. -/
theorem WellFormed.defineTable? {path : KeyPath} {pairs : List (KeyPath × Value)}
    (hpairs : ∀ pair ∈ pairs, pair.2.WellFormed) (h : entries.WellFormed)
    (hdefined : entries.defineTable? path pairs = some entries') : entries'.WellFormed := by
  refine h.alterAt? (fun siblings siblings' hsiblings hsiblings' => ?_) hdefined
  dsimp only at hsiblings'
  split at hsiblings'
  case h_1 hlookup =>
    obtain ⟨table, htable, hsame⟩ := Option.bind_eq_some_iff.1 hsiblings'
    cases hsame
    have hkey := lookup_eq_none_iff_notMem.1 hlookup
    exact hsiblings.concat hkey (node_table_iff.2 (wellFormed_nil.putAll? hpairs htable))
  -- the table was only implied so far: it is filled and moves to the end
  case h_2 inner hlookup =>
    obtain ⟨table, htable, hsame⟩ := Option.bind_eq_some_iff.1 hsiblings'
    cases hsame
    have hinner : WellFormed inner := by
      obtain ⟨before, after, hcut, -⟩ := List.lookup_eq_some_iff.1 hlookup
      have hnode := hsiblings.nodes (path.key, .table .implied inner) (by simp [hcut])
      exact node_table_iff.1 hnode
    have hothers : WellFormed (siblings.filter fun entry => entry.1 != path.key) :=
      ⟨hsiblings.keys.sublist (List.filter_sublist.map Prod.fst),
        fun entry hentry => hsiblings.nodes entry (List.mem_of_mem_filter hentry)⟩
    exact hothers.concat (by simp) (node_table_iff.2 (hinner.putAll? hpairs htable))
  case h_3 => cases hsiblings'

theorem WellFormed.appendTable? {path : KeyPath} {pairs : List (KeyPath × Value)}
    (hpairs : ∀ pair ∈ pairs, pair.2.WellFormed) (h : entries.WellFormed)
    (hadded : entries.appendTable? path pairs = some entries') : entries'.WellFormed := by
  refine h.alterAt? (fun siblings siblings' hsiblings hsiblings' => ?_) hadded
  refine hsiblings.alter? (fun node' hnode' => ?_) (fun node node' hnode hnode' => ?_) hsiblings'
  · obtain ⟨table, htable, hsame⟩ := Option.bind_eq_some_iff.1 hnode'
    cases hsame
    have htable : table.WellFormed := wellFormed_nil.putAll? hpairs htable
    exact node_tables_iff.2 (by simpa using htable)
  -- only tables that were appended before can get one more
  · cases node with
    | leaf => cases hnode'
    | table => cases hnode'
    | tables items =>
      obtain ⟨table, htable, hsame⟩ := Option.bind_eq_some_iff.1 hnode'
      cases hsame
      have htable : table.WellFormed := wellFormed_nil.putAll? hpairs htable
      have hitems := node_tables_iff.1 hnode
      exact node_tables_iff.2 (List.forall_mem_append.2 ⟨hitems, by simpa using htable⟩)

end Entries

/-! ## Section 3: Texts -/

/-- Whatever a scan finds has a property. -/
def Scan.Finds {α : Type} (scan : Scan α) (P : α → Prop) : Prop :=
  ∀ cs a rest, scan cs = some (a, rest) → P a

section Texts

variable {item : Scan Value}

theorem finds_markedInteger? (base : Nat) : Scan.Finds (markedInteger? base) Value.WellFormed := by
  intro cs value rest h
  obtain ⟨⟨digits, rest'⟩, -, h⟩ := Option.bind_eq_some_iff.1 h
  obtain ⟨hvalue, hsame⟩ := Option.ite_none_right_eq_some.1 h
  cases hsame
  rw [integerBound] at hvalue
  exact .integer (by omega) (by omega)

theorem finds_decimalInteger? : Scan.Finds decimalInteger? Value.WellFormed := by
  intro cs value rest h
  obtain ⟨⟨digits, rest'⟩, -, h⟩ := Option.bind_eq_some_iff.1 h
  obtain ⟨⟨hleast, hgreatest⟩, hsame⟩ := Option.ite_none_right_eq_some.1 h
  cases hsame
  have hbound : (integerBound : Int) = 0x8000000000000000 := rfl
  rw [hbound] at hleast hgreatest
  exact .integer hleast hgreatest

theorem finds_integer? : Scan.Finds integer? Value.WellFormed := by
  intro cs value rest h
  unfold integer? at h
  split at h
  · exact finds_markedInteger? _ _ _ _ h
  · exact finds_markedInteger? _ _ _ _ h
  · exact finds_markedInteger? _ _ _ _ h
  · exact finds_decimalInteger? _ _ _ h

theorem finds_float? : Scan.Finds float? Value.WellFormed := by
  intro cs value rest h
  rcases Option.or_eq_some_iff.1 h with h | ⟨-, h⟩
  · obtain ⟨⟨whole, rest₁⟩, -, h⟩ := Option.bind_eq_some_iff.1 h
    obtain ⟨⟨⟨fraction, exponent⟩, rest₂⟩, -, h⟩ := Option.bind_eq_some_iff.1 h
    obtain ⟨-, hsame⟩ := Option.ite_none_left_eq_some.1 h
    cases hsame
    exact .float _
  · unfold specialFloat? at h
    dsimp only at h
    split at h
    · cases h
      exact .float _
    · cases h
      exact .float _
    · cases h

theorem finds_moment? : Scan.Finds moment? Value.WellFormed := by
  intro cs value rest h
  obtain ⟨rest', -, h⟩ := Option.bind_eq_some_iff.1 h
  cases h
  exact .moment _

theorem finds_scalarValue? : Scan.Finds scalarValue? Value.WellFormed := by
  intro cs value rest h
  unfold scalarValue? at h
  split at h
  · cases h
  · cases h
    exact .boolean true
  · cases h
    exact .boolean false
  · split_ifs at h
    · obtain ⟨⟨text, rest'⟩, -, hsame⟩ := Option.map_eq_some_iff.1 h
      cases hsame
      exact .string text
    -- a moment is looked for first, then a float
    · rcases Option.or_eq_some_iff.1 h with h | ⟨-, h⟩
      · exact finds_moment? _ _ _ h
      · rcases Option.or_eq_some_iff.1 h with h | ⟨-, h⟩
        · exact finds_float? _ _ _ h
        · exact finds_integer? _ _ _ h

theorem finds_arrayItems? (hitem : item.Finds Value.WellFormed) (fuel : Nat) :
    Scan.Finds (arrayItems? item fuel) fun items => ∀ value ∈ items, value.WellFormed := by
  induction fuel with
  | zero => exact fun _ _ _ h => by cases h
  | succ fuel ih =>
    intro cs items rest h
    rw [arrayItems?] at h
    split at h
    · cases h
      simp
    · obtain ⟨⟨value, rest₁⟩, hvalue, h⟩ := Option.bind_eq_some_iff.1 h
      have hvalue := hitem _ _ _ hvalue
      dsimp only at h
      split at h
      · cases h
        simpa using hvalue
      -- after a comma there are more items, found with less fuel
      · obtain ⟨⟨values, rest₂⟩, hvalues, hsame⟩ := Option.bind_eq_some_iff.1 h
        cases hsame
        exact List.forall_mem_cons.2 ⟨hvalue, ih _ _ _ hvalues⟩
      · cases h

theorem finds_pair? (hitem : item.Finds Value.WellFormed) :
    Scan.Finds (pair? item) fun pair => pair.2.WellFormed := by
  intro cs pair rest h
  obtain ⟨⟨path, rest₁⟩, -, h⟩ := Option.bind_eq_some_iff.1 h
  obtain ⟨rest₂, -, h⟩ := Option.bind_eq_some_iff.1 h
  obtain ⟨⟨value, rest₃⟩, hvalue, hsame⟩ := Option.bind_eq_some_iff.1 h
  cases hsame
  exact hitem _ _ _ hvalue

theorem finds_inlinePairs? (hitem : item.Finds Value.WellFormed) (fuel : Nat) :
    Scan.Finds (inlinePairs? item fuel) fun pairs => ∀ pair ∈ pairs, pair.2.WellFormed := by
  induction fuel with
  | zero => exact fun _ _ _ h => by cases h
  | succ fuel ih =>
    intro cs pairs rest h
    obtain ⟨⟨pair, rest₁⟩, hpair, h⟩ := Option.bind_eq_some_iff.1 h
    have hpair := finds_pair? hitem _ _ _ hpair
    dsimp only at h
    split at h
    · cases h
      simpa using hpair
    · obtain ⟨⟨pairs, rest₂⟩, hpairs, hsame⟩ := Option.bind_eq_some_iff.1 h
      cases hsame
      exact List.forall_mem_cons.2 ⟨hpair, ih _ _ _ hpairs⟩
    · cases h

theorem finds_inlineTable? (hitem : item.Finds Value.WellFormed) :
    Scan.Finds (inlineTable? item) Value.WellFormed := by
  intro cs value rest h
  unfold inlineTable? at h
  split at h
  · cases h
    exact Entries.wellFormed_nil.toValue
  · obtain ⟨⟨pairs, rest₁⟩, hpairs, h⟩ := Option.bind_eq_some_iff.1 h
    obtain ⟨entries, hentries, hsame⟩ := Option.bind_eq_some_iff.1 h
    cases hsame
    have hpairs := finds_inlinePairs? hitem _ _ _ _ hpairs
    exact (Entries.wellFormed_nil.putAll? hpairs hentries).toValue

/-- Values are well formed however deep they are. -/
theorem finds_value? (depth : Nat) : Scan.Finds (value? depth) Value.WellFormed := by
  induction depth with
  | zero => exact finds_scalarValue?
  | succ depth ih =>
    intro cs value rest h
    unfold value? at h
    split at h
    · obtain ⟨⟨items, rest₁⟩, hitems, hsame⟩ := Option.bind_eq_some_iff.1 h
      cases hsame
      exact .array (finds_arrayItems? ih _ _ _ _ hitems)
    · exact finds_inlineTable? ih _ _ _ h
    · exact finds_scalarValue? _ _ _ h

/-- The values on a line are well formed. -/
def Line.WellFormed : Line → Prop
  | .pair _ value => value.WellFormed
  | _ => True

theorem finds_line? : Scan.Finds line? Line.WellFormed := by
  intro cs line rest h
  unfold line? at h
  split at h
  -- headers of tables and of arrays of tables have no values
  · obtain ⟨⟨path, rest₁⟩, -, h⟩ := Option.bind_eq_some_iff.1 h
    obtain ⟨rest₂, -, h⟩ := Option.bind_eq_some_iff.1 h
    obtain ⟨rest₃, -, h⟩ := Option.bind_eq_some_iff.1 h
    obtain ⟨rest₄, -, hsame⟩ := Option.bind_eq_some_iff.1 h
    cases hsame
    trivial
  · obtain ⟨⟨path, rest₁⟩, -, h⟩ := Option.bind_eq_some_iff.1 h
    obtain ⟨rest₂, -, h⟩ := Option.bind_eq_some_iff.1 h
    obtain ⟨rest₃, -, hsame⟩ := Option.bind_eq_some_iff.1 h
    cases hsame
    trivial
  · split at h
    · cases h
      trivial
    · obtain ⟨⟨⟨path, value⟩, rest₁⟩, hpair, h⟩ := Option.bind_eq_some_iff.1 h
      obtain ⟨rest₂, -, hsame⟩ := Option.bind_eq_some_iff.1 h
      cases hsame
      exact finds_pair? (finds_value? maxDepth) _ _ _ hpair

theorem wellFormed_of_lines? {fuel : Nat} {cs : List Char} {lines : List Line}
    (h : lines? fuel cs = some lines) : ∀ line ∈ lines, line.WellFormed := by
  induction fuel generalizing cs lines with
  | zero =>
    rw [lines?] at h
    split at h
    · cases h
      simp
    · cases h
  | succ fuel ih =>
    rw [lines?] at h
    split at h
    · cases h
      simp
    · obtain ⟨⟨line, rest⟩, hline, h⟩ := Option.bind_eq_some_iff.1 h
      obtain ⟨others, hothers, hsame⟩ := Option.bind_eq_some_iff.1 h
      cases hsame
      exact List.forall_mem_cons.2 ⟨finds_line? _ _ _ hline, ih hothers⟩

/-- The keys and values of all sections come from lines. -/
theorem wellFormed_sections {lines : List Line} (h : ∀ line ∈ lines, line.WellFormed) :
    (∀ pair ∈ (sections lines).1, pair.2.WellFormed) ∧
      ∀ s ∈ (sections lines).2, ∀ pair ∈ s.pairs, pair.2.WellFormed := by
  induction lines with
  | nil => simp [sections]
  | cons line rest ih =>
    obtain ⟨hline, hrest⟩ := List.forall_mem_cons.1 h
    obtain ⟨hpairs, hsections⟩ := ih hrest
    -- a header starts a section of the pairs that have been collected below it
    cases line with
    | blank => exact ⟨hpairs, hsections⟩
    | pair path value => exact ⟨List.forall_mem_cons.2 ⟨hline, hpairs⟩, hsections⟩
    | tableHeader path =>
      exact ⟨List.forall_mem_nil _, List.forall_mem_cons.2 ⟨hpairs, hsections⟩⟩
    | arrayHeader path =>
      exact ⟨List.forall_mem_nil _, List.forall_mem_cons.2 ⟨hpairs, hsections⟩⟩

theorem Entries.WellFormed.foldlM_addSection? {entries entries' : Entries} {others : List Section}
    (hothers : ∀ s ∈ others, ∀ pair ∈ s.pairs, pair.2.WellFormed) (h : entries.WellFormed)
    (hadded : others.foldlM addSection? entries = some entries') : entries'.WellFormed := by
  induction others generalizing entries with
  | nil =>
    cases hadded
    exact h
  | cons s rest ih =>
    obtain ⟨entries₁, hfirst, hrest⟩ := Option.bind_eq_some_iff.1 hadded
    obtain ⟨hs, hothers⟩ := List.forall_mem_cons.1 hothers
    refine ih hothers ?_ hrest
    unfold addSection? at hfirst
    split at hfirst
    · exact h.appendTable? hs hfirst
    · exact h.defineTable? hs hfirst

/-- A text that is a document describes a well-formed table. -/
theorem wellFormed_of_parse? {text : String} {document : List (String × Value)}
    (h : parse? text = some document) : (Value.table document).WellFormed := by
  obtain ⟨lines, hlines, h⟩ := Option.bind_eq_some_iff.1 h
  obtain ⟨entries, hentries, h⟩ := Option.bind_eq_some_iff.1 h
  obtain ⟨entries', hadded, hsame⟩ := Option.bind_eq_some_iff.1 h
  cases hsame
  obtain ⟨hpairs, hothers⟩ := wellFormed_sections (wellFormed_of_lines? hlines)
  have htop : entries.WellFormed := Entries.wellFormed_nil.putAll? hpairs hentries
  exact (htop.foldlM_addSection? hothers hadded).toValue

end Texts

end IplReport.Toml
