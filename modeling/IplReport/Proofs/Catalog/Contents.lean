import IplReport.Chain.Path
import IplReport.Proofs.Block.Soundness
import IplReport.Proofs.Lookup

/-!
# What can be relied on in a catalog

A catalog has passed its check, so its blocks are sound and have distinct names.  Lookups then
find whatever has the name, and the links of a path lie inside their blocks and are four or eight
bytes wide.

Main statements:
- `checkBlocks_eq_ok_iff`: lists of sound blocks with distinct names are those that pass;
- `Catalog.ofBlocks_accepts`: the same, with the rules said in numbers;
- `Catalog.step_eq_ok_iff` and `Catalog.path_eq_ok_iff`: which steps and paths can be made;
- `Catalog.link_of_path`: what is known of each link of a path.
-/

namespace IplReport

/-! ## Section 1: The check of a catalog -/

theorem checkBlocksAfter_eq_ok_iff {seen : List String} {blocks : List Block} :
    checkBlocksAfter seen blocks = .ok () ↔
      (∀ b ∈ blocks, b.Sound) ∧ (blocks.map Block.name).Nodup ∧ ∀ b ∈ blocks, b.name ∉ seen := by
  -- the names seen so far grow with every block that passes
  induction blocks generalizing seen with
  | nil => simp [checkBlocksAfter]
  | cons b rest ih =>
    rw [checkBlocksAfter]
    split_ifs with hseen
    · refine iff_of_false (by simp) fun h => ?_
      exact h.2.2 b List.mem_cons_self (List.contains_iff_mem.1 hseen)
    · rw [List.contains_iff_mem] at hseen
      split
      case h_1 fault hcheck =>
        refine iff_of_false (by simp) fun h => ?_
        have hok := Block.check_eq_ok_iff.2 (h.1 b List.mem_cons_self)
        rw [hcheck] at hok
        cases hok
      case h_2 hcheck =>
        have hsound := Block.check_eq_ok_iff.1 hcheck
        rw [ih, List.forall_mem_cons, List.map_cons, List.nodup_cons, List.forall_mem_cons]
        simp only [List.mem_cons, List.mem_map, not_or, not_exists, not_and]
        constructor
        · rintro ⟨hrest, hdistinct, hunseen⟩
          exact ⟨⟨hsound, hrest⟩, ⟨fun x hx => (hunseen x hx).1, hdistinct⟩,
            hseen, fun x hx => (hunseen x hx).2⟩
        · rintro ⟨⟨-, hrest⟩, ⟨hne, hdistinct⟩, -, hunseen⟩
          exact ⟨hrest, hdistinct, fun x hx => ⟨hne x hx, hunseen x hx⟩⟩

/-- A list of blocks passes the check exactly if the blocks are sound and have distinct names. -/
theorem checkBlocks_eq_ok_iff {blocks : List Block} :
    checkBlocks blocks = .ok () ↔ (∀ b ∈ blocks, b.Sound) ∧ (blocks.map Block.name).Nodup := by
  rw [checkBlocks, checkBlocksAfter_eq_ok_iff]
  simp

namespace Catalog

variable {c : Catalog} {b : Block}

/-- Blocks that pass the check make the catalog of just these blocks. -/
theorem ofBlocks_eq_ok_iff {blocks : List Block} :
    ofBlocks blocks = .ok c ↔ checkBlocks blocks = .ok () ∧ c.blocks = blocks := by
  obtain ⟨blocks', hchecked⟩ := c
  rw [ofBlocks]
  split
  case h_1 h =>
    simp only [Except.ok.injEq, Catalog.mk.injEq, h, true_and]
    exact eq_comm
  case h_2 fault h =>
    rw [h]
    exact iff_of_false (by simp) (by simp)

/-- Which lists of blocks make a catalog.  Names of blocks are distinct, and in every block names
of fields are distinct, every field has bytes and ends, the sum being exact, inside the block,
links are four or eight bytes wide, and of any two fields, neighbours or not, the earlier one ends
before the later one starts.  The catalog is then of just these blocks. -/
theorem ofBlocks_accepts (blocks : List Block) :
    ((∃ c, ofBlocks blocks = .ok c) ↔
      (blocks.map Block.name).Nodup ∧ ∀ b ∈ blocks, (b.fields.map Field.name).Nodup ∧
        (∀ f ∈ b.fields, f.width ≠ 0 ∧ f.offset.toNat + f.width.toNat ≤ b.size.toNat ∧
          (f.kind = .link → f.width = 4 ∨ f.width = 8)) ∧
        ∀ i j (hi : i < b.fields.length) (hj : j < b.fields.length), i < j →
          b.fields[i].offset.toNat + b.fields[i].width.toNat ≤ b.fields[j].offset.toNat) ∧
    ∀ c, ofBlocks blocks = .ok c → c.blocks = blocks := by
  constructor
  · simp only [← Block.sound_iff]
    rw [and_comm, ← checkBlocks_eq_ok_iff]
    constructor
    · rintro ⟨c, hc⟩
      exact (ofBlocks_eq_ok_iff.1 hc).1
    · intro hchecked
      exact ⟨⟨blocks, hchecked⟩, ofBlocks_eq_ok_iff.2 ⟨hchecked, rfl⟩⟩
  · intro c hc
    exact (ofBlocks_eq_ok_iff.1 hc).2

/-- A block of the greatest size, with a gap between its links and with text of a given width that
starts sixteen bytes before its end. -/
def greatestBlock (width : UInt64) : Block :=
  ⟨"B", 0xffffffffffffffff, [⟨"P", 0, 4, .link⟩, ⟨"Q", 8, 8, .link⟩,
    ⟨"T", 0xffffffffffffffef, width, .text .ebcdic⟩]⟩

/-- Text that ends with the greatest block is accepted, and it is apart from the first field too.
Text that is wider by one is not accepted: its offset and width add up to more than any size. -/
theorem ofBlocks_accepts_greatestBlock :
    (∃ c, ofBlocks [greatestBlock 16] = .ok c ∧ c.blocks = [greatestBlock 16] ∧
      (0 : UInt64).toNat + (4 : UInt64).toNat ≤ (0xffffffffffffffef : UInt64).toNat) ∧
      ¬∃ c, ofBlocks [greatestBlock 17] = .ok c := by
  constructor
  · have hchecked : checkBlocks [greatestBlock 16] = .ok () := rfl
    have hc := ofBlocks_eq_ok_iff.2 ⟨hchecked, (rfl : (⟨_, hchecked⟩ : Catalog).blocks = _)⟩
    obtain ⟨haccepts, hblocks⟩ := ofBlocks_accepts [greatestBlock 16]
    have hrules := (haccepts.1 ⟨_, hc⟩).2 _ List.mem_cons_self
    exact ⟨_, hc, hblocks _ hc, hrules.2.2 0 2 (by decide) (by decide) (by decide)⟩
  · intro hc
    have hrules := ((ofBlocks_accepts [greatestBlock 17]).1.1 hc).2 _ List.mem_cons_self
    -- the exact sum is 2 ^ 64, which is no size of a block
    have hstop := (hrules.2.1 ⟨"T", 0xffffffffffffffef, 17, .text .ebcdic⟩
      (by simp [greatestBlock])).2.1
    exact absurd hstop (by decide)

theorem sound (c : Catalog) (hb : b ∈ c.blocks) : b.Sound :=
  (checkBlocks_eq_ok_iff.1 c.checked).1 b hb

theorem distinct (c : Catalog) : (c.blocks.map Block.name).Nodup :=
  (checkBlocks_eq_ok_iff.1 c.checked).2

end Catalog

/-! ## Section 2: Lookups -/

namespace Catalog

variable {c : Catalog} {b : Block} {f : Field} {s : Step} {path : Path}
  {block field name link terminal : String} {links : List (String × String)}

/-- In a catalog, what is found under a name is whatever block has that name. -/
theorem block_eq_ok_iff : c.block name = .ok b ↔ b ∈ c.blocks ∧ b.name = name := by
  rw [← find?_name_eq_some_iff c.distinct, Catalog.block, block?]
  cases c.blocks.find? fun b => b.name == name <;> simp

/-- A text field is had exactly if the block has a field of that name and it is text. -/
theorem textField_eq_ok_iff :
    c.textField block field = .ok f ↔
      ∃ b, c.block block = .ok b ∧ b.field field = .ok f ∧ f.isText := by
  rw [textField, bind_eq_ok_iff]
  refine exists_congr fun b => and_congr_right fun _ => ?_
  rw [bind_eq_ok_iff]
  constructor
  · rintro ⟨g, hg, h⟩
    split_ifs at h with htext
    cases h
    exact ⟨hg, htext⟩
  · rintro ⟨hf, htext⟩
    exact ⟨f, hf, if_pos htext⟩

/-- A step can be taken exactly if the block has a field of that name and it is a link. -/
theorem step_eq_ok_iff :
    c.step block link = .ok s ↔
      c.block block = .ok s.block ∧ s.block.field link = .ok s.link ∧ s.link.kind = .link := by
  rw [step, bind_eq_ok_iff]
  constructor
  · rintro ⟨b, hb, h⟩
    obtain ⟨f, hf, h⟩ := bind_eq_ok_iff.1 h
    split_ifs at h with hkind
    cases h
    exact ⟨hb, hf, hkind⟩
  · rintro ⟨hb, hf, hkind⟩
    exact ⟨s.block, hb, bind_eq_ok_iff.2 ⟨s.link, hf, if_pos hkind⟩⟩

/-- A path can be made exactly if it has a step and all of its steps and its end can be had. -/
theorem path_eq_ok_iff :
    c.path name links terminal = .ok path ↔
      links ≠ [] ∧ path.name = name ∧
      List.Forall₂ (fun l s => c.step l.1 l.2 = .ok s) links path.steps ∧
      c.block terminal = .ok path.terminal := by
  rw [Catalog.path]
  cases links with
  | nil => exact iff_of_false (fun h => by cases h) (fun h => h.1 rfl)
  | cons l rest =>
    -- the steps are made one after the other, and the terminal is looked up after them
    rw [if_neg (by simp), ← mapM_eq_ok_iff]
    beta_reduce
    constructor
    · intro h
      obtain ⟨steps, hsteps, h⟩ := bind_eq_ok_iff.1 h
      obtain ⟨b, hb, h⟩ := bind_eq_ok_iff.1 h
      cases h
      exact ⟨by simp, rfl, hsteps, hb⟩
    · rintro ⟨-, rfl, hsteps, hb⟩
      exact bind_eq_ok_iff.2 ⟨path.steps, hsteps, bind_eq_ok_iff.2 ⟨path.terminal, hb, rfl⟩⟩

/-! ## Section 3: Paths -/

/-- The link of a step is a field of its block that is as wide as an address. -/
theorem link_of_step (h : c.step block link = .ok s) :
    s.block ∈ c.blocks ∧ s.link ∈ s.block.fields ∧
      (s.link.width.toNat = 4 ∨ s.link.width.toNat = 8) := by
  obtain ⟨hblock, hfield, hkind⟩ := step_eq_ok_iff.1 h
  have hmem := (block_eq_ok_iff.1 hblock).1
  have hsound := c.sound hmem
  have hlink := ((Block.field_eq_ok_iff hsound.distinct).1 hfield).1
  have hwidth := (hsound.admitted s.link hlink).link hkind
  refine ⟨hmem, hlink, ?_⟩
  -- the check admits links of four and of eight bytes
  simp only [linkWidths, List.mem_cons, List.not_mem_nil, or_false] at hwidth
  rcases hwidth with hwidth | hwidth
  · exact Or.inl (by rw [hwidth]; rfl)
  · exact Or.inr (by rw [hwidth]; rfl)

/-- Every step of a path takes a link that is a field of its block and as wide as an address. -/
theorem link_of_path (h : c.path name links terminal = .ok path) (hs : s ∈ path.steps) :
    s.block ∈ c.blocks ∧ s.link ∈ s.block.fields ∧
      (s.link.width.toNat = 4 ∨ s.link.width.toNat = 8) := by
  obtain ⟨-, -, hsteps, -⟩ := path_eq_ok_iff.1 h
  obtain ⟨_, -, hstep⟩ := exists_left_of_forall₂ hsteps hs
  exact link_of_step hstep

theorem steps_ne_nil_of_path (h : c.path name links terminal = .ok path) : path.steps ≠ [] := by
  obtain ⟨hlinks, -, hsteps, -⟩ := path_eq_ok_iff.1 h
  intro hnil
  rw [hnil, List.forall₂_nil_right_iff] at hsteps
  exact hlinks hsteps

end Catalog

end IplReport
