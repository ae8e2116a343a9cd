import IplReport.Proofs.Block.Reposition
import IplReport.Proofs.Catalog.Contents
import IplReport.Settings.Basic

/-!
# Where settings put text fields

Settings move text fields one after the other, and only the result is checked.  So the last
placement of a field is the only one that counts, whatever the ones before did in passing.

Main statement:
- `Settings.catalog_placed`: which settings have a catalog, and where its fields are.
-/

namespace IplReport

/-! ## Section 1: Last places -/

/-- The placement names a text field of one of the blocks. -/
def Placement.Names (p : Placement) (blocks : List Block) : Prop :=
  ∃ b ∈ blocks, b.name = p.block ∧ ∃ f ∈ b.fields, f.name = p.field ∧ f.isText = true

def lastPlacement? (placements : List Placement) (block field : String) : Option Placement :=
  placements.reverse.find? fun p => p.block == block && p.field == field

/-- The field `f` of the block `b` where its last placement puts it, if it is text and has one. -/
def settle (placements : List Placement) (b : Block) (f : Field) : Field :=
  match lastPlacement? placements b.name f.name with
  | some p => if f.isText then f.moveTo p.offset p.width else f
  | none => f

section Settle

variable {placements : List Placement} {p : Placement} {b : Block} {f : Field}

theorem settle_eq_or (placements : List Placement) (b : Block) (f : Field) :
    settle placements b f = f ∨
      f.isText = true ∧ ∃ offset width, settle placements b f = f.moveTo offset width := by
  unfold settle
  split
  · split
    case isTrue htext => exact Or.inr ⟨htext, _, _, rfl⟩
    case isFalse => exact Or.inl rfl
  · exact Or.inl rfl

/-- Placements change neither names nor kinds, and nothing but text. -/
theorem moves_settle (placements : List Placement) (b : Block) :
    Block.Moves (settle placements b) where
  name f := by
    rcases settle_eq_or placements b f with heq | ⟨-, _, _, heq⟩
    · rw [heq]
    · rw [heq]
      rfl
  kind f := by
    rcases settle_eq_or placements b f with heq | ⟨-, _, _, heq⟩
    · rw [heq]
    · rw [heq]
      rfl
  text f hf := by
    rcases settle_eq_or placements b f with heq | ⟨htext, -⟩
    · exact heq
    · rw [hf] at htext
      cases htext

/-- One more placement of a text field is its last. -/
theorem settle_concat_of_eq (hblock : p.block = b.name) (hfield : p.field = f.name)
    (htext : f.isText = true) :
    settle (placements ++ [p]) b f = f.moveTo p.offset p.width := by
  simp [settle, lastPlacement?, hblock, hfield, htext]

/-- The last placement of a field is not changed by placements of others. -/
theorem settle_concat_of_ne (hne : p.block = b.name → p.field ≠ f.name) :
    settle (placements ++ [p]) b f = settle placements b f := by
  have hother : (p.block == b.name && p.field == f.name) = false := by
    by_cases hblock : p.block = b.name
    · simp [hne hblock]
    · simp [hblock]
  simp [settle, lastPlacement?, hother]

theorem settle_concat_of_block_ne (hne : b.name ≠ p.block) :
    settle (placements ++ [p]) b = settle placements b :=
  funext fun _ => settle_concat_of_ne fun hblock => absurd hblock.symm hne

end Settle

/-! ## Section 2: One placement -/

/-- The blocks are the usual ones, with fields settled by placements. -/
def Settled (placements : List Placement) (usual blocks : List Block) : Prop :=
  List.Forall₂ (fun b b' => b.Rearranged (settle placements b) b') usual blocks

section Placements

variable {placements : List Placement} {p : Placement} {usual blocks blocks' : List Block}
  {b b' : Block}

theorem Settled.of_ne (h : Settled placements usual blocks)
    (hne : ∀ b ∈ usual, b.name ≠ p.block) : Settled (placements ++ [p]) usual blocks := by
  induction h with
  | nil => exact .nil
  | @cons b b' usual blocks hfirst _ ih =>
    obtain ⟨hname, hrest⟩ := List.forall_mem_cons.1 hne
    refine .cons ?_ (ih hrest)
    rw [settle_concat_of_block_ne hname]
    exact hfirst

/-- A placement that names a text field of the usual blocks can be applied. -/
theorem Settled.applyPlacement (hsound : ∀ b ∈ usual, b.Sound)
    (hdistinct : (usual.map Block.name).Nodup) (h : Settled placements usual blocks)
    (hnames : p.Names usual) :
    ∃ blocks', Settings.applyPlacement p blocks = .ok blocks' ∧
      Settled (placements ++ [p]) usual blocks' := by
  induction h with
  | nil =>
    obtain ⟨b, hb, -⟩ := hnames
    simp at hb
  | @cons b b' usual blocks hfirst hrest ih =>
    obtain ⟨hb, hsound⟩ := List.forall_mem_cons.1 hsound
    obtain ⟨hother, hdistinct⟩ := List.nodup_cons.1 hdistinct
    unfold Settings.applyPlacement
    obtain ⟨x, hx, hname, f, hf, hfield, htext⟩ := hnames
    rcases List.mem_cons.1 hx with rfl | hx
    · -- the field is in the first block, and no later block has the name
      have hmoved : settle (placements ++ [p]) x f = f.moveTo p.offset p.width :=
        settle_concat_of_eq hname.symm hfield.symm htext
      obtain ⟨b'', hok, hrearranged⟩ := hfirst.reposition hb.distinct
        (moves_settle placements x) hf htext hmoved fun g _ hne =>
          settle_concat_of_ne fun _ heq => hne (heq.symm.trans hfield.symm)
      have hothers : ∀ y ∈ usual, y.name ≠ p.block := by
        intro y hy heq
        exact hother (by rw [hname, ← heq]; exact List.mem_map_of_mem hy)
      refine ⟨b'' :: blocks, ?_, .cons hrearranged (Settled.of_ne hrest hothers)⟩
      rw [hfield] at hok
      simp [hfirst.name, hname, hok, pure, Except.pure, bind, Except.bind]
    · -- the field is in a later block, and the first one stays as it is
      have hne : b.name ≠ p.block := by
        intro heq
        exact hother (by rw [heq, ← hname]; exact List.mem_map_of_mem hx)
      obtain ⟨blocks', hok, hsettled⟩ := ih hsound hdistinct ⟨x, hx, hname, f, hf, hfield, htext⟩
      refine ⟨b' :: blocks', ?_, .cons ?_ hsettled⟩
      · simp [hfirst.name, hne, hok, pure, Except.pure, bind, Except.bind]
      · rw [settle_concat_of_block_ne hne]
        exact hfirst

/-- A placement that can be applied names a text field of the usual blocks. -/
theorem Settled.names (h : Settled placements usual blocks)
    (hok : Settings.applyPlacement p blocks = .ok blocks') : p.Names usual := by
  induction h generalizing blocks' with
  | nil => cases hok
  | @cons b b' usual blocks hfirst _ ih =>
    unfold Settings.applyPlacement at hok
    split at hok
    case isTrue hname =>
      obtain ⟨b'', hmove, -⟩ := bind_eq_ok_iff.1 hok
      obtain ⟨f, hf, hfield, htext, -⟩ := (Block.reposition_eq_ok_iff hfirst.distinct).1 hmove
      obtain ⟨encoding, hkind⟩ := Field.isText_iff.1 htext
      -- the field comes from one of the usual block, which has its name and kind
      obtain ⟨g, hg, rfl⟩ := (hfirst.mem f (by simp [hkind])).1 hf
      have hmoves := moves_settle placements b
      refine ⟨b, List.mem_cons_self, ?_, g, hg, ?_, ?_⟩
      · rw [← hfirst.name]
        exact beq_iff_eq.1 hname
      · rw [← hfield, hmoves.name]
      · rwa [← hmoves.isText]
    case isFalse hname =>
      obtain ⟨blocks'', hrest, -⟩ := bind_eq_ok_iff.1 hok
      obtain ⟨x, hx, hx'⟩ := ih hrest
      exact ⟨x, List.mem_cons_of_mem _ hx, hx'⟩

/-! ## Section 3: Any number of placements -/

theorem settled_nil (hsound : ∀ b ∈ usual, b.Sound) : Settled [] usual usual :=
  List.forall₂_same.2 fun b hb => (hsound b hb).rearranged

/-- Placements that name text fields of the usual blocks can be applied in turn, and settle the
fields. -/
theorem settled_of_names (hsound : ∀ b ∈ usual, b.Sound)
    (hdistinct : (usual.map Block.name).Nodup) (hnames : ∀ p ∈ placements, p.Names usual) :
    ∃ blocks, placements.foldlM (fun blocks p => Settings.applyPlacement p blocks) usual =
        .ok blocks ∧ Settled placements usual blocks := by
  -- from the end: the last placement is applied to blocks that the others have settled
  induction placements using List.reverseRecOn with
  | nil => exact ⟨usual, rfl, settled_nil hsound⟩
  | append_singleton placements p ih =>
    obtain ⟨blocks, hok, hsettled⟩ := ih fun q hq => hnames q (List.mem_append_left _ hq)
    obtain ⟨blocks', hok', hsettled'⟩ :=
      hsettled.applyPlacement hsound hdistinct (hnames p (by simp))
    refine ⟨blocks', ?_, hsettled'⟩
    rw [List.foldlM_append, bind_eq_ok_iff]
    exact ⟨blocks, hok, by simp [hok']⟩

/-- Placements that can be applied in turn name text fields of the usual blocks. -/
theorem names_of_foldlM (hsound : ∀ b ∈ usual, b.Sound)
    (hdistinct : (usual.map Block.name).Nodup)
    (hok : placements.foldlM (fun blocks p => Settings.applyPlacement p blocks) usual =
      .ok blocks) : ∀ p ∈ placements, p.Names usual := by
  induction placements using List.reverseRecOn generalizing blocks with
  | nil => simp
  | append_singleton placements p ih =>
    rw [List.foldlM_append, bind_eq_ok_iff] at hok
    obtain ⟨before, hbefore, hlast⟩ := hok
    have hnames := ih hbefore
    intro q hq
    -- the last placement is applied to blocks that are settled by those before it
    rcases List.mem_append.1 hq with hq | hq
    · exact hnames q hq
    · rw [List.mem_singleton] at hq
      subst hq
      obtain ⟨before', hbefore', hsettled⟩ := settled_of_names hsound hdistinct hnames
      rw [hbefore, Except.ok.injEq] at hbefore'
      subst hbefore'
      simp only [List.foldlM_cons, List.foldlM_nil, bind_pure] at hlast
      exact hsettled.names hlast

theorem Settled.map_name (h : Settled placements usual blocks) :
    blocks.map Block.name = usual.map Block.name := by
  induction h with
  | nil => rfl
  | cons hfirst _ ih => rw [List.map_cons, List.map_cons, hfirst.name, ih]

theorem Settled.map_size (h : Settled placements usual blocks) :
    blocks.map Block.size = usual.map Block.size := by
  induction h with
  | nil => rfl
  | cons hfirst _ ih => rw [List.map_cons, List.map_cons, hfirst.size, ih]

/-- Settled blocks can make a catalog exactly if the settled places are accepted. -/
theorem Settled.checkBlocks_iff (hsound : ∀ b ∈ usual, b.Sound)
    (hdistinct : (usual.map Block.name).Nodup) (h : Settled placements usual blocks) :
    checkBlocks blocks = .ok () ↔ ∀ b ∈ usual, b.Accepts (settle placements b) := by
  rw [checkBlocks_eq_ok_iff, h.map_name]
  simp only [hdistinct, and_true]
  -- the names are those of the usual blocks; the rest is said block by block
  clear hdistinct
  induction h with
  | nil => simp
  | @cons b b' usual blocks hfirst _ ih =>
    obtain ⟨hb, hsound⟩ := List.forall_mem_cons.1 hsound
    rw [List.forall_mem_cons, List.forall_mem_cons, ih hsound,
      hfirst.sound_iff hb (moves_settle placements b)]

/-- The fields other than padding that are found in a catalog of settled blocks are those of the
usual blocks, at their settled places. -/
theorem Settled.field_iff {c : Catalog} {block field : String} {f : Field}
    (h : Settled placements usual c.blocks) (hkind : f.kind ≠ .padding) :
    (∃ b', c.block block = .ok b' ∧ b'.field field = .ok f) ↔
      ∃ b ∈ usual, b.name = block ∧ ∃ g ∈ b.fields, g.name = field ∧
        settle placements b g = f := by
  constructor
  · rintro ⟨b', hb', hf⟩
    obtain ⟨hmem, hname⟩ := Catalog.block_eq_ok_iff.1 hb'
    -- back from the settled block to the usual one, and from its field to the one that moved
    obtain ⟨b, hb, hrearranged⟩ := exists_left_of_forall₂ h hmem
    obtain ⟨hf, hfield⟩ := (Block.field_eq_ok_iff hrearranged.distinct).1 hf
    obtain ⟨g, hg, rfl⟩ := (hrearranged.mem f hkind).1 hf
    rw [(moves_settle placements b).name] at hfield
    exact ⟨b, hb, hrearranged.name.symm.trans hname, g, hg, hfield, rfl⟩
  · rintro ⟨b, hb, hname, g, hg, hfield, rfl⟩
    obtain ⟨b', hmem, hrearranged⟩ := exists_right_of_forall₂ h hb
    refine ⟨b', Catalog.block_eq_ok_iff.2 ⟨hmem, hrearranged.name.trans hname⟩, ?_⟩
    apply (Block.field_eq_ok_iff hrearranged.distinct).2
    exact ⟨(hrearranged.mem _ hkind).2 ⟨g, hg, rfl⟩,
      ((moves_settle placements b).name g).trans hfield⟩

end Placements

/-! ## Section 4: Catalogs of settings -/

theorem Zos.kind_of_isText {encoding : TextEncoding} :
    ∀ b ∈ Zos.blocks encoding, ∀ f ∈ b.fields, f.isText = true → f.kind = .text encoding := by
  cases encoding <;> decide

namespace Settings

variable {s : Settings} {c : Catalog} {blocks : List Block}

/-- A catalog for settings is that of the blocks that the placements lead to. -/
theorem catalog_eq_ok_iff :
    s.catalog = .ok c ↔
      s.placements.foldlM (fun blocks p => applyPlacement p blocks) (Zos.blocks s.encoding) =
        .ok c.blocks ∧ checkBlocks c.blocks = .ok () := by
  rw [catalog, bind_eq_ok_iff]
  simp only [Catalog.ofBlocks_eq_ok_iff]
  constructor
  · rintro ⟨blocks, hok, hchecked, rfl⟩
    exact ⟨hok, hchecked⟩
  · rintro ⟨hok, hchecked⟩
    exact ⟨c.blocks, hok, hchecked, rfl⟩

theorem sound_zos (s : Settings) : ∀ b ∈ Zos.blocks s.encoding, b.Sound :=
  fun _ hb => (Zos.catalog s.encoding).sound hb

theorem distinct_zos (s : Settings) : ((Zos.blocks s.encoding).map Block.name).Nodup :=
  (Zos.catalog s.encoding).distinct

/-- Placements that can be applied in turn settle the fields of the usual blocks. -/
theorem settled_of_foldlM
    (h : s.placements.foldlM (fun blocks p => applyPlacement p blocks) (Zos.blocks s.encoding) =
      .ok blocks) : Settled s.placements (Zos.blocks s.encoding) blocks := by
  have hnames := names_of_foldlM s.sound_zos s.distinct_zos h
  obtain ⟨blocks', hok, hsettled⟩ := settled_of_names s.sound_zos s.distinct_zos hnames
  -- the run that names allow is the run that was made
  rw [h, Except.ok.injEq] at hok
  rw [hok]
  exact hsettled

/-- Every placement names a text field, and the places of the fields in the end are accepted. -/
structure Admissible (s : Settings) : Prop where
  named : ∀ p ∈ s.placements, p.Names (Zos.blocks s.encoding)
  accepted : ∀ b ∈ Zos.blocks s.encoding, b.Accepts (settle s.placements b)

/-- What a catalog has to do with the settings it is for: names, order and sizes of the blocks
and all links are the usual ones, and text fields are at their last places. -/
structure Describes (s : Settings) (c : Catalog) : Prop where
  names : c.blocks.map Block.name = (Zos.blocks s.encoding).map Block.name
  sizes : c.blocks.map Block.size = (Zos.blocks s.encoding).map Block.size
  text : ∀ block field f, c.textField block field = .ok f ↔
    ∃ b ∈ Zos.blocks s.encoding, b.name = block ∧ ∃ g ∈ b.fields, g.name = field ∧
      g.isText = true ∧ settle s.placements b g = f
  encoding : ∀ block field f, c.textField block field = .ok f → f.kind = .text s.encoding
  links : ∀ block link f, (∃ b', c.step block link = .ok ⟨b', f⟩) ↔
    ∃ b ∈ Zos.blocks s.encoding, b.name = block ∧ f ∈ b.fields ∧ f.name = link ∧ f.kind = .link

theorem describes_of_settled
    (h : Settled s.placements (Zos.blocks s.encoding) c.blocks) : s.Describes c := by
  have htext : ∀ block field f, c.textField block field = .ok f ↔
      ∃ b ∈ Zos.blocks s.encoding, b.name = block ∧ ∃ g ∈ b.fields, g.name = field ∧
        g.isText = true ∧ settle s.placements b g = f := by
    intro block field f
    rw [Catalog.textField_eq_ok_iff]
    constructor
    · rintro ⟨b', hb', hf, htext⟩
      obtain ⟨encoding, hkind⟩ := Field.isText_iff.1 htext
      obtain ⟨b, hb, hname, g, hg, hfield, rfl⟩ :=
        (h.field_iff (by simp [hkind])).1 ⟨b', hb', hf⟩
      rw [(moves_settle _ b).isText] at htext
      exact ⟨b, hb, hname, g, hg, hfield, htext, rfl⟩
    · rintro ⟨b, hb, hname, g, hg, hfield, htext, rfl⟩
      rw [← (moves_settle s.placements b).isText] at htext
      obtain ⟨encoding, hkind⟩ := Field.isText_iff.1 htext
      obtain ⟨b', hb', hf⟩ :=
        (h.field_iff (by simp [hkind])).2 ⟨b, hb, hname, g, hg, hfield, rfl⟩
      exact ⟨b', hb', hf, htext⟩
  refine ⟨h.map_name, h.map_size, htext, ?_, ?_⟩
  · intro block field f hf
    obtain ⟨b, hb, -, g, hg, -, hgtext, rfl⟩ := (htext block field f).1 hf
    rw [(moves_settle _ b).kind]
    exact Zos.kind_of_isText b hb g hg hgtext
  · intro block link f
    have hfield : (∃ b', c.step block link = .ok ⟨b', f⟩) ↔
        (∃ b', c.block block = .ok b' ∧ b'.field link = .ok f) ∧ f.kind = .link := by
      simp only [Catalog.step_eq_ok_iff, ← and_assoc, exists_and_right]
    rw [hfield]
    constructor
    · rintro ⟨hfound, hkind⟩
      obtain ⟨b, hb, hname, g, hg, hlink, rfl⟩ := (h.field_iff (by simp [hkind])).1 hfound
      have hmoves := moves_settle s.placements b
      rw [hmoves.kind] at hkind
      -- links are not text, so they are where they usually are
      rw [hmoves.text g (Field.isText_of_link hkind)]
      exact ⟨b, hb, hname, hg, hlink, hkind⟩
    · rintro ⟨b, hb, hname, hf, hlink, hkind⟩
      refine ⟨(h.field_iff (by simp [hkind])).2 ⟨b, hb, hname, f, hf, hlink, ?_⟩, hkind⟩
      exact (moves_settle s.placements b).text f (Field.isText_of_link hkind)

theorem describes_of_catalog (h : s.catalog = .ok c) : s.Describes c :=
  describes_of_settled (settled_of_foldlM (catalog_eq_ok_iff.1 h).1)

/-- There is a catalog for settings exactly if every placement names a text field of one of the
blocks and the last places of the fields are accepted: each has bytes and ends inside its block,
and no two of a block have a byte in common.  The catalog then has the text fields at these
places and everything else where it usually is, so that earlier placements leave no trace, and
padding is never in the way. -/
theorem catalog_placed (s : Settings) :
    ((∃ c, s.catalog = .ok c) ↔ s.Admissible) ∧ ∀ c, s.catalog = .ok c → s.Describes c := by
  refine ⟨⟨?_, ?_⟩, fun c => describes_of_catalog⟩
  · rintro ⟨c, hc⟩
    obtain ⟨hok, hchecked⟩ := catalog_eq_ok_iff.1 hc
    have hsettled := settled_of_foldlM hok
    exact ⟨names_of_foldlM s.sound_zos s.distinct_zos hok,
      (hsettled.checkBlocks_iff s.sound_zos s.distinct_zos).1 hchecked⟩
  · rintro ⟨hnames, haccepted⟩
    obtain ⟨blocks, hok, hsettled⟩ := settled_of_names s.sound_zos s.distinct_zos hnames
    have hchecked := (hsettled.checkBlocks_iff s.sound_zos s.distinct_zos).2 haccepted
    exact ⟨⟨blocks, hchecked⟩, catalog_eq_ok_iff.2 ⟨hok, hchecked⟩⟩

/-- Settings that first put a field across another one and past the end of its block. -/
def inPassing : Settings where
  encoding := .ascii
  placements := [⟨"IPA", "IPALOADS", 40, 60⟩, ⟨"IPA", "IPALOADS", 0, 8⟩]

theorem catalog_placed_inPassing :
    inPassing.Admissible ∧ ∃ c, inPassing.catalog = .ok c ∧
      c.textField "IPA" "IPALOADS" = .ok ⟨"IPALOADS", 0, 8, .text .ascii⟩ := by
  obtain ⟨hiff, hdescribes⟩ := catalog_placed inPassing
  have hsome : inPassing.catalog.toOption.isSome = true := by decide +kernel
  cases hc : inPassing.catalog with
  | error fault => simp [hc, Except.toOption] at hsome
  | ok c =>
    refine ⟨hiff.1 ⟨c, hc⟩, c, rfl, ((hdescribes c hc).text _ _ _).2 ?_⟩
    refine ⟨Zos.ipa .ascii, by decide, rfl, ⟨"IPALOADS", 20, 2, .text .ascii⟩, by decide, rfl, rfl,
      rfl⟩

end Settings

end IplReport
