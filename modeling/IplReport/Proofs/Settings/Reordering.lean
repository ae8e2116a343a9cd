import IplReport.Proofs.Settings.Plans

/-!
# The order of placements

Each placement drops the padding that is in its way and sorts the fields of its block anew, so that
different orders lead through different blocks.  If no field is placed twice, all orders lead to
the same catalog in the end: the same fields are left, padding included, and sound fields can
stand in one order only.

Main statement:
- `Settings.catalog_reordered`: the catalog for placements in another order.
-/

namespace IplReport

/-! ## Section 1: Padding that is left -/

/-- The field that a placement names. -/
def Placement.target (p : Placement) : String × String :=
  (p.block, p.field)

/-- Whether a placement is found to be in the way of a field. -/
def Placement.meets (p : Placement) (f : Field) : Bool :=
  f.overlaps (f.moveTo p.offset p.width)

namespace Block

variable {b b' b'' : Block} {placements placements' : List Placement} {p : Placement}
  {place : Field → Field}

/-- The padding of `b'` is that of `b` which none of the placements in this block meets. -/
structure Cleared (b : Block) (placements : List Placement) (b' : Block) : Prop where
  name : b'.name = b.name
  distinct : (b'.fields.map Field.name).Nodup
  padding : ∀ f, f.kind = .padding →
    (f ∈ b'.fields ↔ f ∈ b.fields ∧ ∀ p ∈ placements, p.block = b.name → p.meets f = false)

theorem cleared_nil (h : b.Sound) : b.Cleared [] b :=
  ⟨rfl, h.distinct, by simp⟩

theorem Cleared.of_ne (h : b.Cleared placements b') (hne : b.name ≠ p.block) :
    b.Cleared (placements ++ [p]) b' := by
  refine ⟨h.name, h.distinct, fun f hf => ?_⟩
  rw [h.padding f hf]
  simp [or_imp, forall_and, hne.symm]

/-- A placement drops the padding that it meets, and no other. -/
theorem Cleared.reposition (h : b.Cleared placements b') (hblock : p.block = b.name)
    (hok : b'.reposition p.field p.offset p.width = .ok b'') :
    b.Cleared (placements ++ [p]) b'' := by
  obtain ⟨f, hf, -, htext, rfl⟩ := (reposition_eq_ok_iff h.distinct).1 hok
  obtain ⟨encoding, hkind⟩ := Field.isText_iff.1 htext
  refine ⟨h.name, distinct_place h.distinct rfl, fun g hg => ?_⟩
  have hmoved : g ≠ f.moveTo p.offset p.width := by
    rintro rfl
    simp [Field.moveTo, hkind] at hg
  have hname : g ∈ b'.fields → g.name ≠ f.name := by
    intro hmem heq
    have hsame : g = f := List.inj_on_of_nodup_map h.distinct hmem hf heq
    simp [hsame, hkind] at hg
  -- an overlap is one of places, whatever the fields are
  have hmeets : g.overlaps (f.moveTo p.offset p.width) = p.meets g := rfl
  have hbefore := h.padding g hg
  rw [mem_place h.distinct, hmeets]
  simp only [hmoved, false_or, hg, true_and, Bool.not_eq_true, List.mem_append,
    List.mem_singleton, or_imp, forall_and, forall_eq, hblock, true_implies]
  tauto

/-- There is one sound block at most in which given fields are at given places and in which the
padding is left that given placements do not meet. -/
theorem Rearranged.unique (h : b.Rearranged place b') (h' : b.Rearranged place b'')
    (hcleared : b.Cleared placements b') (hcleared' : b.Cleared placements' b'')
    (hsame : ∀ p, p ∈ placements ↔ p ∈ placements') (hsound : b'.Sound) (hsound' : b''.Sound) :
    b' = b'' := by
  have hmem : ∀ f, f ∈ b'.fields ↔ f ∈ b''.fields := by
    intro f
    by_cases hkind : f.kind = .padding
    · simp [hcleared.padding f hkind, hcleared'.padding f hkind, hsame]
    · rw [h.mem f hkind, h'.mem f hkind]
  -- sound blocks with the same fields have them in the same order
  have hfields : b'.fields = b''.fields := SoundFields.eq_of_mem_iff hsound hsound' hmem
  have hname : b'.name = b''.name := h.name.trans h'.name.symm
  have hsize : b'.size = b''.size := h.size.trans h'.size.symm
  cases b'
  cases b''
  simp_all

end Block

/-! ## Section 2: Runs of placements -/

section Runs

variable {placements placements' : List Placement} {p : Placement}
  {usual blocks blocks' : List Block}

/-- In all blocks, the padding is left that none of the placements meets. -/
def Cleared (placements : List Placement) (usual blocks : List Block) : Prop :=
  List.Forall₂ (fun b b' => b.Cleared placements b') usual blocks

theorem Cleared.of_ne (h : Cleared placements usual blocks)
    (hne : ∀ b ∈ usual, b.name ≠ p.block) : Cleared (placements ++ [p]) usual blocks := by
  induction h with
  | nil => exact .nil
  | cons hfirst _ ih =>
    obtain ⟨hname, hrest⟩ := List.forall_mem_cons.1 hne
    exact .cons (hfirst.of_ne hname) (ih hrest)

theorem Cleared.applyPlacement (h : Cleared placements usual blocks)
    (hdistinct : (usual.map Block.name).Nodup)
    (hok : Settings.applyPlacement p blocks = .ok blocks') :
    Cleared (placements ++ [p]) usual blocks' := by
  induction h generalizing blocks' with
  | nil => cases hok
  | @cons b b' usual blocks hfirst hrest ih =>
    obtain ⟨hother, hdistinct⟩ := List.nodup_cons.1 hdistinct
    rw [Settings.applyPlacement] at hok
    split_ifs at hok with hname
    · have hblock : p.block = b.name := (beq_iff_eq.1 hname).symm.trans hfirst.name
      obtain ⟨b'', hmove, hok⟩ := bind_eq_ok_iff.1 hok
      cases hok
      -- no later block has the name
      have hothers : ∀ x ∈ usual, x.name ≠ p.block := by
        intro x hx heq
        exact hother (by rw [← hblock, ← heq]; exact List.mem_map_of_mem hx)
      exact .cons (hfirst.reposition hblock hmove) (Cleared.of_ne hrest hothers)
    · have hne : b.name ≠ p.block := by
        rw [← hfirst.name]
        exact fun heq => hname (beq_iff_eq.2 heq)
      obtain ⟨rest, hlater, hok⟩ := bind_eq_ok_iff.1 hok
      cases hok
      exact .cons (hfirst.of_ne hne) (ih hdistinct hlater)

/-- A run of placements clears the blocks of the padding that they meet. -/
theorem cleared_of_foldlM (hsound : ∀ b ∈ usual, b.Sound)
    (hdistinct : (usual.map Block.name).Nodup)
    (hok : placements.foldlM (fun blocks p => Settings.applyPlacement p blocks) usual =
      .ok blocks) : Cleared placements usual blocks := by
  -- from the end, as fields are settled
  induction placements using List.reverseRecOn generalizing blocks with
  | nil =>
    cases hok
    exact List.forall₂_same.2 fun b hb => Block.cleared_nil (hsound b hb)
  | append_singleton placements p ih =>
    rw [List.foldlM_append, bind_eq_ok_iff] at hok
    obtain ⟨before, hbefore, hlast⟩ := hok
    simp only [List.foldlM_cons, List.foldlM_nil, bind_pure] at hlast
    exact (ih hbefore).applyPlacement hdistinct hlast

/-! ## Section 3: Other orders -/

/-- If no field is placed twice, its last placement is the one that names it. -/
theorem lastPlacement?_eq_some_iff {block field : String}
    (hdistinct : (placements.map Placement.target).Nodup) :
    lastPlacement? placements block field = some p ↔
      p ∈ placements ∧ p.target = (block, field) := by
  have hreverse : (placements.reverse.map Placement.target).Nodup := by
    rw [List.map_reverse, List.nodup_reverse]
    exact hdistinct
  rw [← List.mem_reverse, ← find?_name_eq_some_iff hreverse]
  rfl

theorem settle_perm (hperm : placements.Perm placements')
    (hdistinct : (placements.map Placement.target).Nodup) :
    settle placements = settle placements' := by
  have hdistinct' : (placements'.map Placement.target).Nodup :=
    (hperm.map Placement.target).nodup_iff.1 hdistinct
  funext b f
  have hlast : lastPlacement? placements b.name f.name =
      lastPlacement? placements' b.name f.name := by
    ext p
    rw [lastPlacement?_eq_some_iff hdistinct, lastPlacement?_eq_some_iff hdistinct', hperm.mem_iff]
  rw [settle, settle, hlast]

/-- Blocks that the same placements have settled and cleared are the same, if they are sound. -/
theorem Settled.unique (h : Settled placements usual blocks) (h' : Settled placements usual blocks')
    (hcleared : Cleared placements usual blocks) (hcleared' : Cleared placements' usual blocks')
    (hsame : ∀ p, p ∈ placements ↔ p ∈ placements') (hsound : ∀ b ∈ blocks, b.Sound)
    (hsound' : ∀ b ∈ blocks', b.Sound) : blocks = blocks' := by
  apply List.ext_getElem (h.length_eq.symm.trans h'.length_eq)
  intro i hi hi'
  have husual : i < usual.length := h.length_eq ▸ hi
  exact (h.get husual hi).unique (h'.get husual hi') (hcleared.get husual hi)
    (hcleared'.get husual hi') hsame (hsound _ (List.getElem_mem hi))
    (hsound' _ (List.getElem_mem hi'))

end Runs

namespace Settings

variable {s s' : Settings} {c : Catalog}

theorem catalog_of_perm (hencoding : s.encoding = s'.encoding)
    (hperm : s.placements.Perm s'.placements)
    (hdistinct : (s.placements.map Placement.target).Nodup) (hc : s.catalog = .ok c) :
    s'.catalog = .ok c := by
  obtain ⟨hok, hchecked⟩ := catalog_eq_ok_iff.1 hc
  have hnames := names_of_foldlM s.sound_zos s.distinct_zos hok
  have hsettled := settled_of_foldlM hok
  have hcleared := cleared_of_foldlM s.sound_zos s.distinct_zos hok
  -- the same placements can be applied in the other order
  obtain ⟨blocks, hok', hsettled'⟩ := settled_of_names s.sound_zos s.distinct_zos
    fun p hp => hnames p (hperm.mem_iff.2 hp)
  have hcleared' := cleared_of_foldlM s.sound_zos s.distinct_zos hok'
  rw [Settled, ← settle_perm hperm hdistinct] at hsettled'
  -- what they lead to is sound, since the fields are at the same places
  have hchecked' : checkBlocks blocks = .ok () := by
    apply (Settled.checkBlocks_iff s.sound_zos s.distinct_zos hsettled').2
    exact (hsettled.checkBlocks_iff s.sound_zos s.distinct_zos).1 hchecked
  have hblocks : c.blocks = blocks := hsettled.unique hsettled' hcleared hcleared'
    (fun p => hperm.mem_iff) (checkBlocks_eq_ok_iff.1 hchecked).1
    (checkBlocks_eq_ok_iff.1 hchecked').1
  rw [catalog_eq_ok_iff, hblocks, ← hencoding]
  exact ⟨hok', hchecked'⟩

/-- Placements of which no two name the same field may come in any order: in each order they lead to
the same catalog, with the same fields and the same padding in the same order, or in each order to
none. -/
theorem catalog_reordered (hencoding : s.encoding = s'.encoding)
    (hperm : s.placements.Perm s'.placements)
    (hdistinct : (s.placements.map Placement.target).Nodup) :
    (∀ c, s.catalog = .ok c ↔ s'.catalog = .ok c) ∧
      ((∃ fault, s.catalog = .error fault) ↔ ∃ fault, s'.catalog = .error fault) := by
  have hdistinct' : (s'.placements.map Placement.target).Nodup :=
    (hperm.map Placement.target).nodup_iff.1 hdistinct
  have hsame : ∀ c, s.catalog = .ok c ↔ s'.catalog = .ok c := fun c =>
    ⟨catalog_of_perm hencoding hperm hdistinct,
      catalog_of_perm hencoding.symm hperm.symm hdistinct'⟩
  refine ⟨hsame, ?_⟩
  -- settings without a catalog have a fault
  cases hs : s.catalog with
  | ok c => simp [(hsame c).1 hs]
  | error fault =>
    cases hs' : s'.catalog with
    | ok c =>
      rw [(hsame c).2 hs'] at hs
      cases hs
    | error fault' => simp

/-- Settings that put one field where another one usually is. -/
def exchanged : Settings where
  placements := [⟨"IPA", "IPALPDDV", 0, 8⟩, ⟨"CVTEXT2", "IODF_ID", 4, 4⟩,
    ⟨"IPA", "IPALOADS", 92, 4⟩]

/-- The other way round, a field is first put over the one that is still there. -/
def exchangedBackwards : Settings :=
  { exchanged with placements := exchanged.placements.reverse }

theorem catalog_reordered_exchanged :
    exchanged.placements.Perm exchangedBackwards.placements ∧
      (exchanged.placements.map Placement.target).Nodup ∧
      ∃ c, exchanged.catalog = .ok c ∧ exchangedBackwards.catalog = .ok c ∧
        (c.block? "IPA").map Block.fields =
          some [⟨"IPALPDDV", 0, 8, .text .ebcdic⟩, ⟨"IPA+0x16", 22, 26, .padding⟩,
            ⟨"IPALPDSN", 48, 44, .text .ebcdic⟩, ⟨"IPALOADS", 92, 4, .text .ebcdic⟩] := by
  have hperm : exchanged.placements.Perm exchangedBackwards.placements :=
    (List.reverse_perm exchanged.placements).symm
  have hdistinct : (exchanged.placements.map Placement.target).Nodup := by decide
  have hipa : (exchanged.catalog.toOption.bind fun c => (c.block? "IPA").map Block.fields) =
      some [⟨"IPALPDDV", 0, 8, .text .ebcdic⟩, ⟨"IPA+0x16", 22, 26, .padding⟩,
        ⟨"IPALPDSN", 48, 44, .text .ebcdic⟩, ⟨"IPALOADS", 92, 4, .text .ebcdic⟩] := by
    decide +kernel
  refine ⟨hperm, hdistinct, ?_⟩
  cases hc : exchanged.catalog with
  | error fault => simp [hc, Except.toOption] at hipa
  | ok c =>
    -- the catalog is worked out in one order only
    have hencoding : exchanged.encoding = exchangedBackwards.encoding := rfl
    refine ⟨c, rfl, ((catalog_reordered hencoding hperm hdistinct).1 c).1 hc, ?_⟩
    simpa [hc, Except.toOption] using hipa

end Settings

end IplReport
