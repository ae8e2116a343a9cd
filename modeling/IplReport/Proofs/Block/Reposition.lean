import IplReport.Block.Reposition
import IplReport.Proofs.Block.Soundness

/-!
# Blocks after fields have moved

Nothing is checked while fields move, so a block may be unsound in between: fields may overlap
other fields or end past the block.  What holds all the time is that every field other than
padding is at the place that it was last given, and that the padding that is left has been there
from the start and is in nobody's way.

Main statements:
- `Rearranged.reposition`: moving a text field keeps this;
- `Rearranged.sound_iff`: whether the block is sound depends on the last places alone.
-/

namespace IplReport

/-! ## Section 1: Order by offset -/

section Order

variable {f : Field} {fields : List Field}

theorem insertByOffset_perm (f : Field) (fields : List Field) :
    (insertByOffset f fields).Perm (f :: fields) := by
  induction fields with
  | nil => exact .refl _
  | cons g rest ih =>
    unfold insertByOffset
    split
    · exact (ih.cons g).trans (.swap f g rest)
    · exact .refl _

theorem sortByOffset_perm (fields : List Field) : (sortByOffset fields).Perm fields := by
  induction fields with
  | nil => exact .refl _
  | cons f rest ih => exact (insertByOffset_perm f _).trans (ih.cons f)

theorem pairwise_insertByOffset (h : fields.Pairwise fun f g => f.offset ≤ g.offset) :
    (insertByOffset f fields).Pairwise fun f g => f.offset ≤ g.offset := by
  induction fields with
  | nil => exact List.pairwise_singleton _ _
  | cons g rest ih =>
    obtain ⟨hfirst, hrest⟩ := List.pairwise_cons.1 h
    -- the field goes behind those that start before it does, and before all others
    unfold insertByOffset
    split
    case isTrue hlt =>
      refine List.pairwise_cons.2 ⟨fun x hx => ?_, ih hrest⟩
      rcases List.mem_cons.1 ((insertByOffset_perm f rest).mem_iff.1 hx) with rfl | hx
      · exact UInt64.le_of_lt hlt
      · exact hfirst x hx
    case isFalse hle =>
      have hle : f.offset ≤ g.offset := UInt64.not_lt.1 hle
      refine List.pairwise_cons.2 ⟨fun x hx => ?_, h⟩
      rcases List.mem_cons.1 hx with rfl | hx
      · exact hle
      · exact UInt64.le_trans hle (hfirst x hx)

theorem pairwise_sortByOffset (fields : List Field) :
    (sortByOffset fields).Pairwise fun f g => f.offset ≤ g.offset := by
  induction fields with
  | nil => exact List.Pairwise.nil
  | cons f rest ih => exact pairwise_insertByOffset ih

end Order

/-! ## Section 2: Overlaps -/

namespace Field

variable {f g : Field}

theorem toNat_cappedStop (f : Field) : f.cappedStop.toNat = min f.stop 0xffffffffffffffff := by
  unfold cappedStop
  rw [UInt64.toNat_ofNat_of_lt' (by rw [UInt64.size]; omega)]

theorem cappedStop_le_stop (f : Field) : f.cappedStop.toNat ≤ f.stop := by
  rw [toNat_cappedStop]
  exact Nat.min_le_left _ _

/-- Fields that are apart are found not to overlap. -/
theorem Apart.overlaps_eq_false (h : f.Apart g) : f.overlaps g = false := by
  have hf := f.cappedStop_le_stop
  have hg := g.cappedStop_le_stop
  simp only [overlaps, Bool.and_eq_false_iff, decide_eq_false_iff_not, UInt64.lt_iff_toNat_lt]
  rcases h with hbefore | hafter
  · right
    omega
  · left
    omega

/-- Fields that end below the highest address and are found not to overlap are apart. -/
theorem apart_of_overlaps_eq_false {size : UInt64} (hf : f.stop ≤ size.toNat)
    (hg : g.stop ≤ size.toNat) (h : f.overlaps g = false) : f.Apart g := by
  have hsize := size.toNat_lt
  -- below the highest address nothing is capped
  have hcapped : ∀ {f : Field}, f.stop ≤ size.toNat → f.cappedStop.toNat = f.stop := by
    intro f hstop
    rw [toNat_cappedStop]
    omega
  simp only [overlaps, Bool.and_eq_false_iff, decide_eq_false_iff_not, UInt64.lt_iff_toNat_lt,
    hcapped hf, hcapped hg, Nat.not_lt] at h
  exact h.symm

end Field

/-! ## Section 3: One move -/

namespace Block

variable {b b' : Block} {f g moved : Field} {name : String} {offset width : UInt64}

theorem eraseP_name_eq_filter {fields : List Field} (h : (fields.map Field.name).Nodup) :
    fields.eraseP (fun g => g.name == name) = fields.filter fun g => !(g.name == name) := by
  induction fields with
  | nil => rfl
  | cons g rest ih =>
    obtain ⟨hfirst, hrest⟩ := List.nodup_cons.1 h
    by_cases hname : g.name = name
    · -- no other field has this name, so nothing more is filtered out
      have hkeep : ∀ x ∈ rest, (!(x.name == name)) = true := by
        intro x hx
        have hne : x.name ≠ g.name := fun heq => hfirst (heq ▸ List.mem_map_of_mem hx)
        simpa [← hname] using hne
      simp [hname, List.filter_eq_self.2 hkeep]
    · simp [hname, ih hrest]

/-- The fields after a move, whatever their order. -/
theorem mem_place (h : (b.fields.map Field.name).Nodup) :
    g ∈ (b.place f moved).fields ↔ g = moved ∨
      g ∈ b.fields ∧ g.name ≠ f.name ∧ ¬(g.kind = .padding ∧ g.overlaps moved = true) := by
  unfold place
  rw [(sortByOffset_perm _).mem_iff, eraseP_name_eq_filter h]
  simp only [List.mem_append, List.mem_filter, List.mem_singleton]
  simp
  tauto

theorem distinct_place (h : (b.fields.map Field.name).Nodup) (hname : moved.name = f.name) :
    ((b.place f moved).fields.map Field.name).Nodup := by
  unfold place
  rw [((sortByOffset_perm _).map Field.name).nodup_iff, eraseP_name_eq_filter h,
    List.filter_filter, List.map_append, List.nodup_append]
  refine ⟨(h.sublist (List.filter_sublist.map _)), by simp, ?_⟩
  intro kept hkept moved' hmoved heq
  obtain ⟨g, hg, rfl⟩ := List.mem_map.1 hkept
  simp only [List.map_singleton, List.mem_singleton] at hmoved
  simp [heq, hmoved, hname] at hg

/-- A field can be moved exactly if a field of that name is text. -/
theorem reposition_eq_ok_iff (h : (b.fields.map Field.name).Nodup) :
    b.reposition name offset width = .ok b' ↔
      ∃ f ∈ b.fields, f.name = name ∧ f.isText = true ∧
        b' = b.place f (f.moveTo offset width) := by
  rw [reposition, bind_eq_ok_iff]
  constructor
  · rintro ⟨f, hf, hmove⟩
    obtain ⟨hmem, hname⟩ := (field_eq_ok_iff h).1 hf
    split_ifs at hmove with htext
    cases hmove
    exact ⟨f, hmem, hname, htext, rfl⟩
  · rintro ⟨f, hmem, hname, htext, rfl⟩
    exact ⟨f, (field_eq_ok_iff h).2 ⟨hmem, hname⟩, if_pos htext⟩

/-! ## Section 4: Any number of moves -/

/-- A way of giving fields other places: names and kinds stay, and only text moves. -/
structure Moves (place : Field → Field) : Prop where
  name : ∀ f, (place f).name = f.name
  kind : ∀ f, (place f).kind = f.kind
  text : ∀ f, f.isText = false → place f = f

theorem Moves.isText {place : Field → Field} (h : Moves place) (f : Field) :
    (place f).isText = f.isText := by
  simp [Field.isText, h.kind f]

/-- A field that is moved again is where it would be if it had been moved only then. -/
theorem Moves.moveTo {place : Field → Field} (h : Moves place) (f : Field) :
    (place f).moveTo offset width = f.moveTo offset width := by
  simp [Field.moveTo, h.name f, h.kind f]

/-- The block `b'` is `b` with its fields at the places that `place` gives them.  Padding that is
left over is that of `b`, and none of the fields is found to overlap it. -/
structure Rearranged (b : Block) (place : Field → Field) (b' : Block) : Prop where
  name : b'.name = b.name
  size : b'.size = b.size
  distinct : (b'.fields.map Field.name).Nodup
  sorted : b'.fields.Pairwise fun f g => f.offset ≤ g.offset
  mem : ∀ f, f.kind ≠ .padding → (f ∈ b'.fields ↔ ∃ g ∈ b.fields, place g = f)
  padding : ∀ p ∈ b'.fields, p.kind = .padding →
    p ∈ b.fields ∧ ∀ f ∈ b'.fields, f.kind ≠ .padding → p.overlaps f = false

variable {place place' : Field → Field}

/-- A sound block in which nothing has moved. -/
theorem Sound.rearranged (h : b.Sound) : b.Rearranged id b where
  name := rfl
  size := rfl
  distinct := h.distinct
  sorted := by
    -- in a sound block each field ends before the next one starts
    refine h.ordered.imp fun {f g} hstop => ?_
    exact UInt64.le_iff_toNat_le.2 (Nat.le_trans f.offset_le_stop hstop)
  mem := by simp
  padding := by
    intro p hp hpadding
    refine ⟨hp, fun f hf hkind => ?_⟩
    have hne : p ≠ f := fun heq => hkind (heq ▸ hpadding)
    exact (h.apart hp hf hne).overlaps_eq_false

/-- One more move of a text field succeeds, and afterwards this field is at its new place while
the other fields are where they were. -/
theorem Rearranged.reposition (h : b.Rearranged place b') (hb : (b.fields.map Field.name).Nodup)
    (hplace : Moves place) (hf : f ∈ b.fields) (htext : f.isText = true)
    (hmoved : place' f = f.moveTo offset width)
    (hothers : ∀ g ∈ b.fields, g.name ≠ f.name → place' g = place g) :
    ∃ b'', b'.reposition f.name offset width = .ok b'' ∧ b.Rearranged place' b'' := by
  obtain ⟨encoding, hkind⟩ := Field.isText_iff.1 htext
  have hf' : place f ∈ b'.fields :=
    (h.mem _ (by simp [hplace.kind, hkind])).2 ⟨f, hf, rfl⟩
  have hmem : ∀ {g}, g ∈ (b'.place (place f) (f.moveTo offset width)).fields ↔
      g = f.moveTo offset width ∨ g ∈ b'.fields ∧ g.name ≠ (place f).name ∧
        ¬(g.kind = .padding ∧ g.overlaps (f.moveTo offset width) = true) := mem_place h.distinct
  -- what has moved is text, so padding after the move was there before
  have hmovedKind : (f.moveTo offset width).kind ≠ .padding := by simp [Field.moveTo, hkind]
  refine ⟨b'.place (place f) (f.moveTo offset width), ?_, ?_⟩
  · rw [reposition_eq_ok_iff h.distinct]
    exact ⟨place f, hf', hplace.name f, by rwa [hplace.isText], by rw [hplace.moveTo]⟩
  refine ⟨h.name, h.size, distinct_place h.distinct (hplace.name f).symm,
    pairwise_sortByOffset _, ?_, ?_⟩
  · intro g hg
    rw [hmem, h.mem g hg, hplace.name]
    constructor
    · rintro (rfl | ⟨⟨g, hgmem, rfl⟩, hname, -⟩)
      · exact ⟨f, hf, hmoved⟩
      · rw [hplace.name] at hname
        exact ⟨g, hgmem, hothers g hgmem hname⟩
    · rintro ⟨g, hgmem, rfl⟩
      -- fields of one name are the same, so only `f` has moved
      by_cases hname : g.name = f.name
      · left
        rw [List.inj_on_of_nodup_map hb hgmem hf hname, hmoved]
      · right
        rw [hothers g hgmem hname] at hg ⊢
        exact ⟨⟨g, hgmem, rfl⟩, by rwa [hplace.name], fun hpadding => hg hpadding.1⟩
  · -- padding that overlaps the new place has just been dropped
    intro p hp hpadding
    rcases hmem.1 hp with rfl | ⟨hp, -, hfree⟩
    · exact absurd hpadding hmovedKind
    · obtain ⟨hold, hclear⟩ := h.padding p hp hpadding
      refine ⟨hold, fun g hg hkind => ?_⟩
      rcases hmem.1 hg with rfl | ⟨hg, -⟩
      · simpa [hpadding] using hfree
      · exact hclear g hg hkind

/-! ## Section 5: Soundness in the end -/

/-- What is asked of the places of the fields of a block: the fields other than padding have
bytes, end inside the block, and any two of them are apart. -/
structure Accepts (b : Block) (place : Field → Field) : Prop where
  width : ∀ f ∈ b.fields, f.kind ≠ .padding → (place f).width ≠ 0
  stop : ∀ f ∈ b.fields, f.kind ≠ .padding → (place f).stop ≤ b.size.toNat
  apart : ∀ f ∈ b.fields, ∀ g ∈ b.fields, f.kind ≠ .padding → g.kind ≠ .padding → f ≠ g →
    (place f).Apart (place g)

/-- Whether a block is sound after moves depends on the last places of its fields alone. -/
theorem Rearranged.sound_iff (hb : b.Sound) (hplace : Moves place) (h : b.Rearranged place b') :
    b'.Sound ↔ b.Accepts place := by
  have hmem : ∀ f ∈ b.fields, f.kind ≠ .padding → place f ∈ b'.fields := by
    intro f hf hkind
    exact (h.mem _ (by rwa [hplace.kind])).2 ⟨f, hf, rfl⟩
  constructor
  · intro hsound
    refine ⟨fun f hf hkind => ?_, fun f hf hkind => ?_, fun f hf g hg hfkind hgkind hne => ?_⟩
    · exact (hsound.admitted _ (hmem f hf hkind)).width
    · rw [← h.size]
      exact (hsound.admitted _ (hmem f hf hkind)).stop
    · apply hsound.apart (hmem f hf hfkind) (hmem g hg hgkind)
      -- moves keep names, and fields of `b` with one name are the same
      intro heq
      have hname := congrArg Field.name heq
      rw [hplace.name, hplace.name] at hname
      exact hne (hb.eq_of_name hf hg hname)
  · rintro ⟨hwidth, hstop, hapart⟩
    have hadmits : ∀ f ∈ b'.fields, b'.Admits f := by
      intro f hf
      by_cases hkind : f.kind = .padding
      · have hold := hb.admitted f (h.padding f hf hkind).1
        exact ⟨hold.width, by rw [h.size]; exact hold.stop, by simp [hkind]⟩
      · obtain ⟨g, hg, rfl⟩ := (h.mem f hkind).1 hf
        rw [hplace.kind] at hkind
        refine ⟨hwidth g hg hkind, by rw [h.size]; exact hstop g hg hkind, fun hlink => ?_⟩
        rw [hplace.kind] at hlink
        rw [hplace.text g (Field.isText_of_link hlink)]
        exact (hb.admitted g hg).link hlink
    refine soundFields_of_sorted h.distinct hadmits h.sorted fun f hf g hg hne => ?_
    -- padding is apart from padding as it was in `b`, and from the others by what moves keep
    by_cases hfkind : f.kind = .padding
    · obtain ⟨hfold, hfclear⟩ := h.padding f hf hfkind
      by_cases hgkind : g.kind = .padding
      · exact hb.apart hfold (h.padding g hg hgkind).1 hne
      · exact Field.apart_of_overlaps_eq_false (hadmits f hf).stop (hadmits g hg).stop
          (hfclear g hg hgkind)
    · obtain ⟨f, hf', rfl⟩ := (h.mem f hfkind).1 hf
      by_cases hgkind : g.kind = .padding
      · apply Field.Apart.symm
        exact Field.apart_of_overlaps_eq_false (hadmits g hg).stop (hadmits _ hf).stop
          ((h.padding g hg hgkind).2 _ hf hfkind)
      · obtain ⟨g, hg', rfl⟩ := (h.mem g hgkind).1 hg
        rw [hplace.kind] at hfkind hgkind
        exact hapart f hf' g hg' hfkind hgkind fun heq => hne (congrArg place heq)

end Block

end IplReport
