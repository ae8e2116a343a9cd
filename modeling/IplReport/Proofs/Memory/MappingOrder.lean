import IplReport.Proofs.Lookup
import IplReport.Proofs.Memory.Mapping

/-!
# The order in which regions are mapped

Whether several regions can be mapped one after the other is a matter of the regions alone: each has
to end below the limit, and no two of them may collide, the ones that are already there included.
Collisions do not depend on which of two regions comes first, and neither does the image in the end,
because regions that are in order and apart can be listed in one way only.

Main statements:
- `Orderly.exists_mapAll_iff`: which regions can be mapped one by one;
- `Orderly.eq_of_mem_iff`: an image is determined by its regions, whatever led to it;
- `mapAll_reordered`: mapping in another order.
-/

namespace IplReport

namespace Image

variable {image image' next : Image} {r s : Region} {regions regions' rest : List Region}
  {address size : UInt64} {window : Bytes}

/-! ## Section 1: Mapping one by one -/

/-- The image with the bytes of several regions mapped, one region after the other. -/
def mapAll (image : Image) (regions : List Region) : Except StorageError Image :=
  regions.foldlM (fun image r => image.map r.base r.bytes) image

theorem mapAll_cons_eq_ok_iff :
    image.mapAll (r :: rest) = .ok image' ↔
      ∃ next, image.map r.base r.bytes = .ok next ∧ next.mapAll rest = .ok image' := by
  unfold mapAll
  rw [List.foldlM_cons, bind_eq_ok_iff]

/-- Regions that end below the limit and collide neither with one another nor with the regions of an
image. -/
structure Mappable (image : Image) (regions : List Region) : Prop where
  bounded : ∀ r ∈ regions, r.stop ≤ image.mode.limit.toNat
  free : ∀ r ∈ regions, ∀ s ∈ image.regions, ¬r.Collides s
  apart : regions.Pairwise fun r s => ¬r.Collides s

/-- Nothing in this depends on the order of the regions, as collisions go both ways. -/
theorem Mappable.perm (h : image.Mappable regions) (hperm : regions.Perm regions') :
    image.Mappable regions' where
  bounded := fun r hr => h.bounded r (hperm.mem_iff.2 hr)
  free := fun r hr => h.free r (hperm.mem_iff.2 hr)
  apart := (hperm.pairwise_iff fun hapart hcollides => hapart hcollides.symm).1 h.apart

/-- After one region has been mapped, the rest has to keep clear of that region as well. -/
theorem Gains.mappable_iff (h : Gains image r.base r.bytes next) :
    next.Mappable rest ↔ image.Mappable rest ∧ ∀ s ∈ rest, ¬r.Collides s := by
  -- what has to be kept clear of is one region more
  constructor
  · intro hrest
    refine ⟨⟨?_, ?_, hrest.apart⟩, ?_⟩
    · rw [← h.mode]
      exact hrest.bounded
    · intro s hs t ht
      exact hrest.free s hs t ((h.regions t).2 (Or.inr ht))
    · intro s hs hcollides
      exact hrest.free s hs r ((h.regions r).2 (Or.inl rfl)) hcollides.symm
  · rintro ⟨hrest, hclear⟩
    refine ⟨?_, ?_, hrest.apart⟩
    · rw [h.mode]
      exact hrest.bounded
    · intro s hs t ht
      rcases (h.regions t).1 ht with rfl | ht
      · exact fun hcollides => hclear s hs hcollides.symm
      · exact hrest.free s hs t ht

theorem mappable_cons_iff :
    image.Mappable (r :: rest) ↔
      (r.stop ≤ image.mode.limit.toNat ∧ ∀ s ∈ image.regions, ¬r.Collides s) ∧
        image.Mappable rest ∧ ∀ s ∈ rest, ¬r.Collides s := by
  constructor
  · rintro ⟨hbounded, hfree, hapart⟩
    obtain ⟨hstop, hbounded⟩ := List.forall_mem_cons.1 hbounded
    obtain ⟨hfirst, hfree⟩ := List.forall_mem_cons.1 hfree
    obtain ⟨hclear, hapart⟩ := List.pairwise_cons.1 hapart
    exact ⟨⟨hstop, hfirst⟩, ⟨hbounded, hfree, hapart⟩, hclear⟩
  · rintro ⟨⟨hstop, hfirst⟩, ⟨hbounded, hfree, hapart⟩, hclear⟩
    exact ⟨List.forall_mem_cons.2 ⟨hstop, hbounded⟩, List.forall_mem_cons.2 ⟨hfirst, hfree⟩,
      List.pairwise_cons.2 ⟨hclear, hapart⟩⟩

/-- Regions can be mapped one by one exactly if they end below the limit and nothing collides. -/
theorem Orderly.exists_mapAll_iff (h : image.Orderly) :
    (∃ image', image.mapAll regions = .ok image') ↔ image.Mappable regions := by
  -- the image is that of the regions mapped so far, so it is general
  induction regions generalizing image with
  | nil =>
    refine iff_of_true ⟨image, rfl⟩ ⟨?_, ?_, List.Pairwise.nil⟩
    · simp
    · simp
  | cons r rest ih =>
    simp only [mapAll_cons_eq_ok_iff]
    rw [mappable_cons_iff]
    constructor
    · rintro ⟨image', next, hfirst, hrest⟩
      have hmappable := (ih (h.map hfirst)).1 ⟨image', hrest⟩
      exact ⟨h.exists_map_iff.1 ⟨next, hfirst⟩, (h.gains_of_map hfirst).mappable_iff.1 hmappable⟩
    · rintro ⟨hfirst, hrest⟩
      obtain ⟨next, hfirst⟩ := h.exists_map_iff.2 hfirst
      have hmappable := (h.gains_of_map hfirst).mappable_iff.2 hrest
      obtain ⟨image', hrest⟩ := (ih (h.map hfirst)).2 hmappable
      exact ⟨image', next, hfirst, hrest⟩

/-- What mapping one by one leads to: the regions that were there and all that were mapped. -/
theorem Orderly.of_mapAll (h : image.Orderly) (hmap : image.mapAll regions = .ok image') :
    image'.Orderly ∧ image'.mode = image.mode ∧ image'.root = image.root ∧
      ∀ s, s ∈ image'.regions ↔ s ∈ regions ∨ s ∈ image.regions := by
  induction regions generalizing image with
  | nil =>
    cases hmap
    exact ⟨h, rfl, rfl, by simp⟩
  | cons r rest ih =>
    obtain ⟨next, hfirst, hrest⟩ := mapAll_cons_eq_ok_iff.1 hmap
    have hgains := h.gains_of_map hfirst
    obtain ⟨horderly, hmode, hroot, hmem⟩ := ih (h.map hfirst) hrest
    refine ⟨horderly, hmode.trans hgains.mode, hroot.trans hgains.root, fun s => ?_⟩
    rw [hmem, hgains.regions, List.mem_cons]
    tauto

/-! ## Section 2: Any order -/

/-- Regions that are in order and apart can be listed in one way only. -/
theorem Orderly.eq_of_mem_iff (h : image.Orderly) (h' : image'.Orderly)
    (hmode : image.mode = image'.mode) (hroot : image.root = image'.root)
    (hmem : ∀ r, r ∈ image.regions ↔ r ∈ image'.regions) : image = image' := by
  -- each region starts below the next, so none is listed twice
  have hnodup : ∀ {image : Image}, image.Orderly → image.regions.Nodup := fun h =>
    h.ordered.imp fun {r s} hbelow heq => absurd hbelow.1 (by rw [heq]; exact Nat.lt_irrefl _)
  have hperm : image.regions.Perm image'.regions :=
    (List.perm_ext_iff_of_nodup (hnodup h) (hnodup h')).2 hmem
  have hregions : image.regions = image'.regions :=
    hperm.eq_of_pairwise (fun r s _ _ hrs hsr => absurd hrs.1 (Nat.lt_asymm hsr.1)) h.ordered
      h'.ordered
  cases image
  cases image'
  simp_all

/-- The regions of an image can be mapped one by one, and that leads to the image again. -/
theorem Orderly.mapAll_regions (h : image.Orderly) :
    mapAll { image with regions := [] } image.regions = .ok image := by
  have hbare : Orderly { image with regions := [] } := ⟨List.Pairwise.nil, by simp⟩
  have hmappable : Mappable { image with regions := [] } image.regions :=
    ⟨h.bounded, by simp, h.ordered.imp Region.Below.not_collides⟩
  obtain ⟨image', hmap⟩ := hbare.exists_mapAll_iff.2 hmappable
  obtain ⟨horderly, hmode, hroot, hmem⟩ := hbare.of_mapAll hmap
  have hsame : image' = image := by
    apply horderly.eq_of_mem_iff h hmode hroot
    simpa using hmem
  rw [hmap, hsame]

/-- Regions that can be mapped in one order, starting with nothing mapped, can be mapped in every
order, and the image is the same.  It has exactly the regions that were mapped, so that a read gives
what some one of them has at its place, and else nothing. -/
theorem mapAll_reordered {mode : AddressingMode} (hperm : regions.Perm regions')
    (hmap : (empty mode).mapAll regions = .ok image) :
    (empty mode).mapAll regions' = .ok image ∧
      (∀ r, r ∈ image.regions ↔ r ∈ regions') ∧
      ∀ address size window, image.read address size = some window ↔
        ∃ r ∈ regions', r.base.toNat ≤ address.toNat ∧
          r.bytes.window? (address.toNat - r.base.toNat) size.toNat = some window := by
  have hempty := orderly_empty mode
  obtain ⟨horderly, hmode, hroot, hmem⟩ := hempty.of_mapAll hmap
  have hmem : ∀ r, r ∈ image.regions ↔ r ∈ regions' := by
    intro r
    rw [hmem, hperm.mem_iff]
    simp [empty]
  refine ⟨?_, hmem, ?_⟩
  -- whether regions can be mapped does not depend on their order
  · have hmappable := (hempty.exists_mapAll_iff.1 ⟨image, hmap⟩).perm hperm
    obtain ⟨image', hmap'⟩ := hempty.exists_mapAll_iff.2 hmappable
    obtain ⟨horderly', hmode', hroot', hmem'⟩ := hempty.of_mapAll hmap'
    have hsame : image' = image := by
      apply horderly'.eq_of_mem_iff horderly (hmode'.trans hmode.symm) (hroot'.trans hroot.symm)
      intro r
      rw [hmem', hmem]
      simp [empty]
    rw [hmap', hsame]
  · intro address size window
    simp only [← hmem]
    exact horderly.read_eq_some_iff

/-- Two empty regions at one base, at the end of one region and before another. -/
def bordered : List Region :=
  [⟨0x14, []⟩, ⟨0x10, [1, 2, 3, 4]⟩, ⟨0x14, []⟩, ⟨0xfffffe, [8, 9]⟩]

theorem mapAll_reordered_bordered :
    bordered.Perm bordered.reverse ∧ ∃ image, (empty .amode24).mapAll bordered = .ok image ∧
      (empty .amode24).mapAll bordered.reverse = .ok image ∧
      image.regions = [⟨0x10, [1, 2, 3, 4]⟩, ⟨0x14, []⟩, ⟨0xfffffe, [8, 9]⟩] := by
  have hperm : bordered.Perm bordered.reverse := (List.reverse_perm bordered).symm
  have hmap : (empty .amode24).mapAll bordered =
      .ok ⟨.amode24, [⟨0x10, [1, 2, 3, 4]⟩, ⟨0x14, []⟩, ⟨0xfffffe, [8, 9]⟩], none⟩ := by
    rfl
  exact ⟨hperm, _, hmap, (mapAll_reordered hperm hmap).1, rfl⟩

end Image

end IplReport
