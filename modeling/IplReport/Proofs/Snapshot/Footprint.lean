import IplReport.Proofs.Memory.Frame
import IplReport.Proofs.Snapshot.Capture

/-!
# What a snapshot depends on

A snapshot depends on eight byte ranges of an image: the four links on the way and the four text
fields at its ends.  Operations that write over none of these bytes leave the snapshot as it is,
whatever else they do to the blocks around them, and also where blocks overlap.

Main statement:
- `Plan.captureImage_undisturbed`: the snapshot after any run of such operations.
-/

namespace IplReport

/-! ## Section 1: Fields that are kept -/

/-- The addresses of the bytes of a field, in a block at a given address. -/
def Field.extent (f : Field) (address : UInt64) : Set Nat :=
  Set.Ico (address.toNat + f.offset.toNat) (address.toNat + f.offset.toNat + f.width.toNat)

namespace Image

variable {kept : Set Nat} {image image' : Image} {f link : Field} {b next : Block}
  {address here there value : UInt64} {window : Bytes} {v : FieldValue}

theorem Retains.supplies (h : Retains kept image image') (hsupplied : image.Supplies b address) :
    image'.Supplies b address := by
  obtain ⟨bytes, hread⟩ := hsupplied
  obtain ⟨bytes', hread', -⟩ := h.read hread
  exact ⟨bytes', hread'⟩

theorem Retains.fieldHolds (h : Retains kept image image') (hkept : f.extent address ⊆ kept)
    (hholds : image.FieldHolds address f window) : image'.FieldHolds address f window := by
  obtain ⟨position, hposition, hread⟩ := hholds
  refine ⟨position, hposition, h.read_eq hread ?_⟩
  rw [hposition]
  exact hkept

theorem Retains.links (h : Retains kept image image') (hkept : link.extent here ⊆ kept)
    (hlinks : image.Links here link there next) : image'.Links here link there next := by
  obtain ⟨⟨word, hword, hvalue⟩, hnonzero, hsupplied⟩ := hlinks
  exact ⟨⟨word, h.fieldHolds hkept hword, hvalue⟩, hnonzero, h.supplies hsupplied⟩

theorem Retains.showsField (h : Retains kept image image') (hkept : f.extent address ⊆ kept)
    (hshows : image.ShowsField address f v) : image'.ShowsField address f v := by
  obtain ⟨encoding, window, hkind, hholds, hshown⟩ := hshows
  exact ⟨encoding, window, hkind, h.fieldHolds hkept hholds, hshown⟩

end Image

/-! ## Section 2: The footprint of a snapshot -/

namespace Anatomy

variable {a : Anatomy} {c : Catalog} {image image' : Image} {places : Places} {s : Snapshot}

/-- The fields that a snapshot is made of, each with the address of its block. -/
def essentials (a : Anatomy) (places : Places) : List (UInt64 × Field) :=
  [(places.psa, a.psaCvt), (places.cvt, a.cvtEcvt), (places.ecvt, a.ecvtIpa),
    (places.cvt, a.cvtExtension), (places.ipa, a.loadDataset),
    (places.ipa, a.parmlibDatasetName), (places.ipa, a.deviceId), (places.extension, a.iodfId)]

/-- The addresses of all bytes of these fields. -/
def footprint (a : Anatomy) (places : Places) : Set Nat :=
  {x | ∃ p ∈ a.essentials places, x ∈ p.2.extent p.1}

theorem extent_subset_footprint {f : Field} {address : UInt64}
    (h : (address, f) ∈ a.essentials places) : f.extent address ⊆ a.footprint places :=
  fun _ hx => ⟨_, h, hx⟩

/-- Where the footprint is retained, the same blocks are reached. -/
theorem Reached.of_retains (hreached : a.Reached image places)
    (h : image.Retains (a.footprint places) image') : a.Reached image' places where
  root := h.root.trans hreached.root
  psa := h.supplies hreached.psa
  cvt := h.links (extent_subset_footprint (by simp [essentials])) hreached.cvt
  ecvt := h.links (extent_subset_footprint (by simp [essentials])) hreached.ecvt
  ipa := h.links (extent_subset_footprint (by simp [essentials])) hreached.ipa
  extension := h.links (extent_subset_footprint (by simp [essentials])) hreached.extension

/-- Where the footprint is retained, the fields show the same values. -/
theorem Shown.of_retains (hshown : a.Shown image places s)
    (h : image.Retains (a.footprint places) image') : a.Shown image' places s where
  loadDataset := h.showsField (extent_subset_footprint (by simp [essentials])) hshown.loadDataset
  parmlibDatasetName :=
    h.showsField (extent_subset_footprint (by simp [essentials])) hshown.parmlibDatasetName
  deviceId := h.showsField (extent_subset_footprint (by simp [essentials])) hshown.deviceId
  iodfId := h.showsField (extent_subset_footprint (by simp [essentials])) hshown.iodfId

/-- Where blocks are reached, there is a snapshot only of what the fields in these blocks show. -/
theorem Reached.shown_of_captureImage (ha : a.Of c) (h : image.Orderly)
    (hreached : a.Reached image places) (hs : a.plan.captureImage image = .ok s) :
    a.Shown image places s := by
  obtain ⟨s', hshown⟩ := hreached.exists_shown ha h
  have hs' := hreached.captureImage ha h hshown
  rw [hs, Except.ok.injEq] at hs'
  subst hs'
  exact hshown

end Anatomy

/-! ## Section 3: Snapshots that are not disturbed -/

namespace Plan

variable {c : Catalog} {plan : Plan} {image : Image} {s : Snapshot}

/-- A snapshot of an image that can be reached is not disturbed by any further run of mappings and
of writes, successful or not, as long as no write goes over a byte of the four links and the four
text fields that it is made of, in the blocks where they were found. -/
theorem captureImage_undisturbed (hplan : ofCatalog c = .ok plan) (himage : image.Reachable)
    (hs : plan.captureImage image = .ok s) :
    (∃ (a : Anatomy) (places : Places), a.Of c ∧ a.Reached image places) ∧
    ∀ (a : Anatomy) (places : Places), a.Of c → a.Reached image places →
      ∀ operations : List Image.Operation,
        (∀ operation ∈ operations, operation.Spares (a.footprint places)) →
        plan.captureImage (operations.foldl Image.apply image) = .ok s := by
  have h := himage.orderly
  constructor
  · obtain ⟨a, ha, rfl⟩ := ofCatalog_eq_ok_iff.1 hplan
    obtain ⟨places, hreached, -⟩ := (Anatomy.captureImage_eq_ok_iff ha h).1 hs
    exact ⟨a, places, ha, hreached⟩
  · intro a places ha hreached operations hspare
    -- the parts of the catalog determine the plan
    have hmade := ofCatalog_eq_ok_iff.2 ⟨a, ha, rfl⟩
    rw [hplan, Except.ok.injEq] at hmade
    subst hmade
    have hretains := h.retains_run hspare
    have hshown := hreached.shown_of_captureImage ha h hs
    exact (hreached.of_retains hretains).captureImage ha (h.run operations)
      (hshown.of_retains hretains)

theorem reached_overlappedImage :
    (Anatomy.zos .ebcdic).Reached (overlappedImage 4) ⟨0, 4, 4, 4, 4⟩ := by
  -- everything that has to be read, evaluated at once
  have hreads : (overlappedImage 4).root = some 0 ∧
      ([16, 144, 396, 332].all fun position =>
        (overlappedImage 4).read position 4 = some [0, 0, 0, 4]) ∧
      ([332, 396, 96, 8].all fun size => ((overlappedImage 4).read 4 size).isSome) ∧
      ((overlappedImage 4).read 0 20).isSome := by decide +kernel
  simp only [List.all_cons, List.all_nil, Bool.and_true, Bool.and_eq_true,
    decide_eq_true_eq] at hreads
  obtain ⟨hroot, ⟨hcvt, hecvt, hipa, hextension⟩, ⟨hcvt', hecvt', hipa', hextension'⟩, hpsa⟩ :=
    hreads
  refine ⟨hroot, Option.isSome_iff_exists.1 hpsa, ?_, ?_, ?_, ?_⟩
  · exact ⟨⟨_, ⟨16, rfl, hcvt⟩, rfl⟩, by decide, Option.isSome_iff_exists.1 hcvt'⟩
  · exact ⟨⟨_, ⟨144, rfl, hecvt⟩, rfl⟩, by decide, Option.isSome_iff_exists.1 hecvt'⟩
  · exact ⟨⟨_, ⟨396, rfl, hipa⟩, rfl⟩, by decide, Option.isSome_iff_exists.1 hipa'⟩
  · exact ⟨⟨_, ⟨332, rfl, hextension⟩, rfl⟩, by decide, Option.isSome_iff_exists.1 hextension'⟩

theorem exists_captureImage_overlappedImage :
    ∃ s, (Anatomy.zos .ebcdic).plan.captureImage (overlappedImage 4) = .ok s := by
  have horderly := (reachable_overlappedImage 4).orderly
  obtain ⟨s, hshown⟩ := reached_overlappedImage.exists_shown (Anatomy.of_zos .ebcdic) horderly
  exact ⟨s, reached_overlappedImage.captureImage (Anatomy.of_zos .ebcdic) horderly hshown⟩

/-- Where four blocks lie over each other, the snapshot survives a mapping, a mapping that is
refused, a write of nothing over a link, and a write over bytes between two fields. -/
theorem captureImage_undisturbed_overlappedImage :
    ∃ plan s, ofCatalog (Zos.catalog .ebcdic) = .ok plan ∧
      plan.captureImage (overlappedImage 4) = .ok s ∧
      plan.captureImage ([.map 400 [1], .map 399 [1, 2], .write 17 [], .write 12 [1, 2, 3, 4]].foldl
        Image.apply (overlappedImage 4)) = .ok s := by
  have hplan := Anatomy.ofCatalog_zos .ebcdic
  obtain ⟨s, hs⟩ := exists_captureImage_overlappedImage
  refine ⟨_, s, hplan, hs, ?_⟩
  apply (captureImage_undisturbed hplan (reachable_overlappedImage 4) hs).2 _ _
    (Anatomy.of_zos .ebcdic) reached_overlappedImage
  -- the eight ranges come closest to this write with the bytes 10, 11 and 16 to 19
  have hmisses : ∀ x ∈ (Anatomy.zos .ebcdic).footprint ⟨0, 4, 4, 4, 4⟩, ¬(12 ≤ x ∧ x < 16) := by
    rintro x ⟨p, hp, hx⟩
    simp only [Anatomy.essentials, Anatomy.zos, List.mem_cons, List.not_mem_nil, or_false] at hp
    rcases hp with rfl | rfl | rfl | rfl | rfl | rfl | rfl | rfl <;>
      simp [Field.extent] at hx <;> omega
  simp only [List.forall_mem_cons]
  refine ⟨.map _ _, .map _ _, .write ?_, .write ?_, by simp⟩
  · exact fun x hx _ => Nat.not_lt.2 hx.1 hx.2
  · exact fun x hx hkept => hmisses x hkept hx

end Plan

end IplReport
