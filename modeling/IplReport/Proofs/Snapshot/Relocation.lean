import IplReport.Proofs.Memory.Relocation
import IplReport.Proofs.Snapshot.Footprint

/-!
# Snapshots of images that are moved

A snapshot is taken along addresses that the image itself holds.  If all regions and the root are
moved up by one distance, and the four links on the way are made to hold addresses that are as
much higher, then the same blocks are visited further up, and the snapshot is the same.

Main statement:
- `Plan.captureImage_relocated`: the snapshot of the image that is moved.
-/

namespace IplReport

/-! ## Section 1: Fields that are moved -/

variable {d : Nat}

/-- Fields of which one ends before the other starts have no byte in common. -/
theorem Field.apart_of_le {f g : Field} {address address' : UInt64}
    (h : address.toNat + f.stop ≤ address'.toNat + g.offset.toNat ∨
      address'.toNat + g.stop ≤ address.toNat + f.offset.toNat) :
    ∀ x ∈ f.extent address, x ∉ g.extent address' := by
  intro x hx hx'
  rw [extent, Set.mem_Ico] at hx hx'
  rw [stop, stop] at h
  omega

/-- Fields that have no byte in common have none when both are moved. -/
theorem Field.apart_extent_shift {f g : Field} {address address' : UInt64}
    (hf : (shift d address).toNat = address.toNat + d)
    (hg : (shift d address').toNat = address'.toNat + d)
    (h : ∀ x ∈ f.extent address, x ∉ g.extent address') :
    ∀ x ∈ f.extent (shift d address), x ∉ g.extent (shift d address') := by
  intro x hx hx'
  rw [extent, Set.mem_Ico] at hx hx'
  -- a byte of both is one of both further down
  apply h (x - d)
  · exact Set.mem_Ico.2 (by omega)
  · exact Set.mem_Ico.2 (by omega)

/-- A link in a block at an address, and the address that it holds. -/
structure Hop where
  block : UInt64
  link : Field
  value : UInt64

namespace Hop

/-- Makes the link, in its block moved up by `d`, hold an address that is as much higher. -/
def patch (d : Nat) (hop : Hop) : UInt64 × Bytes :=
  (UInt64.ofNat (hop.block.toNat + hop.link.offset.toNat + d),
    .encode hop.link.width.toNat (hop.value.toNat + d))

/-- The link is wide enough for an address that is higher by `d`. -/
def Fits (d : Nat) (hop : Hop) : Prop :=
  hop.value.toNat + d < 256 ^ hop.link.width.toNat

end Hop

namespace Image

variable {image image' : Image} {address : UInt64} {b next : Block} {f : Field} {v : FieldValue}
  {here there : UInt64} {link : Field} {hop : Hop} {kept : Set Nat}

theorem Orderly.supplies_shifted (h : image.Orderly) (hroom : image.HasRoom d)
    (hsupplied : image.Supplies b address) : (image.shifted d).Supplies b (shift d address) := by
  obtain ⟨bytes, hread⟩ := hsupplied
  exact ⟨bytes, h.read_shifted hroom hread⟩

theorem Orderly.showsField_shifted (h : image.Orderly) (hroom : image.HasRoom d)
    (hblock : (shift d address).toNat = address.toNat + d)
    (hshows : image.ShowsField address f v) :
    (image.shifted d).ShowsField (shift d address) f v := by
  obtain ⟨encoding, window, hkind, ⟨position, hposition, hread⟩, hshown⟩ := hshows
  refine ⟨encoding, window, hkind, ⟨shift d position, ?_, h.read_shifted hroom hread⟩, hshown⟩
  rw [h.toNat_shift hroom hread, hposition, hblock]
  omega

/-- A link that the image holds is where its patch is written when both are moved. -/
theorem Orderly.read_patch (h : image.Orderly) (hroom : image.HasRoom d)
    (hblock : (shift d hop.block).toNat = hop.block.toNat + d)
    (hholds : image.LinkHolds hop.block hop.link hop.value) :
    (hop.patch d).1.toNat = (shift d hop.block).toNat + hop.link.offset.toNat ∧
      ∃ word, (image.shifted d).read (hop.patch d).1 hop.link.width = some word := by
  obtain ⟨word, ⟨position, hposition, hread⟩, -⟩ := hholds
  have hplace : (hop.patch d).1 = shift d position := by
    rw [Hop.patch, shift, hposition]
  rw [hplace, h.toNat_shift hroom hread, hposition, hblock]
  exact ⟨by omega, word, h.read_shifted hroom hread⟩

/-- A link leads to the next block further up once its patch was written. -/
theorem Links.relocated (hlinks : image.Links here link there next) (h : image.Orderly)
    (hroom : image.HasRoom d) (hblock : (shift d here).toNat = here.toNat + d)
    (hfits : Hop.Fits d ⟨here, link, there⟩) (hretains : Retains kept (image.shifted d) image')
    (hwritten : image'.read (Hop.patch d ⟨here, link, there⟩).1 link.width =
      some (Hop.patch d ⟨here, link, there⟩).2) :
    image'.Links (shift d here) link (shift d there) next := by
  obtain ⟨bytes, hread⟩ := hlinks.supplied
  have hvalue := h.toNat_shift hroom hread
  refine ⟨⟨_, ⟨_, ?_, hwritten⟩, ?_⟩, ?_, ?_⟩
  · exact (h.read_patch hroom hblock hlinks.value).1
  · rw [hvalue]
    exact Bytes.bigEndian_encode hfits
  · -- an address that is not zero is not zero further up either
    have hnonzero := hlinks.nonzero
    rw [Ne, ← UInt64.toNat_inj, UInt64.toNat_zero] at hnonzero ⊢
    omega
  · exact hretains.supplies (h.supplies_shifted hroom hlinks.supplied)

end Image

/-! ## Section 2: Blocks that are moved -/

def Places.shifted (d : Nat) (places : Places) : Places :=
  ⟨shift d places.psa, shift d places.cvt, shift d places.ecvt, shift d places.ipa,
    shift d places.extension⟩

namespace Anatomy

variable {a : Anatomy} {c : Catalog} {image image' : Image} {places : Places} {s : Snapshot}
  {kept : Set Nat}

def hops (a : Anatomy) (places : Places) : List Hop :=
  [⟨places.psa, a.psaCvt, places.cvt⟩, ⟨places.cvt, a.cvtEcvt, places.ecvt⟩,
    ⟨places.ecvt, a.ecvtIpa, places.ipa⟩, ⟨places.cvt, a.cvtExtension, places.extension⟩]

/-- The four text fields of a snapshot, each with the address of its block. -/
def texts (a : Anatomy) (places : Places) : List (UInt64 × Field) :=
  [(places.ipa, a.loadDataset), (places.ipa, a.parmlibDatasetName), (places.ipa, a.deviceId),
    (places.extension, a.iodfId)]

theorem essentials_eq (a : Anatomy) (places : Places) :
    a.essentials places =
      (a.hops places).map (fun hop => (hop.block, hop.link)) ++ a.texts places := rfl

/-- The essential fields are apart: no two of them have a byte in common. -/
def Apart (a : Anatomy) (places : Places) : Prop :=
  (a.essentials places).Pairwise fun p q => ∀ x ∈ p.2.extent p.1, x ∉ q.2.extent q.1

theorem Reached.links (hreached : a.Reached image places) :
    ∀ hop ∈ a.hops places, ∃ next, image.Links hop.block hop.link hop.value next := by
  simp only [hops, List.forall_mem_cons]
  exact ⟨⟨_, hreached.cvt⟩, ⟨_, hreached.ecvt⟩, ⟨_, hreached.ipa⟩, ⟨_, hreached.extension⟩, by simp⟩

theorem Reached.toNat_shift (hreached : a.Reached image places) (h : image.Orderly)
    (hroom : image.HasRoom d) :
    ∀ p ∈ a.essentials places, (shift d p.1).toNat = p.1.toNat + d := by
  have hmoved : ∀ {b address}, image.Supplies b address →
      (shift d address).toNat = address.toNat + d := fun ⟨_, hread⟩ => h.toNat_shift hroom hread
  have hcvt := hmoved hreached.cvt.supplied
  have hipa := hmoved hreached.ipa.supplied
  simp only [essentials, List.forall_mem_cons]
  exact ⟨hmoved hreached.psa, hcvt, hmoved hreached.ecvt.supplied, hcvt, hipa, hipa, hipa,
    hmoved hreached.extension.supplied, by simp⟩

/-- Once the patches were written, the same blocks are reached further up. -/
theorem Reached.relocated (hreached : a.Reached image places) (h : image.Orderly)
    (hroom : image.HasRoom d) (hfits : ∀ hop ∈ a.hops places, hop.Fits d)
    (hretains : Image.Retains kept (image.shifted d) image')
    (hwritten : ∀ hop ∈ a.hops places,
      image'.read (hop.patch d).1 hop.link.width = some (hop.patch d).2) :
    a.Reached image' (places.shifted d) := by
  have hmoved := hreached.toNat_shift h hroom
  simp only [essentials, hops, List.forall_mem_cons] at hmoved hfits hwritten
  obtain ⟨hpsa, hcvt, hecvt, -⟩ := hmoved
  obtain ⟨hpsaCvt, hcvtEcvt, hecvtIpa, hcvtExtension, -⟩ := hfits
  obtain ⟨hpsaCvt', hcvtEcvt', hecvtIpa', hcvtExtension', -⟩ := hwritten
  refine ⟨?_, ?_, ?_, ?_, ?_, ?_⟩
  -- the root is kept by all writes, and is that of the moved image
  · rw [hretains.root, Image.shifted, hreached.root]
    rfl
  · exact hretains.supplies (h.supplies_shifted hroom hreached.psa)
  · exact hreached.cvt.relocated h hroom hpsa hpsaCvt hretains hpsaCvt'
  · exact hreached.ecvt.relocated h hroom hcvt hcvtEcvt hretains hcvtEcvt'
  · exact hreached.ipa.relocated h hroom hecvt hecvtIpa hretains hecvtIpa'
  · exact hreached.extension.relocated h hroom hcvt hcvtExtension hretains hcvtExtension'

/-- The fields show the same values further up, where their bytes were kept. -/
theorem Shown.relocated (hshown : a.Shown image places s) (hreached : a.Reached image places)
    (h : image.Orderly) (hroom : image.HasRoom d)
    (hretains : Image.Retains kept (image.shifted d) image')
    (hkept : ∀ p ∈ a.texts places, p.2.extent (shift d p.1) ⊆ kept) :
    a.Shown image' (places.shifted d) s := by
  have hmoved := hreached.toNat_shift h hroom
  simp only [essentials, texts, List.forall_mem_cons] at hmoved hkept
  obtain ⟨-, -, -, -, hipa, -, -, hextension, -⟩ := hmoved
  obtain ⟨hload, hparmlib, hdevice, hiodf, -⟩ := hkept
  refine ⟨?_, ?_, ?_, ?_⟩
  · exact hretains.showsField hload (h.showsField_shifted hroom hipa hshown.loadDataset)
  · exact hretains.showsField hparmlib
      (h.showsField_shifted hroom hipa hshown.parmlibDatasetName)
  · exact hretains.showsField hdevice (h.showsField_shifted hroom hipa hshown.deviceId)
  · exact hretains.showsField hiodf (h.showsField_shifted hroom hextension hshown.iodfId)

/-- The patch of each link covers the link further up, where bytes can be read. -/
theorem Reached.patch_covers (hreached : a.Reached image places) (h : image.Orderly)
    (hroom : image.HasRoom d) :
    ∀ hop ∈ a.hops places, Image.extent (hop.patch d) = hop.link.extent (shift d hop.block) ∧
      ∃ word, (image.shifted d).read (hop.patch d).1 hop.link.width = some word := by
  intro hop hhop
  obtain ⟨next, hlinks⟩ := hreached.links hop hhop
  have hmem : (hop.block, hop.link) ∈ a.essentials places := by
    rw [essentials_eq]
    exact List.mem_append_left _ (List.mem_map.2 ⟨hop, hhop, rfl⟩)
  have hblock := hreached.toNat_shift h hroom _ hmem
  obtain ⟨hplace, hword⟩ := h.read_patch hroom hblock hlinks.value
  refine ⟨?_, hword⟩
  rw [Image.extent, hplace, Field.extent, Hop.patch, Bytes.length_encode]

/-- Where the essential fields are apart, the four links can be made to hold higher addresses.  The
same blocks are reached then, and the same values are shown, further up. -/
theorem Reached.exists_relocated (hreached : a.Reached image places) (h : image.Orderly)
    (hshown : a.Shown image places s) (hroom : image.HasRoom d) (hapart : a.Apart places)
    (hfits : ∀ hop ∈ a.hops places, hop.Fits d) :
    ∃ image', (image.shifted d).writeAll? ((a.hops places).map (Hop.patch d)) = some image' ∧
      image'.Orderly ∧ a.Reached image' (places.shifted d) ∧
      a.Shown image' (places.shifted d) s := by
  have hcovers := hreached.patch_covers h hroom
  have hmoved := hreached.toNat_shift h hroom
  -- the essential fields are apart further up as well
  have hapart' : (a.essentials places).Pairwise fun p q =>
      ∀ x ∈ p.2.extent (shift d p.1), x ∉ q.2.extent (shift d q.1) :=
    List.Pairwise.imp_of_mem (fun hp hq hpair =>
      Field.apart_extent_shift (hmoved _ hp) (hmoved _ hq) hpair) hapart
  rw [essentials_eq, List.pairwise_append, List.pairwise_map] at hapart'
  obtain ⟨hlinksApart, -, htextsApart⟩ := hapart'
  -- what is written over can be read, and it is as long as the patch
  have hmapped : ∀ p ∈ (a.hops places).map (Hop.patch d), ∃ size window,
      (image.shifted d).read p.1 size = some window ∧ p.2.length = size.toNat := by
    refine List.forall_mem_map.2 fun hop hhop => ?_
    obtain ⟨word, hread⟩ := (hcovers hop hhop).2
    exact ⟨hop.link.width, word, hread, Bytes.length_encode _ _⟩
  have hpatches : ((a.hops places).map (Hop.patch d)).Pairwise fun p q =>
      ∀ x ∈ Image.extent p, x ∉ Image.extent q := by
    refine List.pairwise_map.2 (hlinksApart.imp_of_mem fun {p q} hp hq hpair => ?_)
    rw [(hcovers p hp).1, (hcovers q hq).1]
    exact hpair
  -- no patch meets a text
  have hkept : ∀ p ∈ (a.hops places).map (Hop.patch d), ∀ x ∈ Image.extent p,
      x ∉ {x | ∃ q ∈ a.texts places, x ∈ q.2.extent (shift d q.1)} := by
    refine List.forall_mem_map.2 fun hop hhop => ?_
    rintro x hx ⟨q, hq, hxq⟩
    rw [(hcovers hop hhop).1] at hx
    exact htextsApart _ (List.mem_map_of_mem hhop) q hq x hx hxq
  obtain ⟨image', hwrite, horderly, hretains, hreads⟩ :=
    (h.shifted hroom).exists_writeAll? hmapped hpatches hkept
  refine ⟨image', hwrite, horderly, ?_, ?_⟩
  · apply hreached.relocated h hroom hfits hretains
    exact fun hop hhop => hreads _ (List.mem_map_of_mem hhop) _ (Bytes.length_encode _ _)
  · apply hshown.relocated hreached h hroom hretains
    exact fun p hp x hx => ⟨p, hp, hx⟩

end Anatomy

/-! ## Section 3: Snapshots that are moved -/

namespace Plan

variable {c : Catalog} {plan : Plan} {image : Image} {s : Snapshot}

/-- A snapshot does not depend on where things are.  If the essential fields of a snapshot of an
image that can be reached are apart, its regions can be mapped higher by any distance for which
there is room.  If the four links are wide enough for addresses that are as much higher, these can
be written, and the snapshot from the root that is as much higher is the same. -/
theorem captureImage_relocated (hplan : ofCatalog c = .ok plan) (himage : image.Reachable)
    (hs : plan.captureImage image = .ok s) :
    (∃ (a : Anatomy) (places : Places), a.Of c ∧ a.Reached image places) ∧
    ∀ (a : Anatomy) (places : Places), a.Of c → a.Reached image places → a.Apart places →
      ∀ d : Nat, (∀ hop ∈ a.hops places, hop.Fits d) → image.HasRoom d →
        ((Image.empty image.mode).withRoot (shift d places.psa)).mapAll
            (image.regions.map (Region.shifted d)) = .ok (image.shifted d) ∧
        ∃ relocated,
          (image.shifted d).writeAll? ((a.hops places).map (Hop.patch d)) = some relocated ∧
          plan.captureImage relocated = .ok s := by
  have h := himage.orderly
  constructor
  · obtain ⟨a, ha, rfl⟩ := ofCatalog_eq_ok_iff.1 hplan
    obtain ⟨places, hreached, -⟩ := (Anatomy.captureImage_eq_ok_iff ha h).1 hs
    exact ⟨a, places, ha, hreached⟩
  · intro a places ha hreached hapart d hfits hroom
    rw [← ha.plan_eq hplan] at hs ⊢
    have hshown := hreached.shown_of_captureImage ha h hs
    obtain ⟨relocated, hwrite, horderly, hreached', hshown'⟩ :=
      hreached.exists_relocated h hshown hroom hapart hfits
    exact ⟨h.mapAll_shifted hroom hreached.root, relocated, hwrite,
      hreached'.captureImage ha horderly hshown'⟩

/-- The blocks that lie over each other can be moved up to the very end of storage. -/
theorem captureImage_relocated_overlappedImage :
    ∃ plan s relocated, ofCatalog (Zos.catalog .ebcdic) = .ok plan ∧
      plan.captureImage (overlappedImage 4) = .ok s ∧
      ((overlappedImage 4).shifted 0x7ffffe70).writeAll? [(0x7ffffe80, [0x7f, 0xff, 0xfe, 0x74]),
        (0x7fffff00, [0x7f, 0xff, 0xfe, 0x74]), (0x7ffffffc, [0x7f, 0xff, 0xfe, 0x74]),
        (0x7fffffbc, [0x7f, 0xff, 0xfe, 0x74])] = some relocated ∧
      plan.captureImage relocated = .ok s := by
  have hplan := Anatomy.ofCatalog_zos .ebcdic
  obtain ⟨s, hs⟩ := exists_captureImage_overlappedImage
  -- the fields are apart, though the blocks that they are in overlap
  have hplaces : ((Anatomy.zos .ebcdic).essentials ⟨0, 4, 4, 4, 4⟩).Pairwise fun p q =>
      p.1.toNat + p.2.stop ≤ q.1.toNat + q.2.offset.toNat ∨
        q.1.toNat + q.2.stop ≤ p.1.toNat + p.2.offset.toNat := by decide
  have hapart : (Anatomy.zos .ebcdic).Apart ⟨0, 4, 4, 4, 4⟩ := hplaces.imp Field.apart_of_le
  have hfits : ∀ hop ∈ (Anatomy.zos .ebcdic).hops ⟨0, 4, 4, 4, 4⟩, hop.Fits 0x7ffffe70 := by
    simp [Anatomy.hops, Anatomy.zos, Hop.Fits]
  have hroom : (overlappedImage 4).HasRoom 0x7ffffe70 := by
    unfold Image.HasRoom
    decide +kernel
  obtain ⟨-, relocated, hwrite, hcapture⟩ :=
    (captureImage_relocated hplan (reachable_overlappedImage 4) hs).2 _ _
      (Anatomy.of_zos .ebcdic) reached_overlappedImage hapart _ hfits hroom
  exact ⟨_, s, relocated, hplan, hs, hwrite, hcapture⟩

end Plan

end IplReport
