import IplReport.Proofs.Memory.MappingOrder

/-!
# Images that are moved

The regions of an image can be mapped again, all of them higher by one distance, as long as they
end at or below the limit.  What is read of the image is then read as much higher.  Addresses that
the bytes hold are not moved along, so they have to be written anew.

Main statements:
- `Orderly.read_shifted`: what is read of the moved regions;
- `Orderly.mapAll_shifted`: the moved regions can be mapped one by one;
- `Orderly.exists_writeAll?`: several patches can be written, and what is read then.
-/

namespace IplReport

/-! ## Section 1: Moved regions -/

/-- The address that is higher by `d`. -/
def shift (d : Nat) (address : UInt64) : UInt64 :=
  UInt64.ofNat (address.toNat + d)

theorem toNat_shift {d : Nat} {address : UInt64} (h : address.toNat + d < UInt64.size) :
    (shift d address).toNat = address.toNat + d :=
  UInt64.toNat_ofNat_of_lt' h

/-- The same bytes at a base that is higher by `d`. -/
def Region.shifted (d : Nat) (r : Region) : Region :=
  { r with base := shift d r.base }

namespace Image

variable {image : Image} {r : Region} {address size : UInt64} {bytes : Bytes} {d : Nat}

/-- The image with its regions and its root higher by `d`. -/
def shifted (image : Image) (d : Nat) : Image :=
  ⟨image.mode, image.regions.map (Region.shifted d), image.root.map (shift d)⟩

/-- Moved up by `d`, all regions of an image still end at or below its limit. -/
def HasRoom (image : Image) (d : Nat) : Prop :=
  ∀ r ∈ image.regions, r.base.toNat + d + r.bytes.length ≤ image.mode.limit.toNat

theorem HasRoom.toNat_base (h : image.HasRoom d) (hr : r ∈ image.regions) :
    (r.shifted d).base.toNat = r.base.toNat + d := by
  have hstop := h r hr
  have hlimit := image.mode.limit.toNat_lt_size
  exact toNat_shift (by omega)

theorem Orderly.shifted (h : image.Orderly) (hroom : image.HasRoom d) :
    (image.shifted d).Orderly := by
  constructor
  -- no sum wraps around, so bases keep their distances
  · refine List.pairwise_map.2 (h.ordered.imp_of_mem fun {r s} hr hs hbelow => ?_)
    obtain ⟨hbase, hstop⟩ := hbelow
    rw [Region.stop] at hstop
    rw [Region.Below, Region.stop, hroom.toNat_base hr, hroom.toNat_base hs]
    show _ ∧ r.base.toNat + d + r.bytes.length ≤ _
    omega
  · intro s hs
    obtain ⟨r, hr, rfl⟩ := List.mem_map.1 hs
    rw [Region.stop, hroom.toNat_base hr]
    exact hroom r hr

/-- An address at which bytes can be read does not wrap around when it is moved along. -/
theorem Orderly.toNat_shift (h : image.Orderly) (hroom : image.HasRoom d)
    (hread : image.read address size = some bytes) :
    (shift d address).toNat = address.toNat + d := by
  obtain ⟨r, hr, hle, hwindow⟩ := h.read_eq_some_iff.1 hread
  have hfits := (Bytes.window?_eq_some_iff.1 hwindow).1
  have hstop := hroom r hr
  have hlimit := image.mode.limit.toNat_lt_size
  exact IplReport.toNat_shift (by omega)

/-- What is read of the moved regions is what was read before, as much further down. -/
theorem Orderly.read_shifted (h : image.Orderly) (hroom : image.HasRoom d)
    (hread : image.read address size = some bytes) :
    (image.shifted d).read (shift d address) size = some bytes := by
  have haddress := h.toNat_shift hroom hread
  obtain ⟨r, hr, hle, hwindow⟩ := h.read_eq_some_iff.1 hread
  have hbase := hroom.toNat_base hr
  -- the place in the region is the same
  have hplace : (shift d address).toNat - (r.shifted d).base.toNat =
      address.toNat - r.base.toNat := by omega
  rw [(h.shifted hroom).read_eq_some_iff]
  refine ⟨r.shifted d, List.mem_map_of_mem hr, by omega, ?_⟩
  rw [hplace]
  exact hwindow

/-- The regions of an image can be mapped higher by any distance for which there is room. -/
theorem Orderly.mapAll_shifted (h : image.Orderly) (hroom : image.HasRoom d)
    (hroot : image.root = some address) :
    ((empty image.mode).withRoot (shift d address)).mapAll
      (image.regions.map (Region.shifted d)) = .ok (image.shifted d) := by
  have hmap := (h.shifted hroom).mapAll_regions
  simp only [Image.shifted, hroot, Option.map_some] at hmap ⊢
  exact hmap

/-! ## Section 2: Patches -/

/-- The image with patches written over it, each of them at its address, if all can be written. -/
def writeAll? (image : Image) (patches : List (UInt64 × Bytes)) : Option Image :=
  patches.foldlM (fun image p => image.write? p.1 p.2) image

/-- The addresses of the bytes that a patch is written over. -/
def extent (p : UInt64 × Bytes) : Set Nat :=
  Set.Ico p.1.toNat (p.1.toNat + p.2.length)

/-- Patches that are apart can be written where as many bytes can be read.  Each of them is read
then, and what is kept clear of them is read as before. -/
theorem Orderly.exists_writeAll? {kept : Set Nat} {patches : List (UInt64 × Bytes)}
    (h : image.Orderly)
    (hmapped : ∀ p ∈ patches, ∃ size window,
      image.read p.1 size = some window ∧ p.2.length = size.toNat)
    (hapart : patches.Pairwise fun p q => ∀ x ∈ extent p, x ∉ extent q)
    (hkept : ∀ p ∈ patches, ∀ x ∈ extent p, x ∉ kept) :
    ∃ image', image.writeAll? patches = some image' ∧ image'.Orderly ∧ Retains kept image image' ∧
      ∀ p ∈ patches, ∀ size, p.2.length = size.toNat → image'.read p.1 size = some p.2 := by
  -- the rest has to keep what the first patch has written
  induction patches generalizing image kept with
  | nil => exact ⟨image, rfl, h, .refl kept image, by simp⟩
  | cons p rest ih =>
    obtain ⟨⟨size, window, hread, hlength⟩, hmapped⟩ := List.forall_mem_cons.1 hmapped
    obtain ⟨hfirst, hapart⟩ := List.pairwise_cons.1 hapart
    obtain ⟨hclear, hkept⟩ := List.forall_mem_cons.1 hkept
    obtain ⟨next, hwrite⟩ := (exists_write?_iff hlength).2 ⟨window, hread⟩
    have hretains : Retains kept image next := h.retains_write? hwrite hclear
    have hmapped' : ∀ q ∈ rest, ∃ size window,
        next.read q.1 size = some window ∧ q.2.length = size.toNat := by
      intro q hq
      obtain ⟨size, window, hread, hlength⟩ := hmapped q hq
      obtain ⟨window', hread', -⟩ := hretains.read hread
      exact ⟨size, window', hread', hlength⟩
    have hkept' : ∀ q ∈ rest, ∀ x ∈ extent q, x ∉ kept ∪ extent p := by
      intro q hq x hx hunion
      rcases hunion with hx' | hx'
      · exact hkept q hq x hx hx'
      · exact hfirst q hq x hx' hx
    obtain ⟨image', hrest, horderly, hretains', hreads⟩ :=
      ih (h.write? hwrite) hmapped' hapart hkept'
    refine ⟨image', ?_, horderly, ?_, ?_⟩
    · rw [writeAll?, List.foldlM_cons, hwrite]
      exact hrest
    · exact hretains.trans (hretains'.mono fun _ => Or.inl)
    · refine List.forall_mem_cons.2 ⟨fun size' hsize' => ?_, hreads⟩
      have hsame : size' = size := UInt64.toNat_inj.1 (by omega)
      subst hsame
      apply hretains'.read_eq (h.read_written hwrite hread hlength)
      rw [← hlength]
      exact fun _ => Or.inr

end Image

end IplReport
