import IplReport.Proofs.Memory.Frame

/-!
# What writing does

A write goes into one region, the nearest at or below its address, which is also the one that a read
at this address looks at.  So bytes can be written exactly where as many can be read.  The write
changes no region but this one, and of this one only the bytes in its range, so that reads succeed
and fail as before.

Main statements:
- `Orderly.exists_read_iff`: which reads succeed at all;
- `Orderly.overlays_of_write?`: what is read after a write;
- `write_overlays`: where bytes can be written, and what success and failure leave behind.
-/

namespace IplReport

namespace Image

variable {image image' : Image} {address position size : UInt64} {patch window window' : Bytes}

/-! ## Section 1: What is read afterwards -/

/-- Something is read exactly if some region covers the whole read. -/
theorem Orderly.exists_read_iff (h : image.Orderly) :
    (∃ window, image.read position size = some window) ↔
      ∃ r ∈ image.regions, r.base.toNat ≤ position.toNat ∧
        position.toNat + size.toNat ≤ r.stop := by
  unfold Region.stop
  constructor
  · rintro ⟨window, hread⟩
    obtain ⟨r, hr, hle, hwindow⟩ := h.read_eq_some_iff.1 hread
    have hfits := (Bytes.window?_eq_some_iff.1 hwindow).1
    exact ⟨r, hr, hle, by omega⟩
  · rintro ⟨r, hr, hle, hcovers⟩
    refine ⟨_, h.read_eq_some_iff.2 ⟨r, hr, hle, Bytes.window?_eq_some_iff.2 ⟨?_, rfl⟩⟩⟩
    omega

/-- The image `image'` is `image` with `patch` written over it from `address` on: the same reads
succeed, and of the bytes that they give, those at the addresses of the patch are the patch's. -/
structure Overlays (image : Image) (address : UInt64) (patch : Bytes) (image' : Image) : Prop where
  mode : image'.mode = image.mode
  root : image'.root = image.root
  count : image'.regions.length = image.regions.length
  readable : ∀ {position size}, (∃ window, image'.read position size = some window) ↔
    ∃ window, image.read position size = some window
  byte : ∀ {position size window window'}, image.read position size = some window →
    image'.read position size = some window' → ∀ i < size.toNat, window'[i]? =
      if address.toNat ≤ position.toNat + i ∧
          position.toNat + i < address.toNat + patch.length then
        patch[position.toNat + i - address.toNat]?
      else window[i]?

/-- Regions stay where they are and as long as they are, so that they cover the same reads. -/
theorem Orderly.overlays_of_write? (h : image.Orderly)
    (hwrite : image.write? address patch = some image') : Overlays image address patch image' := by
  obtain ⟨change, hregions, hkeeps⟩ := h.exists_change hwrite
  obtain ⟨hmode, hroot⟩ := mode_and_root_of_write? hwrite
  refine ⟨hmode, hroot, by rw [hregions, List.length_map], ?_, ?_⟩
  · intro position size
    rw [h.exists_read_iff, (h.write? hwrite).exists_read_iff, hregions]
    simp only [List.mem_map, exists_exists_and_eq_and]
    refine exists_congr fun s => and_congr_right fun hs => ?_
    obtain ⟨hbase, hstop⟩ := hkeeps s hs
    rw [hbase, hstop]
  · intro position size window window' hread hread' i hi
    obtain ⟨written, hwritten, hbytes⟩ := h.read_write? hwrite hread
    -- a read gives one thing only
    have heq : written = window' := Option.some.inj (hwritten.symm.trans hread')
    rw [← heq]
    apply hbytes
    rw [length_of_read hread]
    exact hi

/-! ## Section 2: Any write -/

/-- Bytes whose place in the nearest region ends at a 64-bit number are written exactly if as many
bytes can be read at their address.  If they are not, the image stays as it was.  If they are, the
same reads succeed as before and give the bytes they gave, except for those at the addresses that are
written over; mode, root and the number of regions stay the same. -/
theorem write_overlays (h : image.Reachable)
    (hfits : ∀ r, image.regionAtOrBelow? address = some r →
      address.toNat - r.base.toNat + patch.length < UInt64.size) :
    ((∃ image', image.write? address patch = some image') ↔
      ∃ window, image.read address (UInt64.ofNat patch.length) = some window) ∧
    (image.write? address patch = none → image.apply (.write address patch) = image) ∧
    ∀ image', image.write? address patch = some image' →
      image.apply (.write address patch) = image' ∧ Overlays image address patch image' := by
  refine ⟨?_, ?_, ?_⟩
  · cases hr : image.regionAtOrBelow? address with
    | none => simp [read, write?, hr]
    | some r =>
      -- so the length is not cut off when it is taken as the size of a read
      have hlength : patch.length < UInt64.size := by
        have hend := hfits r hr
        omega
      apply exists_write?_iff
      rw [UInt64.toNat_ofNat_of_lt' hlength]
  · exact apply_write_of_none
  · intro image' hwrite
    exact ⟨apply_write_of_some hwrite, h.orderly.overlays_of_write? hwrite⟩

/-- Two regions, the second of which starts where the first one ends. -/
def adjoining : Image :=
  ⟨.amode31, [⟨0x1000, [1, 2, 3, 4]⟩, ⟨0x1004, [5, 6]⟩], none⟩

/-- Bytes are written up to the end of a region but not across it, though all of them are mapped. -/
theorem write_overlays_adjoining :
    adjoining.Reachable ∧ adjoining.write? 0x1002 [9, 9, 9] = none ∧
      ∃ image', adjoining.write? 0x1002 [9, 8] = some image' ∧
        ∃ window, image'.read 0x1001 3 = some window ∧ window[0]? = some 2 ∧
          window[1]? = some 9 := by
  have hreachable : adjoining.Reachable :=
    ⟨.amode31, [.map 0x1004 [5, 6], .map 0x1000 [1, 2, 3, 4]], by decide +kernel⟩
  have hfits : ∀ r, adjoining.regionAtOrBelow? 0x1002 = some r →
      (0x1002 : UInt64).toNat - r.base.toNat + ([9, 8] : Bytes).length < UInt64.size := by
    intro r hr
    have hfind : adjoining.regionAtOrBelow? 0x1002 = some ⟨0x1000, [1, 2, 3, 4]⟩ := by decide
    rw [hfind] at hr
    cases hr
    decide
  obtain ⟨hwithin, -, hoverlays⟩ := write_overlays hreachable hfits
  obtain ⟨image', hwrite⟩ := hwithin.2 ⟨[3, 4], by decide⟩
  obtain ⟨-, hoverlays⟩ := hoverlays image' hwrite
  -- the bytes at 0x1001, of which the first is not written over
  have hread : adjoining.read 0x1001 3 = some [2, 3, 4] := by decide
  obtain ⟨window, hread'⟩ := hoverlays.readable.2 ⟨_, hread⟩
  exact ⟨hreachable, by decide, image', hwrite, window, hread',
    hoverlays.byte hread hread' 0 (by decide), hoverlays.byte hread hread' 1 (by decide)⟩

end Image

end IplReport
