import IplReport.Proofs.Memory.Frame

/-!
# What mapping does

Mapping compares the new region with its nearest neighbours only.  In an image that operations lead
to, this is as good as comparing it with all regions, since each of them ends before the next one
starts.  The region that is mapped is then read wherever it covers a read, and nothing that could be
read before is lost to it.

Main statements:
- `Orderly.obstructs_iff`: the neighbours are in the way exactly if some region collides;
- `Orderly.gains_of_map`: what can be read after mapping;
- `map_outcome`: which of its three outcomes mapping has, and what each of them leaves behind.
-/

namespace IplReport

namespace Image

variable {image image' : Image} {r s : Region} {address base size : UInt64} {bytes window : Bytes}

/-! ## Section 1: The three outcomes -/

/-- Looking at the two neighbours is as good as looking at all regions. -/
theorem Orderly.obstructs_iff (h : image.Orderly) :
    image.obstructs base bytes.length = true ↔
      ∃ s ∈ image.regions, Region.Collides ⟨base, bytes⟩ s := by
  rw [← not_iff_not, Bool.not_eq_true, h.obstructs_eq_false_iff]
  simp only [not_exists, not_and]

/-- Mapping fails for one of two reasons, of which the limit comes first. -/
theorem Orderly.map_eq_error_iff (h : image.Orderly) {fault : StorageError} :
    image.map base bytes = .error fault ↔
      (image.mode.limit.toNat < base.toNat + bytes.length ∧
        fault = .beyondLimit base bytes.length image.mode.limit) ∨
      (base.toNat + bytes.length ≤ image.mode.limit.toNat ∧
        (∃ s ∈ image.regions, Region.Collides ⟨base, bytes⟩ s) ∧
        fault = .overlappingRegion base bytes.length) := by
  rw [← h.obstructs_iff, Image.map]
  split_ifs with hlimit hobstructs
  · simp [hlimit, Nat.not_le.2 hlimit, eq_comm (a := fault)]
  · simp [hlimit, hobstructs, Nat.le_of_not_lt hlimit, eq_comm (a := fault)]
  · simp [hlimit, hobstructs]

/-- Mapping succeeds if the new region ends below the limit and collides with no other. -/
theorem Orderly.exists_map_iff (h : image.Orderly) :
    (∃ image', image.map base bytes = .ok image') ↔
      base.toNat + bytes.length ≤ image.mode.limit.toNat ∧
        ∀ s ∈ image.regions, ¬Region.Collides ⟨base, bytes⟩ s := by
  simp only [map_eq_ok_iff, exists_and_left, exists_eq, and_true]
  rw [h.obstructs_eq_false_iff]

/-! ## Section 2: What can be read afterwards -/

/-- The image `image'` is `image` with `bytes` mapped at `base`: the region is there beside those
from before, whatever was read is still read, reads inside the region give its bytes, and there is
nothing else to read. -/
structure Gains (image : Image) (base : UInt64) (bytes : Bytes) (image' : Image) : Prop where
  mode : image'.mode = image.mode
  root : image'.root = image.root
  regions : ∀ s, s ∈ image'.regions ↔ s = ⟨base, bytes⟩ ∨ s ∈ image.regions
  kept : ∀ {address size window}, image.read address size = some window →
    image'.read address size = some window
  inside : ∀ {address size}, base.toNat ≤ address.toNat →
    address.toNat + size.toNat ≤ base.toNat + bytes.length →
    image'.read address size = some ((bytes.drop (address.toNat - base.toNat)).take size.toNat)
  nothingElse : ∀ {address size window}, image'.read address size = some window →
    image.read address size = some window ∨
      base.toNat ≤ address.toNat ∧ address.toNat + size.toNat ≤ base.toNat + bytes.length

/-- A read finds some region that covers it, and that is the new one or was there before. -/
theorem Orderly.gains_of_map (h : image.Orderly) (hmap : image.map base bytes = .ok image') :
    Gains image base bytes image' := by
  have horderly := h.map hmap
  obtain ⟨hmode, hroot⟩ := mode_and_root_of_map hmap
  refine ⟨hmode, hroot, fun s => h.mem_map_iff hmap, h.read_map hmap, ?_, ?_⟩
  -- inside the new bytes it is the new region that covers the read
  · intro address size hle hfits
    apply horderly.read_eq_some_iff.2
    refine ⟨⟨base, bytes⟩, (h.mem_map_iff hmap).2 (Or.inl rfl), hle, ?_⟩
    apply Bytes.window?_eq_some_iff.2
    refine ⟨?_, rfl⟩
    show address.toNat - base.toNat + size.toNat ≤ bytes.length
    omega
  · intro address size window hread
    obtain ⟨s, hs, hle, hwindow⟩ := horderly.read_eq_some_iff.1 hread
    rcases (h.mem_map_iff hmap).1 hs with rfl | hs
    · have hfits := (Bytes.window?_eq_some_iff.1 hwindow).1
      dsimp only at hle hfits
      right
      omega
    · left
      exact h.read_eq_some_iff.2 ⟨s, hs, hle, hwindow⟩

/-! ## Section 3: Any bytes at any base -/

/-- Mapping goes beyond the limit exactly if the new bytes end past the highest 64-bit number or
past the limit of the mode; else it overlaps exactly if some region, among all that are mapped,
starts in the new bytes or has the new base inside; else it succeeds.  A failure leaves the image as
it was.  After success every read from before gives what it gave, every read inside the new bytes
gives these, and no other read gives anything. -/
theorem map_outcome (h : image.Reachable) (base : UInt64) (bytes : Bytes) :
    (image.map base bytes = .error (.beyondLimit base bytes.length image.mode.limit) ↔
      UInt64.size ≤ base.toNat + bytes.length ∨
        image.mode.limit.toNat < base.toNat + bytes.length) ∧
    (image.map base bytes = .error (.overlappingRegion base bytes.length) ↔
      base.toNat + bytes.length ≤ image.mode.limit.toNat ∧
        ∃ r ∈ image.regions,
          base.toNat ≤ r.base.toNat ∧ r.base.toNat < base.toNat + bytes.length ∨
          r.base.toNat ≤ base.toNat ∧ base.toNat < r.base.toNat + r.bytes.length) ∧
    ((∃ image', image.map base bytes = .ok image') ↔
      base.toNat + bytes.length ≤ image.mode.limit.toNat ∧
        ¬∃ r ∈ image.regions,
          base.toNat ≤ r.base.toNat ∧ r.base.toNat < base.toNat + bytes.length ∨
          r.base.toNat ≤ base.toNat ∧ base.toNat < r.base.toNat + r.bytes.length) ∧
    (∀ fault, image.map base bytes = .error fault → image.apply (.map base bytes) = image) ∧
    ∀ image', image.map base bytes = .ok image' →
      image.apply (.map base bytes) = image' ∧ Gains image base bytes image' := by
  have horderly := h.orderly
  have hlimit := image.mode.limit.toNat_lt_size
  refine ⟨?_, ?_, ?_, ?_, ?_⟩
  · rw [horderly.map_eq_error_iff]
    simp only [reduceCtorEq, and_false, or_false, and_true]
    -- the limit is an address, so what ends past all addresses ends past the limit
    omega
  · rw [horderly.map_eq_error_iff]
    simp only [reduceCtorEq, and_false, false_or, and_true]
    rfl
  · rw [horderly.exists_map_iff]
    simp only [not_exists, not_and]
    rfl
  · intro fault hmap
    exact apply_map_of_error hmap
  · intro image' hmap
    exact ⟨apply_map_of_ok hmap, horderly.gains_of_map hmap⟩

/-- Three regions, the second of them empty and at the end of the first. -/
def spaced : Image :=
  ⟨.amode24, [⟨0x10, [1, 2, 3, 4]⟩, ⟨0x14, []⟩, ⟨0x20, [7, 8]⟩], none⟩

theorem reachable_spaced : spaced.Reachable :=
  ⟨.amode24, [.map 0x20 [7, 8], .map 0x14 [], .map 0x10 [1, 2, 3, 4]], by decide +kernel⟩

/-- The empty region is in the way of bytes at its base; bytes may end where a region starts. -/
theorem map_outcome_spaced :
    spaced.Reachable ∧
      spaced.map 0x14 [5] = .error (.overlappingRegion 0x14 1) ∧
      spaced.map 0xffffff [5, 6] = .error (.beyondLimit 0xffffff 2 0x1000000) ∧
      ∃ image', spaced.map 0x1e [5, 6] = .ok image' ∧ image'.read 0x12 2 = some [3, 4] ∧
        image'.read 0x1f 1 = some [6] := by
  obtain ⟨-, hoverlap, -⟩ := map_outcome reachable_spaced 0x14 [5]
  obtain ⟨hlimit, -⟩ := map_outcome reachable_spaced 0xffffff [5, 6]
  obtain ⟨-, -, hok, -, hgains⟩ := map_outcome reachable_spaced 0x1e [5, 6]
  obtain ⟨image', hmap⟩ := hok.2 (by decide)
  obtain ⟨-, hgains⟩ := hgains image' hmap
  exact ⟨reachable_spaced, hoverlap.2 (by decide), hlimit.2 (by decide), image', hmap,
    hgains.kept (by decide), hgains.inside (by decide) (by decide)⟩

end Image

end IplReport
