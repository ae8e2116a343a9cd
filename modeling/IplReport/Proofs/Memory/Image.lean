import IplReport.Memory.Image
import IplReport.Proofs.Memory.Bytes
import Mathlib.Data.List.Pairwise

/-!
# Memory images that operations lead to

Mapping compares new bytes with two neighbours only, and a read looks at one region only.  Both
are enough because of what holds of every image that can be reached: regions are in ascending
order, each ends before the next one starts, and all of them end below the limit.

Main statements:
- `Orderly.obstructs_eq_false_iff`: the two neighbours are in the way exactly if some region is;
- `Reachable.orderly`: the invariant holds after any sequence of operations;
- `read_eq_some_iff`: a read succeeds exactly if some region, searched for among all of them,
  covers it;
- `read_of_read`: what is read inside a range is a window of what is read of the range;
- `run_invariant`: the invariant and what reads give, said of the regions themselves.
-/

namespace IplReport

/-! ## Section 1: The invariant -/

namespace Region

variable {r s : Region}

/-- A region starts and ends before another one starts. -/
def Below (r s : Region) : Prop :=
  r.base.toNat < s.base.toNat ∧ r.stop ≤ s.base.toNat

/-- One of two regions starts in a byte of the other.  An empty region has no byte for another one
to start in, but may itself start inside the other. -/
def Collides (r s : Region) : Prop :=
  (r.base.toNat ≤ s.base.toNat ∧ s.base.toNat < r.stop) ∨
    (s.base.toNat ≤ r.base.toNat ∧ r.base.toNat < s.stop)

theorem Collides.symm (h : r.Collides s) : s.Collides r :=
  Or.symm h

/-- Regions that do not collide each end before the other one starts, if that starts no lower. -/
theorem not_collides_iff : ¬r.Collides s ↔
    (s.base.toNat ≤ r.base.toNat → s.stop ≤ r.base.toNat) ∧
      (r.base.toNat ≤ s.base.toNat → r.stop ≤ s.base.toNat) := by
  unfold Collides
  omega

theorem Below.not_collides (h : r.Below s) : ¬r.Collides s := by
  obtain ⟨hbase, hstop⟩ := h
  rw [not_collides_iff]
  omega

/-- Of two regions that do not collide, the one with the lower base is below the other. -/
theorem below_of_not_collides (h : ¬r.Collides s) (hbase : r.base.toNat < s.base.toNat) :
    r.Below s :=
  ⟨hbase, (not_collides_iff.1 h).2 (Nat.le_of_lt hbase)⟩

/-- Two regions at one base do not collide only if they are both empty, and so the same. -/
theorem eq_of_not_collides (h : ¬r.Collides s) (hbase : r.base = s.base) : r = s := by
  obtain ⟨hs, hr⟩ := not_collides_iff.1 h
  rw [hbase] at hs hr
  simp only [stop, hbase, Nat.le_refl, true_implies] at hs hr
  have hsempty : s.bytes = [] := List.length_eq_zero_iff.1 (by omega)
  have hrempty : r.bytes = [] := List.length_eq_zero_iff.1 (by omega)
  cases r
  cases s
  simp_all

end Region

namespace Image

/-- Regions are in ascending order and apart, and none of them ends past the limit. -/
structure Orderly (image : Image) : Prop where
  ordered : image.regions.Pairwise Region.Below
  bounded : ∀ r ∈ image.regions, r.stop ≤ image.mode.limit.toNat

variable {image image' : Image} {r s : Region} {address base size : UInt64} {bytes patch : Bytes}

theorem orderly_empty (mode : AddressingMode) : (empty mode).Orderly :=
  ⟨List.Pairwise.nil, by simp [empty]⟩

/-- Of two regions, one lies below the other or they are the same. -/
theorem Orderly.below_or_eq (h : image.Orderly) (hr : r ∈ image.regions)
    (hs : s ∈ image.regions) : r.Below s ∨ r = s ∨ s.Below r := by
  by_cases heq : r = s
  · exact Or.inr (Or.inl heq)
  · -- made symmetric, the order relates any two regions that differ
    have hpairs : image.regions.Pairwise fun r s => r.Below s ∨ s.Below r :=
      h.ordered.imp fun hbelow => Or.inl hbelow
    have hsymm : Std.Symm fun r s : Region => r.Below s ∨ s.Below r := ⟨fun _ _ h => h.symm⟩
    rcases hpairs.forall hr hs heq with hbelow | habove
    · exact Or.inl hbelow
    · exact Or.inr (Or.inr habove)

theorem Orderly.eq_of_base (h : image.Orderly) (hr : r ∈ image.regions) (hs : s ∈ image.regions)
    (hbase : r.base.toNat = s.base.toNat) : r = s := by
  rcases h.below_or_eq hr hs with hbelow | heq | habove
  · exact absurd hbelow.1 (by omega)
  · exact heq
  · exact absurd habove.1 (by omega)

theorem Orderly.stop_le (h : image.Orderly) (hr : r ∈ image.regions) (hs : s ∈ image.regions)
    (hbase : r.base.toNat < s.base.toNat) : r.stop ≤ s.base.toNat := by
  rcases h.below_or_eq hr hs with hbelow | heq | habove
  · exact hbelow.2
  · exact absurd hbase (by rw [heq]; exact Nat.lt_irrefl _)
  · exact absurd habove.1 (Nat.lt_asymm hbase)

/-! ## Section 2: The neighbours of an address -/

theorem regionAtOrBelow?_eq_none_iff :
    image.regionAtOrBelow? address = none ↔
      ∀ s ∈ image.regions, address.toNat < s.base.toNat := by
  simp [regionAtOrBelow?, UInt64.lt_iff_toNat_lt]

theorem regionAtOrAbove?_eq_none_iff :
    image.regionAtOrAbove? address = none ↔
      ∀ s ∈ image.regions, s.base.toNat < address.toNat := by
  simp [regionAtOrAbove?, UInt64.lt_iff_toNat_lt]

/-- The region that is found at or below an address has the greatest base of all those there. -/
theorem Orderly.regionAtOrBelow?_spec (h : image.Orderly)
    (hr : image.regionAtOrBelow? address = some r) :
    r ∈ image.regions ∧ r.base.toNat ≤ address.toNat ∧
      ∀ s ∈ image.regions, s.base.toNat ≤ address.toNat → s.base.toNat ≤ r.base.toNat := by
  obtain ⟨hle, later, sooner, hsplit, hlater⟩ := List.find?_eq_some_iff_append.1 hr
  -- regions are searched from the highest, so those that were passed over start too high
  have hregions : image.regions = sooner.reverse ++ r :: later.reverse := by
    rw [← List.reverse_reverse image.regions, hsplit]
    simp
  have hordered := h.ordered
  rw [hregions, List.pairwise_append] at hordered
  refine ⟨by rw [hregions]; simp, UInt64.le_iff_toNat_le.1 (of_decide_eq_true hle), ?_⟩
  intro s hs hsle
  rw [hregions, List.mem_append, List.mem_cons] at hs
  rcases hs with hsooner | rfl | hslater
  · exact Nat.le_of_lt (hordered.2.2 s hsooner r List.mem_cons_self).1
  · exact Nat.le_refl _
  · have hbeyond := hlater s (List.mem_reverse.1 hslater)
    simp [UInt64.lt_iff_toNat_lt] at hbeyond
    omega

/-- The region that is found at or above an address has the least base of all those there. -/
theorem Orderly.regionAtOrAbove?_spec (h : image.Orderly)
    (hr : image.regionAtOrAbove? address = some r) :
    r ∈ image.regions ∧ address.toNat ≤ r.base.toNat ∧
      ∀ s ∈ image.regions, address.toNat ≤ s.base.toNat → r.base.toNat ≤ s.base.toNat := by
  obtain ⟨hle, sooner, later, hsplit, hsooner⟩ := List.find?_eq_some_iff_append.1 hr
  have hordered := h.ordered
  rw [hsplit, List.pairwise_append, List.pairwise_cons] at hordered
  refine ⟨by rw [hsplit]; simp, UInt64.le_iff_toNat_le.1 (of_decide_eq_true hle), ?_⟩
  intro s hs hsle
  rw [hsplit, List.mem_append, List.mem_cons] at hs
  -- regions before it start below the address, and those after it start further up
  rcases hs with hs | rfl | hs
  · have hbelow := hsooner s hs
    simp [UInt64.lt_iff_toNat_lt] at hbelow
    omega
  · exact Nat.le_refl _
  · exact Nat.le_of_lt (hordered.2.1.1 s hs).1

/-- Looking at the two neighbours finds out whether any region at all is in the way. -/
theorem Orderly.obstructs_eq_false_iff (h : image.Orderly) :
    image.obstructs base bytes.length = false ↔
      ∀ s ∈ image.regions, ¬Region.Collides ⟨base, bytes⟩ s := by
  simp only [obstructs, Bool.or_eq_false_iff, Option.any_eq_false, decide_eq_false_iff_not,
    Nat.not_lt, Region.not_collides_iff]
  constructor
  · rintro ⟨hbelow, habove⟩ s hs
    constructor
    · -- a region further down ends before the nearest one starts
      intro hle
      cases hfind : image.regionAtOrBelow? base with
      | none =>
        have hnone := regionAtOrBelow?_eq_none_iff.1 hfind s hs
        omega
      | some r =>
        obtain ⟨hr, hrle, hgreatest⟩ := h.regionAtOrBelow?_spec hfind
        rcases Nat.lt_or_eq_of_le (hgreatest s hs hle) with hlt | heq
        · exact Nat.le_trans (h.stop_le hs hr hlt) hrle
        · rw [h.eq_of_base hs hr heq]
          exact hbelow r hfind
    · intro hle
      cases hfind : image.regionAtOrAbove? base with
      | none =>
        have hnone := regionAtOrAbove?_eq_none_iff.1 hfind s hs
        omega
      | some r =>
        obtain ⟨-, -, hleast⟩ := h.regionAtOrAbove?_spec hfind
        exact Nat.le_trans (habove r hfind) (hleast s hs hle)
  · intro hfree
    constructor
    · intro r hr
      obtain ⟨hmem, hle, -⟩ := h.regionAtOrBelow?_spec hr
      exact (hfree r hmem).1 hle
    · intro r hr
      obtain ⟨hmem, hle, -⟩ := h.regionAtOrAbove?_spec hr
      exact (hfree r hmem).2 hle

/-! ## Section 3: Operations -/

theorem mem_of_mem_insertRegion {regions : List Region} (h : s ∈ insertRegion r regions) :
    s = r ∨ s ∈ regions := by
  induction regions with
  | nil => exact Or.inl (by simpa [insertRegion] using h)
  | cons t rest ih =>
    rw [insertRegion] at h
    split_ifs at h
    · rcases List.mem_cons.1 h with rfl | h
      · exact Or.inr List.mem_cons_self
      · exact (ih h).imp_right (List.mem_cons_of_mem _)
    · exact (List.mem_cons.1 h).imp_right (List.mem_cons_of_mem _)
    · exact List.mem_cons.1 h

/-- A region that no other is in the way of can be put in its place. -/
theorem pairwise_insertRegion {regions : List Region} (h : regions.Pairwise Region.Below)
    (hfree : ∀ s ∈ regions, ¬r.Collides s) :
    (insertRegion r regions).Pairwise Region.Below := by
  induction regions with
  | nil => exact List.pairwise_singleton _ _
  | cons s rest ih =>
    obtain ⟨hfirst, hrest⟩ := List.pairwise_cons.1 h
    obtain ⟨hclear, hfree'⟩ := List.forall_mem_cons.1 hfree
    rw [insertRegion]
    -- before the place of the new region, at it, and after it
    split_ifs with hlt heq
    · have hbase : s.base.toNat < r.base.toNat := UInt64.lt_iff_toNat_lt.1 hlt
      refine List.pairwise_cons.2 ⟨fun t ht => ?_, ih hrest hfree'⟩
      rcases mem_of_mem_insertRegion ht with rfl | ht
      · exact Region.below_of_not_collides (fun hcollides => hclear hcollides.symm) hbase
      · exact hfirst t ht
    · refine List.pairwise_cons.2 ⟨fun t ht => ?_, hrest⟩
      have hbase : r.base.toNat < t.base.toNat := by
        rw [← heq]
        exact (hfirst t ht).1
      exact Region.below_of_not_collides (hfree' t ht) hbase
    · have hbase : r.base.toNat < s.base.toNat := by
        rw [UInt64.lt_iff_toNat_lt] at hlt
        rw [← UInt64.toNat_inj] at heq
        omega
      refine List.pairwise_cons.2 ⟨fun t ht => ?_, h⟩
      rcases List.mem_cons.1 ht with rfl | ht
      · exact Region.below_of_not_collides hclear hbase
      · exact Region.below_of_not_collides (hfree' t ht) (Nat.lt_trans hbase (hfirst t ht).1)

theorem map_eq_ok_iff :
    image.map base bytes = .ok image' ↔
      base.toNat + bytes.length ≤ image.mode.limit.toNat ∧
      image.obstructs base bytes.length = false ∧
      image' = { image with regions := insertRegion ⟨base, bytes⟩ image.regions } := by
  rw [map]
  split_ifs with hlimit hobstructs
  · exact iff_of_false (by simp) fun h => absurd h.1 (Nat.not_le.2 hlimit)
  · exact iff_of_false (by simp) fun h => by simp [h.2.1] at hobstructs
  · simp only [Except.ok.injEq, Nat.not_lt.1 hlimit, Bool.not_eq_true _ ▸ hobstructs, true_and]
    exact eq_comm

/-- Mapping changes neither the mode nor the root. -/
theorem mode_and_root_of_map (hmap : image.map base bytes = .ok image') :
    image'.mode = image.mode ∧ image'.root = image.root := by
  obtain ⟨-, -, rfl⟩ := map_eq_ok_iff.1 hmap
  exact ⟨rfl, rfl⟩

/-- Mapping keeps regions in order and apart. -/
theorem Orderly.map (h : image.Orderly) (hmap : image.map base bytes = .ok image') :
    image'.Orderly := by
  obtain ⟨hlimit, hobstructs, rfl⟩ := map_eq_ok_iff.1 hmap
  refine ⟨pairwise_insertRegion h.ordered (h.obstructs_eq_false_iff.1 hobstructs), ?_⟩
  intro s hs
  rcases mem_of_mem_insertRegion hs with rfl | hs
  · exact hlimit
  · exact h.bounded s hs

/-- The region with `patch` written over its bytes from `address` on. -/
def patched (r : Region) (address : UInt64) (patch : Bytes) : Region :=
  { r with bytes := r.bytes.overlay (address.toNat - r.base.toNat) patch }

theorem write?_eq_some_iff :
    image.write? address patch = some image' ↔
      ∃ r, image.regionAtOrBelow? address = some r ∧
        address.toNat - r.base.toNat + patch.length ≤ r.bytes.length ∧
        image' = { image with regions := image.regions.map fun s =>
          if s.base = r.base then patched r address patch else s } := by
  rw [write?]
  cases image.regionAtOrBelow? address with
  | none => exact iff_of_false (by simp) (by simp)
  | some r =>
    rw [Option.bind_eq_bind, Option.bind_some]
    dsimp only
    split_ifs with hfits
    · simp only [Option.pure_def, Option.some.injEq, exists_eq_left', hfits, true_and]
      exact eq_comm
    · exact iff_of_false (by simp) (by simp [hfits])

/-- Writing changes neither the mode nor the root. -/
theorem mode_and_root_of_write? (hwrite : image.write? address patch = some image') :
    image'.mode = image.mode ∧ image'.root = image.root := by
  obtain ⟨r, -, -, rfl⟩ := write?_eq_some_iff.1 hwrite
  exact ⟨rfl, rfl⟩

/-- Writing leaves every region at its place and as long as it was, also the one that is written
over. -/
theorem Orderly.exists_change (h : image.Orderly)
    (hwrite : image.write? address patch = some image') :
    ∃ change : Region → Region, image'.regions = image.regions.map change ∧
      ∀ s ∈ image.regions, (change s).base = s.base ∧ (change s).stop = s.stop := by
  obtain ⟨r, hr, hfits, rfl⟩ := write?_eq_some_iff.1 hwrite
  have hmem := (h.regionAtOrBelow?_spec hr).1
  -- a patch that fits does not make its region longer
  have hstop : (patched r address patch).stop = r.stop := by
    simp only [Region.stop, patched, Bytes.length_overlay hfits]
  refine ⟨_, rfl, fun s hs => ?_⟩
  split_ifs with hbase
  · rw [h.eq_of_base hs hmem (UInt64.toNat_inj.2 hbase)]
    exact ⟨rfl, hstop⟩
  · exact ⟨rfl, rfl⟩

/-- Writing keeps regions in order and apart: bases and lengths stay as they are. -/
theorem Orderly.write? (h : image.Orderly) (hwrite : image.write? address patch = some image') :
    image'.Orderly := by
  obtain ⟨change, hregions, hkeeps⟩ := h.exists_change hwrite
  obtain ⟨hmode, -⟩ := mode_and_root_of_write? hwrite
  constructor
  · rw [hregions]
    refine List.pairwise_map.2 (h.ordered.imp_of_mem fun {s t} hs ht hbelow => ?_)
    obtain ⟨hsbase, hsstop⟩ := hkeeps s hs
    obtain ⟨htbase, -⟩ := hkeeps t ht
    rw [Region.Below, hsbase, hsstop, htbase]
    exact hbelow
  · rw [hregions, hmode]
    intro t ht
    obtain ⟨s, hs, rfl⟩ := List.mem_map.1 ht
    rw [(hkeeps s hs).2]
    exact h.bounded s hs

inductive Operation where
  /-- Maps bytes at an address. -/
  | map (base : UInt64) (bytes : Bytes)
  /-- Writes over mapped bytes. -/
  | write (address : UInt64) (patch : Bytes)
  /-- Sets where the chain of control blocks starts. -/
  | setRoot (address : UInt64)

/-- The image after an operation; one that fails leaves the image as it was. -/
def apply (image : Image) : Operation → Image
  | .map base bytes => (image.map base bytes).toOption.getD image
  | .write address patch => (image.write? address patch).getD image
  | .setRoot address => image.withRoot address

theorem apply_map_of_ok (hmap : image.map base bytes = .ok image') :
    image.apply (.map base bytes) = image' := by
  simp [apply, hmap, Except.toOption]

theorem apply_map_of_error {fault : StorageError} (hmap : image.map base bytes = .error fault) :
    image.apply (.map base bytes) = image := by
  simp [apply, hmap, Except.toOption]

theorem apply_write_of_some (hwrite : image.write? address patch = some image') :
    image.apply (.write address patch) = image' := by
  simp [apply, hwrite]

theorem apply_write_of_none (hwrite : image.write? address patch = none) :
    image.apply (.write address patch) = image := by
  simp [apply, hwrite]

/-- An image that operations lead to, starting with nothing mapped and no root. -/
def Reachable (image : Image) : Prop :=
  ∃ (mode : AddressingMode) (operations : List Operation),
    operations.foldl apply (empty mode) = image

/-- An operation keeps regions in order and apart, whether it succeeds or fails. -/
theorem Orderly.apply (h : image.Orderly) (operation : Operation) :
    (image.apply operation).Orderly := by
  -- only mapping and writing touch regions, and a failure touches nothing
  cases operation with
  | map base bytes =>
    cases hmap : image.map base bytes with
    | error fault =>
      rw [apply_map_of_error hmap]
      exact h
    | ok image' =>
      rw [apply_map_of_ok hmap]
      exact h.map hmap
  | write address patch =>
    cases hwrite : image.write? address patch with
    | none =>
      rw [apply_write_of_none hwrite]
      exact h
    | some image' =>
      rw [apply_write_of_some hwrite]
      exact h.write? hwrite
  | setRoot address => exact ⟨h.ordered, h.bounded⟩

/-- A run of operations keeps regions in order and apart. -/
theorem Orderly.run (h : image.Orderly) (operations : List Operation) :
    (operations.foldl Image.apply image).Orderly := by
  -- the invariant is that of the image so far, so the image is any
  induction operations generalizing image with
  | nil => exact h
  | cons operation rest ih => exact ih (h.apply operation)

/-- In every image that can be reached, regions are in order and apart. -/
theorem Reachable.orderly (h : image.Reachable) : image.Orderly := by
  obtain ⟨mode, operations, rfl⟩ := h
  exact (orderly_empty mode).run operations

/-! ## Section 4: Reads -/

/-- A read gives the bytes that some region, of all that are there, has in its place. -/
theorem Orderly.read_eq_some_iff (h : image.Orderly) :
    image.read address size = some bytes ↔
      ∃ r ∈ image.regions, r.base.toNat ≤ address.toNat ∧
        r.bytes.window? (address.toNat - r.base.toNat) size.toNat = some bytes := by
  rw [read, Option.bind_eq_bind, Option.bind_eq_some_iff]
  constructor
  · rintro ⟨r, hr, hwindow⟩
    obtain ⟨hmem, hle, -⟩ := h.regionAtOrBelow?_spec hr
    exact ⟨r, hmem, hle, hwindow⟩
  · rintro ⟨r, hmem, hle, hwindow⟩
    cases hfind : image.regionAtOrBelow? address with
    | none =>
      have hnone := regionAtOrBelow?_eq_none_iff.1 hfind r hmem
      omega
    | some s =>
      refine ⟨s, rfl, ?_⟩
      obtain ⟨hs, hsle, hgreatest⟩ := h.regionAtOrBelow?_spec hfind
      rcases Nat.lt_or_eq_of_le (hgreatest r hmem hle) with hlt | heq
      · -- another region starts where `r` ends, so nothing is read, of whichever of the two
        have hstop := h.stop_le hmem hs hlt
        obtain ⟨hfits, hbytes⟩ := Bytes.window?_eq_some_iff.1 hwindow
        rw [Region.stop] at hstop
        have hsize : size.toNat = 0 := by omega
        have hstart : address.toNat - s.base.toNat = 0 := by omega
        rw [hsize, List.take_zero] at hbytes
        rw [hsize, hstart, ← hbytes]
        simp [Bytes.window?]
      · rw [← h.eq_of_base hmem hs heq]
        exact hwindow

theorem length_of_read (hread : image.read address size = some bytes) :
    bytes.length = size.toNat := by
  rw [read, Option.bind_eq_bind, Option.bind_eq_some_iff] at hread
  obtain ⟨r, -, hwindow⟩ := hread
  exact Bytes.length_of_window? hwindow

/-- What can be read ends at or below the limit. -/
theorem Orderly.le_limit_of_read (h : image.Orderly)
    (hread : image.read address size = some bytes) :
    address.toNat + size.toNat ≤ image.mode.limit.toNat := by
  obtain ⟨r, hr, hle, hwindow⟩ := h.read_eq_some_iff.1 hread
  have hfits := (Bytes.window?_eq_some_iff.1 hwindow).1
  have hbound := h.bounded r hr
  rw [Region.stop] at hbound
  omega

/-- What is read inside a range that can be read is a window of what is read of the range. -/
theorem Orderly.read_of_read (h : image.Orderly) (hread : image.read address size = some bytes)
    {position width : UInt64} {offset : Nat} (hposition : position.toNat = address.toNat + offset)
    (hfits : offset + width.toNat ≤ size.toNat) :
    image.read position width = bytes.window? offset width.toNat := by
  obtain ⟨r, hr, hle, hwindow⟩ := h.read_eq_some_iff.1 hread
  -- the region that gave the whole range gives every part of it
  have hwhole : bytes.window? offset width.toNat = some ((bytes.drop offset).take width.toNat) := by
    rw [Bytes.window?, if_pos (by rw [length_of_read hread]; exact hfits)]
  have hplace : address.toNat - r.base.toNat + offset = position.toNat - r.base.toNat := by
    omega
  rw [hwhole, h.read_eq_some_iff]
  refine ⟨r, hr, by omega, ?_⟩
  rw [← hwhole, ← hplace]
  exact Bytes.window?_of_window? hwindow hfits

/-! ## Section 5: Runs of operations -/

theorem apply_mode (image : Image) (operation : Operation) :
    (image.apply operation).mode = image.mode := by
  cases operation with
  | map base bytes =>
    cases hmap : image.map base bytes with
    | error fault => rw [apply_map_of_error hmap]
    | ok image' => rw [apply_map_of_ok hmap, (mode_and_root_of_map hmap).1]
  | write address patch =>
    cases hwrite : image.write? address patch with
    | none => rw [apply_write_of_none hwrite]
    | some image' => rw [apply_write_of_some hwrite, (mode_and_root_of_write? hwrite).1]
  | setRoot address => rfl

theorem run_mode (image : Image) (operations : List Operation) :
    (operations.foldl Image.apply image).mode = image.mode := by
  induction operations generalizing image with
  | nil => rfl
  | cons operation rest ih => exact (ih _).trans (apply_mode image operation)

/-- The region that is found is the one with the greatest base of all those at or below. -/
theorem Orderly.regionAtOrBelow?_eq_some_iff (h : image.Orderly) :
    image.regionAtOrBelow? address = some r ↔
      r ∈ image.regions ∧ r.base.toNat ≤ address.toNat ∧
        ∀ s ∈ image.regions, s.base.toNat ≤ address.toNat → s.base.toNat ≤ r.base.toNat := by
  constructor
  · exact h.regionAtOrBelow?_spec
  · rintro ⟨hr, hle, hgreatest⟩
    cases hfind : image.regionAtOrBelow? address with
    | none =>
      have hnone := regionAtOrBelow?_eq_none_iff.1 hfind r hr
      omega
    | some s =>
      -- two regions with the greatest base have the same base
      obtain ⟨hs, hsle, hsgreatest⟩ := h.regionAtOrBelow?_spec hfind
      have hbase := Nat.le_antisymm (hgreatest s hs hsle) (hsgreatest r hr hle)
      rw [h.eq_of_base hs hr hbase]

/-- What holds after any sequence of operations, in any mode.  Regions are in ascending order, each
ends at or below the base of any that starts later, and all of them end at or below the limit of
the mode, which is an address.  A read looks at the region of the greatest base at or below its
address, and what it gives is what any region that covers it, searched for among all of them, has
there. -/
theorem run_invariant {mode : AddressingMode} {operations : List Operation}
    (h : operations.foldl Image.apply (empty mode) = image) :
    image.mode = mode ∧
    image.regions.Pairwise (fun r s => r.base.toNat < s.base.toNat) ∧
    (∀ r ∈ image.regions, ∀ s ∈ image.regions, r.base.toNat < s.base.toNat →
      r.base.toNat + r.bytes.length ≤ s.base.toNat) ∧
    (∀ r ∈ image.regions, r.base.toNat + r.bytes.length ≤ mode.limit.toNat ∧
      r.base.toNat + r.bytes.length < UInt64.size) ∧
    (∀ address r, image.regionAtOrBelow? address = some r ↔
      r ∈ image.regions ∧ r.base.toNat ≤ address.toNat ∧
        ∀ s ∈ image.regions, s.base.toNat ≤ address.toNat → s.base.toNat ≤ r.base.toNat) ∧
    ∀ address size bytes, image.read address size = some bytes ↔
      ∃ r ∈ image.regions, r.base.toNat ≤ address.toNat ∧
        address.toNat + size.toNat ≤ r.base.toNat + r.bytes.length ∧
        (r.bytes.drop (address.toNat - r.base.toNat)).take size.toNat = bytes := by
  have horderly : image.Orderly := by
    rw [← h]
    exact (orderly_empty mode).run operations
  have hmode : image.mode = mode := by
    rw [← h]
    exact run_mode (empty mode) operations
  refine ⟨hmode, horderly.ordered.imp fun hbelow => hbelow.1, ?_, ?_, ?_, ?_⟩
  · intro r hr s hs hbase
    exact horderly.stop_le hr hs hbase
  · intro r hr
    have hbound := horderly.bounded r hr
    have hlimit := image.mode.limit.toNat_lt_size
    rw [hmode] at hbound hlimit
    exact ⟨hbound, Nat.lt_of_le_of_lt hbound hlimit⟩
  · intro address r
    exact horderly.regionAtOrBelow?_eq_some_iff
  · intro address size bytes
    rw [horderly.read_eq_some_iff]
    refine exists_congr fun r => and_congr_right fun _ => and_congr_right fun hle => ?_
    -- a window is counted from the base of its region
    rw [Bytes.window?_eq_some_iff]
    refine and_congr_left fun _ => ?_
    omega

/-- Maps at a base that is taken and inside a region, a write over the end of a region, and bytes
up to the highest address. -/
def crowded : List Operation :=
  [.map 0x10 [1, 2, 3, 4], .map 0x14 [], .map 0x14 [5, 6], .map 0x12 [], .map 0x14 [],
    .write 0x12 [9, 9], .write 0x13 [7, 7], .map 0xfffffe [8, 8], .map 0xffffff [0], .setRoot 4]

/-- In the image that `crowded` leads to, a read at the end of the first region finds the empty
region that starts there, and gives what the first region has. -/
theorem run_invariant_crowded :
    ∃ image : Image, crowded.foldl Image.apply (empty .amode24) = image ∧
      image.regions = [⟨0x10, [1, 2, 9, 9]⟩, ⟨0x14, []⟩, ⟨0xfffffe, [8, 8]⟩] ∧
      image.regionAtOrBelow? 0x14 = some ⟨0x14, []⟩ ∧ image.read 0x14 0 = some [] ∧
      image.read 0x12 2 = some [9, 9] ∧ image.read 0x13 2 = none := by
  have hrun : crowded.foldl Image.apply (empty .amode24) =
      ⟨.amode24, [⟨0x10, [1, 2, 9, 9]⟩, ⟨0x14, []⟩, ⟨0xfffffe, [8, 8]⟩], some 4⟩ := by
    decide +kernel
  obtain ⟨-, -, -, -, hfind, hread⟩ := run_invariant hrun
  refine ⟨_, hrun, rfl, (hfind _ _).2 (by decide), (hread _ _ _).2 ?_, (hread _ _ _).2 ?_, ?_⟩
  · exact ⟨⟨0x10, [1, 2, 9, 9]⟩, by decide⟩
  · exact ⟨⟨0x10, [1, 2, 9, 9]⟩, by decide⟩
  -- the read lies across the end of the first region
  · rw [Option.eq_none_iff_forall_ne_some]
    intro bytes hbytes
    obtain ⟨r, hr, hle, hcovers, -⟩ := (hread _ _ _).1 hbytes
    revert r
    decide

end Image

end IplReport
