import IplReport.Proofs.Memory.Image
import Mathlib.Data.Nat.Basic
import Mathlib.Order.Interval.Set.Defs

/-!
# What operations leave alone

Mapping adds bytes and changes none.  Writing changes the bytes it writes over and no others, and
takes nothing away.  So what was read of an image can still be read after any run of operations,
with the same bytes at all addresses that are not written over.

Main statements:
- `Orderly.mem_map_iff`: the regions after mapping;
- `exists_write?_iff`: where bytes can be written;
- `Orderly.read_map` and `Orderly.read_write?`: what is read after one operation;
- `Orderly.retains_run`: what a run retains, whatever succeeds or fails on the way.
-/

namespace IplReport

namespace Image

variable {image image' image'' : Image} {r s : Region} {address base position size : UInt64}
  {bytes patch window : Bytes} {kept : Set Nat}

/-! ## Section 1: Single operations -/

theorem mem_insertRegion_of_mem {regions : List Region} (hs : s ∈ regions) :
    s ∈ insertRegion r regions ∨ s.base = r.base := by
  induction regions with
  | nil => simp at hs
  | cons t rest ih =>
    rw [insertRegion]
    split_ifs with hlt heq
    · rcases List.mem_cons.1 hs with rfl | hs
      · exact Or.inl List.mem_cons_self
      · exact (ih hs).imp_left (List.mem_cons_of_mem _)
    · -- the region `t` gives way to the new one
      rcases List.mem_cons.1 hs with rfl | hs
      · exact Or.inr heq
      · exact Or.inl (List.mem_cons_of_mem _ hs)
    · exact Or.inl (List.mem_cons_of_mem _ hs)

theorem mem_insertRegion_self (r : Region) (regions : List Region) :
    r ∈ insertRegion r regions := by
  induction regions with
  | nil => simp [insertRegion]
  | cons t rest ih =>
    rw [insertRegion]
    split_ifs
    · exact List.mem_cons_of_mem _ ih
    · exact List.mem_cons_self
    · exact List.mem_cons_self

/-- After mapping there are the new region and all those from before. -/
theorem Orderly.mem_map_iff (h : image.Orderly) (hmap : image.map base bytes = .ok image') :
    s ∈ image'.regions ↔ s = ⟨base, bytes⟩ ∨ s ∈ image.regions := by
  obtain ⟨-, hobstructs, rfl⟩ := map_eq_ok_iff.1 hmap
  constructor
  · exact mem_of_mem_insertRegion
  · rintro (rfl | hs)
    · exact mem_insertRegion_self _ _
    · rcases mem_insertRegion_of_mem hs with hmem | hbase
      · exact hmem
      · -- of two regions at one base, neither is in the way of the other only if they are the same
        have hclear := h.obstructs_eq_false_iff.1 hobstructs s hs
        rw [← Region.eq_of_not_collides hclear hbase.symm]
        exact mem_insertRegion_self _ _

/-- What was read before bytes were mapped is read afterwards. -/
theorem Orderly.read_map (h : image.Orderly) (hmap : image.map base bytes = .ok image')
    (hread : image.read position size = some window) :
    image'.read position size = some window := by
  obtain ⟨s, hs, hle, hwindow⟩ := h.read_eq_some_iff.1 hread
  apply (h.map hmap).read_eq_some_iff.2
  exact ⟨s, (h.mem_map_iff hmap).2 (Or.inr hs), hle, hwindow⟩

/-- What was read before a write is read afterwards, with the new bytes where they are written. -/
theorem Orderly.read_write? (h : image.Orderly)
    (hwrite : image.write? address patch = some image')
    (hread : image.read position size = some window) :
    ∃ window', image'.read position size = some window' ∧ ∀ i < window.length,
      window'[i]? =
        if address.toNat ≤ position.toNat + i ∧
            position.toNat + i < address.toNat + patch.length then
          patch[position.toNat + i - address.toNat]?
        else window[i]? := by
  have horderly := h.write? hwrite
  have hlength := length_of_read hread
  obtain ⟨r, hr, hfits, rfl⟩ := write?_eq_some_iff.1 hwrite
  obtain ⟨hmem, hrle, -⟩ := h.regionAtOrBelow?_spec hr
  obtain ⟨s, hs, hle, hwindow⟩ := h.read_eq_some_iff.1 hread
  have hcovers := (Bytes.window?_eq_some_iff.1 hwindow).1
  by_cases hbase : s.base = r.base
  · -- read and written in one region
    have hsame : s = r := h.eq_of_base hs hmem (UInt64.toNat_inj.2 hbase)
    subst hsame
    have hcovers' : position.toNat - s.base.toNat + size.toNat ≤
        (patched s address patch).bytes.length := by
      rw [patched, Bytes.length_overlay hfits]
      exact hcovers
    have hwindow' := Bytes.window?_eq_some_iff.2 ⟨hcovers', rfl⟩
    refine ⟨_, horderly.read_eq_some_iff.2 ⟨patched s address patch, ?_, hle, hwindow'⟩, ?_⟩
    · exact List.mem_map.2 ⟨s, hs, if_pos rfl⟩
    · intro i hi
      rw [hlength] at hi
      rw [Bytes.getElem?_window? hwindow' hi, Bytes.getElem?_window? hwindow hi, patched,
        Bytes.getElem?_overlay hfits]
      -- places in the region are counted from its base
      have hplace : position.toNat - s.base.toNat + i - (address.toNat - s.base.toNat) =
          position.toNat + i - address.toNat := by omega
      rw [hplace]
      exact if_congr (by omega) rfl rfl
  · -- regions are apart, so that none of the bytes that are read is written over
    refine ⟨window, horderly.read_eq_some_iff.2 ⟨s, ?_, hle, hwindow⟩, ?_⟩
    · exact List.mem_map.2 ⟨s, hs, if_neg hbase⟩
    · intro i hi
      rw [if_neg]
      rcases h.below_or_eq hs hmem with hbelow | heq | habove
      · have hstop := hbelow.2
        rw [Region.stop] at hstop
        omega
      · exact absurd (congrArg Region.base heq) hbase
      · have hstop := habove.2
        rw [Region.stop] at hstop
        omega

/-- A patch can be written exactly where as many bytes can be read. -/
theorem exists_write?_iff (hlength : patch.length = size.toNat) :
    (∃ image', image.write? address patch = some image') ↔
      ∃ window, image.read address size = some window := by
  -- reads and writes ask for the same: a nearest region that is long enough
  constructor
  · rintro ⟨image', hwrite⟩
    obtain ⟨r, hr, hfits, -⟩ := write?_eq_some_iff.1 hwrite
    rw [hlength] at hfits
    have hwindow := Bytes.window?_eq_some_iff.2 ⟨hfits, rfl⟩
    exact ⟨_, Option.bind_eq_some_iff.2 ⟨r, hr, hwindow⟩⟩
  · rintro ⟨window, hread⟩
    rw [read, Option.bind_eq_bind, Option.bind_eq_some_iff] at hread
    obtain ⟨r, hr, hwindow⟩ := hread
    refine ⟨_, write?_eq_some_iff.2 ⟨r, hr, ?_, rfl⟩⟩
    rw [hlength]
    exact (Bytes.window?_eq_some_iff.1 hwindow).1

/-- What was written is read. -/
theorem Orderly.read_written (h : image.Orderly) (hwrite : image.write? address patch = some image')
    (hread : image.read address size = some window) (hlength : patch.length = size.toNat) :
    image'.read address size = some patch := by
  obtain ⟨window', hread', hbytes⟩ := h.read_write? hwrite hread
  have hsame : window' = patch := by
    have hwindow := length_of_read hread
    apply List.ext_getElem (by rw [length_of_read hread', hlength])
    intro i hi hi'
    have hbyte := hbytes i (by omega)
    rw [if_pos (by omega), Nat.add_sub_cancel_left] at hbyte
    simpa [hi, hi'] using hbyte
  rw [hread', hsame]

/-! ## Section 2: Runs -/

/-- Whatever can be read of one image can be read of the other, where the bytes at the addresses
`kept` are the same. -/
structure Retains (kept : Set Nat) (image image' : Image) : Prop where
  root : image'.root = image.root
  read : ∀ {address size window}, image.read address size = some window →
    ∃ window', image'.read address size = some window' ∧
      ∀ i < window.length, address.toNat + i ∈ kept → window'[i]? = window[i]?

/-- Mapping, or a write that misses the addresses `kept`. -/
inductive Operation.Spares (kept : Set Nat) : Operation → Prop where
  | map (base : UInt64) (bytes : Bytes) : Spares kept (.map base bytes)
  | write {address : UInt64} {patch : Bytes} :
      (∀ x ∈ Set.Ico address.toNat (address.toNat + patch.length), x ∉ kept) →
      Spares kept (.write address patch)

theorem Retains.refl (kept : Set Nat) (image : Image) : Retains kept image image :=
  ⟨rfl, fun hread => ⟨_, hread, fun _ _ _ => rfl⟩⟩

theorem Retains.trans (h : Retains kept image image') (h' : Retains kept image' image'') :
    Retains kept image image'' where
  root := h'.root.trans h.root
  read := by
    intro address size window hread
    obtain ⟨window', hread', hsame⟩ := h.read hread
    obtain ⟨window'', hread'', hsame'⟩ := h'.read hread'
    refine ⟨window'', hread'', fun i hi hkept => ?_⟩
    -- a read gives as many bytes whenever it is made
    have hi' : i < window'.length := by
      rw [length_of_read hread', ← length_of_read hread]
      exact hi
    exact (hsame' i hi' hkept).trans (hsame i hi hkept)

theorem Retains.mono {kept' : Set Nat} (h : Retains kept image image') (hsub : kept' ⊆ kept) :
    Retains kept' image image' where
  root := h.root
  read := by
    intro position size window hread
    obtain ⟨window', hread', hsame⟩ := h.read hread
    exact ⟨window', hread', fun i hi hkept => hsame i hi (hsub hkept)⟩

/-- A read of kept addresses gives what it gave before. -/
theorem Retains.read_eq (h : Retains kept image image')
    (hread : image.read position size = some window)
    (hkept : Set.Ico position.toNat (position.toNat + size.toNat) ⊆ kept) :
    image'.read position size = some window := by
  obtain ⟨window', hread', hsame⟩ := h.read hread
  have hlength := length_of_read hread
  -- both reads give as many bytes as are asked for, and all of these are kept
  have hwindow : window' = window := by
    apply List.ext_getElem?
    intro i
    by_cases hi : i < window.length
    · apply hsame i hi
      apply hkept
      exact Set.mem_Ico.2 (by omega)
    · have hlength' := length_of_read hread'
      rw [List.getElem?_eq_none (by omega), List.getElem?_eq_none (by omega)]
  rw [hread', hwindow]

/-- Mapping keeps whatever is read. -/
theorem Orderly.retains_map (h : image.Orderly) (hmap : image.map base bytes = .ok image') :
    Retains kept image image' where
  root := (mode_and_root_of_map hmap).2
  read := fun hread => ⟨_, h.read_map hmap hread, fun _ _ _ => rfl⟩

/-- A write keeps what is read elsewhere. -/
theorem Orderly.retains_write? (h : image.Orderly)
    (hwrite : image.write? address patch = some image')
    (hapart : ∀ x ∈ Set.Ico address.toNat (address.toNat + patch.length), x ∉ kept) :
    Retains kept image image' where
  root := (mode_and_root_of_write? hwrite).2
  read := by
    intro position size window hread
    obtain ⟨window', hread', hbytes⟩ := h.read_write? hwrite hread
    refine ⟨window', hread', fun i hi hkept => ?_⟩
    rw [hbytes i hi, if_neg]
    exact fun hwritten => hapart _ hwritten hkept

/-- An operation that spares addresses keeps what is read there, whether it succeeds or fails. -/
theorem Orderly.retains_apply (h : image.Orderly) {operation : Operation}
    (hspares : operation.Spares kept) : Retains kept image (image.apply operation) := by
  cases hspares with
  | map base bytes =>
    cases hmap : image.map base bytes with
    | error fault =>
      rw [apply_map_of_error hmap]
      exact .refl kept image
    | ok image' =>
      rw [apply_map_of_ok hmap]
      exact h.retains_map hmap
  | @write address patch hmisses =>
    cases hwrite : image.write? address patch with
    | none =>
      rw [apply_write_of_none hwrite]
      exact .refl kept image
    | some image' =>
      rw [apply_write_of_some hwrite]
      exact h.retains_write? hwrite hmisses

/-- A run of operations that spare addresses keeps what is read there. -/
theorem Orderly.retains_run (h : image.Orderly) {operations : List Operation}
    (hspare : ∀ operation ∈ operations, operation.Spares kept) :
    Retains kept image (operations.foldl Image.apply image) := by
  -- each operation retains what the operations before it have retained
  induction operations generalizing image with
  | nil => exact .refl kept image
  | cons operation rest ih =>
    obtain ⟨hfirst, hrest⟩ := List.forall_mem_cons.1 hspare
    exact (h.retains_apply hfirst).trans (ih (h.apply operation) hrest)

end Image

end IplReport
