import IplReport.Proofs.Chain.Trail

/-!
# Storage that hands back too little

Storage may hand back fewer bytes than it was asked for.  A walk then sees a beginning of every
block, and takes nothing else for it: a link that is still there holds what it held, and one that
is cut off is missed.  So the walk goes where it went in whole storage, or it misses a link.

Main statements:
- `Path.Trail.of_clips`: a trail in clipped storage is one in whole storage;
- `Path.walk_eq_ok_of_clips` and `Path.walk_eq_error_of_clips`: what a walk comes to.
-/

namespace IplReport

/-! ## Section 1: Clipped storage -/

namespace AddressSpace

/-- Both refuse the same reads, and where they do not, `clipped` hands back a beginning of what
`whole` does. -/
structure Clips (clipped whole : AddressSpace) : Prop where
  limit : clipped.limit = whole.limit
  read : ∀ address size,
    Option.Rel (· <+: ·) (clipped.read address size) (whole.read address size)

/-- Whatever can be read ends at an address. -/
def Bounded (space : AddressSpace) : Prop :=
  ∀ address size bytes, space.read address size = some bytes →
    address.toNat + size.toNat < UInt64.size

variable {clipped whole : AddressSpace} {address size : UInt64} {part : Bytes}

theorem clips_clipped (space : AddressSpace) (count : Nat) :
    (space.clipped count).Clips space where
  limit := rfl
  read address size := by
    show Option.Rel _ ((space.read address size).map (List.take count)) (space.read address size)
    cases space.read address size with
    | none => exact .none
    | some bytes => exact .some <| List.take_prefix count bytes

theorem Clips.read_eq_some (h : clipped.Clips whole)
    (hread : clipped.read address size = some part) :
    ∃ bytes, whole.read address size = some bytes ∧ part <+: bytes := by
  have hrel := h.read address size
  rw [hread] at hrel
  cases hwhole : whole.read address size with
  | none => simp [hwhole] at hrel
  | some bytes =>
    rw [hwhole, Option.rel_some_some] at hrel
    exact ⟨bytes, rfl, hrel⟩

theorem Clips.read_eq_none (h : clipped.Clips whole)
    (hread : clipped.read address size = none) : whole.read address size = none := by
  have hrel := h.read address size
  rw [hread] at hrel
  cases hwhole : whole.read address size with
  | none => rfl
  | some bytes => simp [hwhole] at hrel

end AddressSpace

/-! ## Section 2: A beginning of a block -/

section Beginnings

variable {part bytes window : Bytes} {offset width : Nat} {link : Field} {value : UInt64}

/-- A window of a beginning is a window of the whole. -/
theorem Bytes.window?_of_beginning (h : part <+: bytes)
    (hwindow : part.window? offset width = some window) :
    bytes.window? offset width = some window := by
  obtain ⟨rest, rfl⟩ := h
  obtain ⟨hfits, rfl⟩ := window?_eq_some_iff.1 hwindow
  refine window?_eq_some_iff.2 ⟨?_, ?_⟩
  · rw [List.length_append]
    omega
  · rw [List.drop_append_of_le_length (by omega), List.take_append_of_le_length]
    rw [List.length_drop]
    omega

theorem Bytes.HoldsAddress.of_beginning (h : part.HoldsAddress link value) (hpart : part <+: bytes) :
    bytes.HoldsAddress link value := by
  obtain ⟨word, hword, hlength, hvalue⟩ := h
  exact ⟨word, window?_of_beginning hpart hword, hlength, hvalue⟩

/-- The same block at the same address, of which `here` has no more than a beginning. -/
structure LocatedBlock.Begins (here there : LocatedBlock) : Prop where
  block : here.block = there.block
  address : here.address = there.address
  bytes : here.bytes <+: there.bytes

end Beginnings

/-! ## Section 3: Walks -/

section Walks

variable {clipped whole : AddressSpace} {path : Path} {root : UInt64} {k : Nat}
  {place : Nat → LocatedBlock} {here there : LocatedBlock} {link : Field} {next : Block}
  {fault : LinkFault} {e : WalkError}

/-- A link that breaks in clipped storage breaks in whole storage too, or its bytes are missing. -/
theorem LocatedBlock.Breaks.of_clips (h : here.Breaks clipped link next fault)
    (hclips : clipped.Clips whole) (hbegins : here.Begins there) :
    there.Breaks whole link next fault ∨
      here.bytes.length < link.stop ∧
        fault = .unmapped (here.address + link.offset) link.width := by
  -- both have one limit, and a link that is read is read in full, so the checks come out the same
  cases h with
  | missing hlength => exact Or.inr ⟨hlength, rfl⟩
  | null hholds => exact Or.inl (.null (hholds.of_beginning hbegins.bytes))
  | outOfRange hholds hnonzero hrange =>
    rw [hclips.limit] at hrange ⊢
    exact Or.inl (.outOfRange (hholds.of_beginning hbegins.bytes) hnonzero hrange)
  | unmapped hholds hnonzero hrange hread =>
    rw [hclips.limit] at hrange
    exact Or.inl (.unmapped (hholds.of_beginning hbegins.bytes) hnonzero hrange
      (hclips.read_eq_none hread))

/-- A trail in clipped storage is one in whole storage, with beginnings of the blocks there. -/
theorem Path.Trail.of_clips (h : path.Trail clipped root k place) (hclips : clipped.Clips whole) :
    ∃ place', path.Trail whole root k place' ∧ ∀ i ≤ k, (place i).Begins (place' i) := by
  -- the same blocks at the same addresses, with the bytes that the whole storage has there
  have hread : ∀ i, ∃ bytes, i ≤ k →
      whole.read (place i).address (path.nthBlock i).size = some bytes ∧
        (place i).bytes <+: bytes := by
    intro i
    by_cases hi : i ≤ k
    · obtain ⟨bytes, hbytes⟩ := hclips.read_eq_some (h.read i hi)
      exact ⟨bytes, fun _ => hbytes⟩
    · exact ⟨[], fun hi' => absurd hi' hi⟩
  choose bytes hbytes using hread
  refine ⟨fun i => ⟨(place i).block, (place i).address, bytes i⟩, ?_, ?_⟩
  · refine ⟨h.root, h.block, fun i hi => (hbytes i hi).1, fun i hi hik => ?_, h.nonzero, ?_⟩
    · exact (h.value i hi hik).of_beginning (hbytes i (Nat.le_of_lt hik)).2
    · rw [← hclips.limit]
      exact h.inRange
  · exact fun i hi => ⟨rfl, rfl, (hbytes i hi).2⟩

namespace Path

/-- Where a walk in clipped storage succeeds, the one in whole storage ends at the same address. -/
theorem walk_eq_ok_of_clips (hwide : AddressWide path.steps) (hclips : clipped.Clips whole)
    (h : (path.walk clipped root).outcome = .ok there) :
    ∃ bytes, (path.walk whole root).outcome = .ok ⟨there.block, there.address, bytes⟩ ∧
      there.bytes <+: bytes := by
  obtain ⟨place, htrail, rfl⟩ := (walk_eq_ok_iff hwide).1 h
  obtain ⟨place', htrail', hbegins⟩ := htrail.of_clips hclips
  have hlast := hbegins path.steps.length (Nat.le_refl _)
  refine ⟨(place' path.steps.length).bytes, ?_, hlast.bytes⟩
  rw [walk_eq_ok_iff hwide]
  refine ⟨place', htrail', ?_⟩
  rw [hlast.address]

/-- Where a walk in clipped storage fails, the one in whole storage does with the same error, or
the bytes that were handed back end before the link that is next. -/
theorem walk_eq_error_of_clips (hwide : AddressWide path.steps) (hclips : clipped.Clips whole)
    (h : (path.walk clipped root).outcome = .error e) :
    (path.walk whole root).outcome = .error e ∨
      ∃ i, ∃ hi : i < path.steps.length, ∃ place, path.Trail clipped root i place ∧
        (place i).bytes.length < path.steps[i].link.stop ∧
        e = .brokenLink i path.steps[i].block.name path.steps[i].link.name
          (.unmapped ((place i).address + path.steps[i].link.offset) path.steps[i].link.width) := by
  rcases (walk_eq_error_iff hwide).1 h with
    ⟨hroot, rfl⟩ | ⟨i, hi, place, fault, htrail, hbreaks, rfl⟩
  · exact Or.inl ((walk_eq_error_iff hwide).2 (Or.inl ⟨hclips.read_eq_none hroot, rfl⟩))
  · obtain ⟨place', htrail', hbegins⟩ := htrail.of_clips hclips
    -- only a link that is cut off breaks where the whole storage may go on
    rcases hbreaks.of_clips hclips (hbegins i (Nat.le_refl i)) with hwhole | ⟨hshort, rfl⟩
    · left
      rw [walk_eq_error_iff hwide]
      exact Or.inr ⟨i, hi, place', fault, htrail', hwhole, rfl⟩
    · exact Or.inr ⟨i, hi, place, htrail, hshort, rfl⟩

end Path

end Walks

end IplReport
