import IplReport.Proofs.Chain.Clipped
import IplReport.Proofs.Chain.InImage
import IplReport.Proofs.Chain.Reads

/-!
# Sums of addresses on a walk

Where the bytes of a link are missing, a walk adds the offset of the link to the address of the
block, and nobody looks whether the sum is an address.  It always is if the root block ends at one:
all later blocks have been compared with the limit, and a link is inside its block.  The root block
is not compared with anything, but an image hands back no bytes past its own limit.

Main statements:
- `Path.Trail.link_lt_size`: the links on the way end at addresses;
- `Path.exactWalk?_eq`: a walk is the same if sums have to be exact;
- `Path.walk_exact`: both, for a path of a catalog and storage that is an image at bottom.
-/

namespace IplReport

/-! ## Section 1: Exact sums -/

/-- The sum of two addresses, if it is an address. -/
def sum? (a b : UInt64) : Option UInt64 :=
  if a.toNat + b.toNat < UInt64.size then some (a + b) else none

theorem toNat_add_of_lt {a b : UInt64} (h : a.toNat + b.toNat < UInt64.size) :
    (a + b).toNat = a.toNat + b.toNat := by
  rw [UInt64.toNat_add, Nat.mod_eq_of_lt h]

theorem sum?_of_lt {a b : UInt64} (h : a.toNat + b.toNat < UInt64.size) :
    sum? a b = some (a + b) :=
  if_pos h

/-- Whether a block ends at or below the limit can be told from an exact sum or from there being
none. -/
theorem sum?_any_le_iff {a b limit : UInt64} :
    (sum? a b).any (· ≤ limit) = true ↔ a.toNat + b.toNat ≤ limit.toNat := by
  have hlimit := limit.toNat_lt_size
  rw [sum?]
  split_ifs with hfits
  · rw [Option.any_some, decide_eq_true_iff, UInt64.le_iff_toNat_le, toNat_add_of_lt hfits]
  · exact iff_of_false Bool.false_ne_true (by omega)

/-! ## Section 2: Walks with exact sums -/

/-- The target of a link, if no sum that goes unchecked wraps around.  The sum that is compared with
the limit is checked: where there is none, the block is out of range. -/
def LocatedBlock.exactTarget? (here : LocatedBlock) (link : Field) (size limit : UInt64) :
    Option (Except LinkFault UInt64) :=
  match here.linkValue? link with
  | none => (sum? here.address link.offset).map fun position =>
      .error (.unmapped position link.width)
  | some address => some <|
    if address = 0 then .error .null
    else if (sum? address size).any (· ≤ limit) then .ok address
    else .error (.outOfRange address limit)

def exactFollow? (space : AddressSpace) (terminal : Block) (index : Nat) (here : LocatedBlock) :
    List Step → Option (Except WalkError LocatedBlock)
  | [] => some (.ok here)
  | step :: rest => do
    let next := startOf terminal rest
    let broken := WalkError.brokenLink index step.block.name step.link.name
    match ← here.exactTarget? step.link next.size space.limit with
    | .error fault => return .error (broken fault)
    | .ok address =>
      match space.read address next.size with
      | none => return .error (broken (.unmapped address next.size))
      | some bytes => exactFollow? space terminal (index + 1) ⟨next, address, bytes⟩ rest

/-- Walks a path as long as no sum wraps around. -/
def Path.exactWalk? (path : Path) (space : AddressSpace) (root : UInt64) :
    Option (Except WalkError LocatedBlock) :=
  match space.read root path.root.size with
  | none => some (.error (.rootUnavailable path.root.name root path.root.size))
  | some bytes => exactFollow? space path.terminal 0 ⟨path.root, root, bytes⟩ path.steps

section Exactness

variable {space : AddressSpace} {terminal : Block} {index : Nat} {here : LocatedBlock}
  {link : Field} {steps : List Step} {path : Path} {root : UInt64}

theorem LocatedBlock.exactTarget?_eq
    (h : here.address.toNat + link.offset.toNat < UInt64.size) (size limit : UInt64) :
    here.exactTarget? link size limit = some (here.target link size limit) := by
  rw [exactTarget?, target]
  cases here.linkValue? link with
  | none => rw [sum?_of_lt h, Option.map_some]
  | some address =>
    simp only [sum?_any_le_iff, ← Nat.not_lt, ite_not]

/-- After a block that ends at an address, no sum wraps around, whatever the storage is: the next
block has been compared with the limit when it is read. -/
theorem exactFollow?_eq (hfits : ∀ step ∈ steps, step.Fits)
    (hend : here.address.toNat + (startOf terminal steps).size.toNat < UInt64.size) :
    exactFollow? space terminal index here steps =
      some (follow space terminal index here steps).outcome := by
  -- by induction on the steps, each of which starts from a block that ends at an address
  induction steps generalizing index here with
  | nil => rfl
  | cons step rest ih =>
    obtain ⟨hstep, hrest⟩ := List.forall_mem_cons.1 hfits
    have hsum : here.address.toNat + step.link.offset.toNat < UInt64.size := by
      have hstart := step.link.offset_le_stop
      have hstop := hstep.stop
      rw [startOf] at hend
      omega
    rw [exactFollow?, LocatedBlock.exactTarget?_eq hsum, follow]
    cases htarget : here.target step.link (startOf terminal rest).size space.limit with
    | error fault => rfl
    | ok address =>
      have hrange := (LocatedBlock.target_eq_ok_iff.1 htarget).inRange
      have hnext := Nat.lt_of_le_of_lt hrange space.limit.toNat_lt_size
      simp only [Option.bind_eq_bind, Option.bind_some, Except.mapError, Traced.ofExcept_ok,
        pure_bind, Traced.outcome_bind, Traced.read]
      cases space.read address (startOf terminal rest).size with
      | none => rfl
      | some bytes => exact ih hrest hnext

/-- If the root block ends at an address where it can be read, no sum on a walk wraps around. -/
theorem Path.exactWalk?_eq (hfits : ∀ step ∈ path.steps, step.Fits)
    (hroot : ∀ bytes, space.read root path.root.size = some bytes →
      root.toNat + path.root.size.toNat < UInt64.size) :
    path.exactWalk? space root = some (path.walk space root).outcome := by
  rw [exactWalk?, walk_outcome_eq]
  cases hread : space.read root path.root.size with
  | none => rfl
  | some bytes => exact exactFollow?_eq hfits (hroot bytes hread)

end Exactness

/-! ## Section 3: Places on the way -/

namespace AddressSpace

variable {space clipped whole : AddressSpace}

theorem Bounded.withLimit (h : space.Bounded) (limit : UInt64) : (space.withLimit limit).Bounded :=
  h

theorem Clips.bounded (h : clipped.Clips whole) (hwhole : whole.Bounded) : clipped.Bounded := by
  intro address size part hread
  obtain ⟨bytes, hbytes, -⟩ := h.read_eq_some hread
  exact hwhole address size bytes hbytes

end AddressSpace

/-- What an image hands back ends at or below its limit, which is an address. -/
theorem Image.Orderly.bounded_space {image : Image} (h : image.Orderly) : image.space.Bounded := by
  intro address size bytes hread
  exact Nat.lt_of_le_of_lt (h.le_limit_of_read hread) image.mode.limit.toNat_lt_size

namespace Path

variable {c : Catalog} {name terminal : String} {links : List (String × String)} {path : Path}
  {space : AddressSpace} {root : UInt64} {k i : Nat} {place : Nat → LocatedBlock}

theorem Trail.block_lt_size (h : path.Trail space root k place) (hbounded : space.Bounded)
    (hi : i ≤ k) : (place i).address.toNat + (path.nthBlock i).size.toNat < UInt64.size :=
  hbounded _ _ _ (h.read i hi)

/-- The link out of a place on the way ends at an address, since the block does. -/
theorem Trail.link_lt_size (h : path.Trail space root k place) (hbounded : space.Bounded)
    (hfits : ∀ step ∈ path.steps, step.Fits) (hi : i < path.steps.length) (hik : i ≤ k) :
    (place i).address.toNat + path.steps[i].link.stop < UInt64.size := by
  have hend := h.block_lt_size hbounded hik
  have hstop := (hfits _ (List.getElem_mem hi)).stop
  rw [nthBlock_eq hi] at hend
  omega

/-- The address of a link that cannot be read is an exact sum. -/
theorem Trail.toNat_add_offset (h : path.Trail space root k place) (hbounded : space.Bounded)
    (hfits : ∀ step ∈ path.steps, step.Fits) (hi : i < path.steps.length) (hik : i ≤ k) :
    ((place i).address + path.steps[i].link.offset).toNat =
      (place i).address.toNat + path.steps[i].link.offset.toNat := by
  have hlink := h.link_lt_size hbounded hfits hi hik
  have hstart := path.steps[i].link.offset_le_stop
  exact toNat_add_of_lt (by omega)

/-! ## Section 4: Storage that is an image at bottom -/

/-- In storage that clips what an image hands back, under any limit, every sum on the way along a
path of a catalog is an address, from whatever root.  So a walk that no sum may wrap around on comes
to an end, and to the same.  All blocks on the way and the links out of them end at addresses.  If
the walk fails, the root block is refused, or a link breaks out of a block on the way; the address
that the fault names is then the root, an address that the link holds, or an exact sum. -/
theorem walk_exact {image : Image} (himage : image.Reachable)
    (hclips : space.Clips (image.space.withLimit space.limit))
    (hpath : c.path name links terminal = .ok path) (root : UInt64) :
    path.exactWalk? space root = some (path.walk space root).outcome ∧
    (∀ k place, path.Trail space root k place → ∀ i ≤ k,
      (place i).address.toNat + (path.nthBlock i).size.toNat ≤ 0xffffffffffffffff ∧
      ∀ hi : i < path.steps.length,
        (place i).address.toNat + path.steps[i].link.stop ≤ 0xffffffffffffffff) ∧
    ∀ e, (path.walk space root).outcome = .error e →
      e = .rootUnavailable path.root.name root path.root.size ∨
      ∃ i, ∃ hi : i < path.steps.length, ∃ place fault, path.Trail space root i place ∧
        (place i).Breaks space path.steps[i].link (path.nthBlock (i + 1)) fault ∧
        e = .brokenLink i path.steps[i].block.name path.steps[i].link.name fault ∧
        ((place i).address + path.steps[i].link.offset).toNat =
          (place i).address.toNat + path.steps[i].link.offset.toNat := by
  -- blocks end where the image does, at the latest, and links end inside their blocks
  have hbounded : space.Bounded :=
    hclips.bounded (himage.orderly.bounded_space.withLimit space.limit)
  have hfits := Catalog.fits_of_path hpath
  refine ⟨exactWalk?_eq hfits (hbounded root path.root.size), ?_, ?_⟩
  · intro k place htrail i hik
    refine ⟨Nat.le_of_lt_succ (htrail.block_lt_size hbounded hik), fun hi => ?_⟩
    exact Nat.le_of_lt_succ (htrail.link_lt_size hbounded hfits hi hik)
  · intro e he
    rcases (walk_eq_error_iff (addressWide_of_fits hfits)).1 he with
      ⟨-, hrefused⟩ | ⟨i, hi, place, fault, htrail, hbreaks, hbroken⟩
    · exact Or.inl hrefused
    · exact Or.inr ⟨i, hi, place, fault, htrail, hbreaks, hbroken,
        htrail.toNat_add_offset hbounded hfits hi (Nat.le_refl i)⟩

/-- The block `A` with a link at its end, and a block it leads to. -/
def tailLinked : Catalog :=
  ⟨[⟨"A", 31, [⟨"NEXT", 23, 8, .link⟩]⟩, ⟨"B", 4, []⟩], rfl⟩

/-- An image of 31 bytes that end where addresses do. -/
def highestImage : Image :=
  ⟨.amode64, [⟨0xffffffffffffffe0, List.replicate 31 0⟩], none⟩

/-- In storage that hands back 24 of these bytes at most and says that its limit is zero, the link
at the end of the block is cut off.  It starts eight bytes below the highest 64-bit number. -/
theorem walk_exact_highestImage :
    ∃ path, tailLinked.path "p" [("A", "NEXT")] "B" = .ok path ∧
      path.exactWalk? ((highestImage.space.withLimit 0).clipped 24) 0xffffffffffffffe0 =
        some (.error (.brokenLink 0 "A" "NEXT" (.unmapped 0xfffffffffffffff7 8))) := by
  have hpath : tailLinked.path "p" [("A", "NEXT")] "B" =
      .ok ⟨"p", [⟨⟨"A", 31, [⟨"NEXT", 23, 8, .link⟩]⟩, ⟨"NEXT", 23, 8, .link⟩⟩],
        ⟨"B", 4, []⟩⟩ := rfl
  have himage : highestImage.Reachable :=
    ⟨.amode64, [.map 0xffffffffffffffe0 (List.replicate 31 0)], by decide +kernel⟩
  -- the limit of the storage does not matter, as the image has its own
  have hclips := AddressSpace.clips_clipped (highestImage.space.withLimit 0) 24
  obtain ⟨hexact, -⟩ := walk_exact himage hclips hpath 0xffffffffffffffe0
  refine ⟨_, hpath, hexact.trans ?_⟩
  decide +kernel

/-- Storage that is no image may hand back bytes anywhere, and then a sum can wrap around. -/
example : Path.exactWalk?
    ⟨"p", [⟨⟨"A", 31, [⟨"NEXT", 23, 8, .link⟩]⟩, ⟨"NEXT", 23, 8, .link⟩⟩], ⟨"B", 4, []⟩⟩
    ⟨0, fun _ _ => some []⟩ 0xffffffffffffffff = none := by
  decide

end Path

end IplReport
