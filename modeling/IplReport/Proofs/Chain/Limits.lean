import IplReport.Proofs.Chain.Reads
import IplReport.Proofs.Memory.Image

/-!
# Walks under a limit

Before a walk reads a block it compares the end of the block with the limit of the storage.  This
comparison is told apart here from the other checks of a link.  Walks in the same storage under
different limits, or under none, then agree up to the first block that the lowest limit rejects.
In a memory image no limit is needed: what ends past it could not be read anyway.

Main statements:
- `LocatedBlock.target_eq_bind`: the limit is the last check of a link;
- `follow_raised` and `Path.walk_raised`: what a higher limit changes;
- `follow_unlimited` and `Path.walk_unlimited`: a walk in an image needs no limit.
-/

namespace IplReport

/-! ## Section 1: The limit in a step -/

/-- The block that a link leads to would end past the limit. -/
def LinkFault.IsOutOfRange : LinkFault → Prop
  | outOfRange .. => True
  | null => False
  | unmapped .. => False

/-- A walk ends because a block would end past the limit. -/
def WalkError.IsOutOfRange : WalkError → Prop
  | brokenLink _ _ _ fault => fault.IsOutOfRange
  | rootUnavailable .. => False
  | noRoot => False

namespace LocatedBlock

/-- The address that a link holds, if it was read and is not zero. -/
def pointer (here : LocatedBlock) (link : Field) : Except LinkFault UInt64 :=
  match here.linkValue? link with
  | none => .error (.unmapped (here.address + link.offset) link.width)
  | some address => if address = 0 then .error .null else .ok address

variable {here : LocatedBlock} {link : Field} {fault : LinkFault}

/-- An address is compared with the limit after all other checks of its link. -/
theorem target_eq_bind (here : LocatedBlock) (link : Field) (size limit : UInt64) :
    here.target link size limit = (here.pointer link).bind fun address =>
      if limit.toNat < address.toNat + size.toNat then .error (.outOfRange address limit)
      else .ok address := by
  rw [target, pointer]
  cases here.linkValue? link with
  | none => rfl
  | some address =>
    dsimp only
    by_cases hzero : address = 0
    · rw [if_pos hzero, if_pos hzero, Except.bind]
    · rw [if_neg hzero, if_neg hzero, Except.bind]

theorem not_isOutOfRange_of_pointer (h : here.pointer link = .error fault) :
    ¬fault.IsOutOfRange := by
  rw [pointer] at h
  cases hvalue : here.linkValue? link with
  | none =>
    rw [hvalue] at h
    cases h
    exact id
  | some address =>
    rw [hvalue] at h
    dsimp only at h
    split_ifs at h
    cases h
    exact id

end LocatedBlock

section Step

variable {space : AddressSpace} {terminal : Block} {index : Nat} {here : LocatedBlock}
  {step : Step} {rest : List Step} {fault : LinkFault} {address : UInt64} {bytes : Bytes}

/-- Where no address is found, a walk ends, whatever the limit is. -/
theorem follow_of_pointer_error (h : here.pointer step.link = .error fault) :
    follow space terminal index here (step :: rest) =
      .ofExcept (.error (.brokenLink index step.block.name step.link.name fault)) := by
  rw [follow, LocatedBlock.target_eq_bind, h]
  rfl

theorem follow_of_outOfRange (h : here.pointer step.link = .ok address)
    (hrange : space.limit.toNat < address.toNat + (startOf terminal rest).size.toNat) :
    follow space terminal index here (step :: rest) =
      .ofExcept (.error (.brokenLink index step.block.name step.link.name
        (.outOfRange address space.limit))) := by
  rw [follow, LocatedBlock.target_eq_bind, h, Except.bind, if_pos hrange]
  rfl

/-- Within the limit, a walk ends where the storage refuses the next block. -/
theorem follow_of_refused (h : here.pointer step.link = .ok address)
    (hrange : address.toNat + (startOf terminal rest).size.toNat ≤ space.limit.toNat)
    (hread : space.read address (startOf terminal rest).size = none) :
    follow space terminal index here (step :: rest) =
      ⟨[(address, (startOf terminal rest).size)],
        .error (.brokenLink index step.block.name step.link.name
          (.unmapped address (startOf terminal rest).size))⟩ := by
  rw [follow, LocatedBlock.target_eq_bind, h, Except.bind, if_neg (Nat.not_lt.2 hrange)]
  simp only [Except.mapError, Traced.ofExcept_ok, pure_bind, Traced.read, hread]
  rfl

/-- Within the limit, a walk goes on from the next block where the storage supplies it. -/
theorem follow_of_supplied (h : here.pointer step.link = .ok address)
    (hrange : address.toNat + (startOf terminal rest).size.toNat ≤ space.limit.toNat)
    (hread : space.read address (startOf terminal rest).size = some bytes) :
    follow space terminal index here (step :: rest) =
      let later := follow space terminal (index + 1) ⟨startOf terminal rest, address, bytes⟩ rest
      ⟨(address, (startOf terminal rest).size) :: later.reads, later.outcome⟩ := by
  rw [follow, LocatedBlock.target_eq_bind, h, Except.bind, if_neg (Nat.not_lt.2 hrange)]
  simp only [Except.mapError, Traced.ofExcept_ok, pure_bind, Traced.read, hread]
  rfl

end Step

/-! ## Section 2: A higher limit -/

section Raised

variable {low high : AddressSpace} {terminal : Block}

/-- Following steps under a higher limit comes to the same, or else the lower limit has rejected a
block, and under the higher one no earlier step fails. -/
theorem follow_raised (hread : high.read = low.read) (hlimit : low.limit ≤ high.limit)
    (steps : List Step) (index : Nat) (here : LocatedBlock) :
    follow high terminal index here steps = follow low terminal index here steps ∨
    ∃ n block link address,
      (follow low terminal index here steps).outcome =
        .error (.brokenLink n block link (.outOfRange address low.limit)) ∧
      ∀ e, (follow high terminal index here steps).outcome = .error e →
        ∃ m block' link' fault, e = .brokenLink m block' link' fault ∧ n ≤ m := by
  -- by induction on the steps, with both walks at the same block
  induction steps generalizing index here with
  | nil => exact Or.inl rfl
  | cons step rest ih =>
    cases hpointer : here.pointer step.link with
    | error fault =>
      left
      rw [follow_of_pointer_error hpointer, follow_of_pointer_error hpointer]
    | ok address =>
      by_cases hlow : address.toNat + (startOf terminal rest).size.toNat ≤ low.limit.toNat
      · have hhigh := Nat.le_trans hlow (UInt64.le_iff_toNat_le.1 hlimit)
        cases hbytes : low.read address (startOf terminal rest).size with
        | none =>
          left
          rw [follow_of_refused hpointer hlow hbytes,
            follow_of_refused hpointer hhigh (by rw [hread, hbytes])]
        | some bytes =>
          rw [follow_of_supplied hpointer hlow hbytes,
            follow_of_supplied hpointer hhigh (by rw [hread, hbytes])]
          rcases ih (index + 1) ⟨startOf terminal rest, address, bytes⟩ with hsame | hrejected
          · left
            rw [hsame]
          · exact Or.inr hrejected
      · -- the lower limit rejects the block, whatever comes of it under the higher one
        refine Or.inr ⟨index, step.block.name, step.link.name, address, ?_, ?_⟩
        · rw [follow_of_outOfRange hpointer (Nat.lt_of_not_le hlow)]
          rfl
        · intro e he
          obtain ⟨i, block, link, fault, rfl, -⟩ := stopsAfter_of_follow_eq_error he
          exact ⟨index + i, block, link, fault, rfl, Nat.le_add_right index i⟩

/-- A walk in the same storage under a limit that is no lower.  If no block was rejected for the
lower limit, nothing changes: the outcome is the same, and so are the reads.  If one was, at the
step of a given number, the walk succeeds or fails at that step or a later one. -/
theorem Path.walk_raised (path : Path) (hread : high.read = low.read)
    (hlimit : low.limit ≤ high.limit) (root : UInt64) :
    ((∀ e, (path.walk low root).outcome = .error e → ¬e.IsOutOfRange) →
      path.walk high root = path.walk low root) ∧
    ∀ i block link address limit, (path.walk low root).outcome =
        .error (.brokenLink i block link (.outOfRange address limit)) →
      ∀ e, (path.walk high root).outcome = .error e →
        ∃ j block' link' fault, e = .brokenLink j block' link' fault ∧ i ≤ j := by
  cases hroot : low.read root path.root.size with
  | none =>
    have hroot' : high.read root path.root.size = none := by rw [hread, hroot]
    rw [walk_of_refused hroot, walk_of_refused hroot']
    refine ⟨fun _ => rfl, ?_⟩
    intro i block link address limit h
    cases h
  | some bytes =>
    have hroot' : high.read root path.root.size = some bytes := by rw [hread, hroot]
    rw [walk_of_read hroot, walk_of_read hroot']
    -- either the limit rejects nothing, or the walk is at step `n` when it does
    rcases follow_raised hread hlimit path.steps 0 ⟨path.root, root, bytes⟩ with
      hsame | ⟨n, block, link, address, hrejected, hlater⟩
    · rw [hsame]
      refine ⟨fun _ => rfl, ?_⟩
      intro i block link address limit h e he
      dsimp only at h he
      rw [h] at he
      cases he
      exact ⟨i, block, link, _, rfl, Nat.le_refl i⟩
    · refine ⟨fun hin => absurd trivial (hin _ hrejected), ?_⟩
      intro i block' link' address' limit' h
      dsimp only at h
      rw [hrejected] at h
      cases h
      exact hlater

/-- Of `zeroTable` under a limit inside the vector table, the table is rejected at step 0.  Under
the limit that `zeroTable` has, the walk goes on to step 1.  From a root that is not zero no block
is compared with the limit, so it does not matter which of the two it is. -/
theorem Path.walk_raised_zeroTable :
    ∃ path, (Zos.catalog .ebcdic).path "ecvt" [("PSA", "PSACVT"), ("CVT", "CVTECVT")] "ECVT" =
        .ok path ∧
      zeroTable.read = (zeroTable.withLimit 0x1100).read ∧
      (zeroTable.withLimit 0x1100).limit ≤ zeroTable.limit ∧
      (path.walk (zeroTable.withLimit 0x1100) 0).outcome =
        .error (.brokenLink 0 "PSA" "PSACVT" (.outOfRange 0x1000 0x1100)) ∧
      (∀ e, (path.walk zeroTable 0).outcome = .error e →
        ∃ j block link fault, e = .brokenLink j block link fault ∧ 0 ≤ j) ∧
      path.walk zeroTable 8 = path.walk (zeroTable.withLimit 0x1100) 8 := by
  have hpath : (Zos.catalog .ebcdic).path "ecvt" [("PSA", "PSACVT"), ("CVT", "CVTECVT")] "ECVT" =
      .ok ⟨"ecvt", [⟨Zos.psa, ⟨"PSACVT", 16, 4, .link⟩⟩, ⟨Zos.cvt, ⟨"CVTECVT", 140, 4, .link⟩⟩],
        Zos.ecvt⟩ := rfl
  have hread : zeroTable.read = (zeroTable.withLimit 0x1100).read := rfl
  have hlimit : (zeroTable.withLimit 0x1100).limit ≤ zeroTable.limit := by decide
  obtain ⟨-, hlater⟩ := walk_raised _ hread hlimit 0
  obtain ⟨hsame, -⟩ := walk_raised _ hread hlimit 8
  refine ⟨_, hpath, hread, hlimit, rfl, hlater 0 _ _ _ _ rfl, hsame ?_⟩
  intro e he
  cases he
  exact id

end Raised

/-! ## Section 3: No limit -/

def followUnlimited (read : UInt64 → UInt64 → Option Bytes) (terminal : Block) (index : Nat)
    (here : LocatedBlock) : List Step → Except WalkError LocatedBlock
  | [] => .ok here
  | step :: rest =>
    let next := startOf terminal rest
    let broken := WalkError.brokenLink index step.block.name step.link.name
    match here.pointer step.link with
    | .error fault => .error (broken fault)
    | .ok address =>
      match read address next.size with
      | none => .error (broken (.unmapped address next.size))
      | some bytes => followUnlimited read terminal (index + 1) ⟨next, address, bytes⟩ rest

/-- Walks a path without a limit: links are checked only for zero, and storage only reads. -/
def Path.walkUnlimited (path : Path) (read : UInt64 → UInt64 → Option Bytes) (root : UInt64) :
    Except WalkError LocatedBlock :=
  match read root path.root.size with
  | none => .error (.rootUnavailable path.root.name root path.root.size)
  | some bytes => followUnlimited read path.terminal 0 ⟨path.root, root, bytes⟩ path.steps

/-- Whatever can be read ends at or below the limit. -/
def AddressSpace.WithinLimit (space : AddressSpace) : Prop :=
  ∀ address size bytes, space.read address size = some bytes →
    address.toNat + size.toNat ≤ space.limit.toNat

theorem Image.Orderly.withinLimit_space {image : Image} (h : image.Orderly) :
    image.space.WithinLimit :=
  fun _ _ _ hread => h.le_limit_of_read hread

section Unlimited

variable {space : AddressSpace} {terminal : Block}

/-- Where nothing past the limit can be read, following steps comes to the same without it, but that
a block the limit would reject is refused by the storage. -/
theorem follow_unlimited (h : space.WithinLimit) (steps : List Step) (index : Nat)
    (here : LocatedBlock) :
    ((follow space terminal index here steps).outcome =
        followUnlimited space.read terminal index here steps ∧
      ∀ e, (follow space terminal index here steps).outcome = .error e → ¬e.IsOutOfRange) ∨
    ∃ i block link address, i < steps.length ∧
      (follow space terminal index here steps).outcome =
        .error (.brokenLink (index + i) block link (.outOfRange address space.limit)) ∧
      space.read address (nthBlock terminal steps (i + 1)).size = none ∧
      followUnlimited space.read terminal index here steps =
        .error (.brokenLink (index + i) block link
          (.unmapped address (nthBlock terminal steps (i + 1)).size)) := by
  -- by induction on the steps, with both walks at the same block
  induction steps generalizing index here with
  | nil => exact Or.inl ⟨rfl, fun e he => by cases he⟩
  | cons step rest ih =>
    cases hpointer : here.pointer step.link with
    | error fault =>
      left
      simp only [followUnlimited, hpointer]
      rw [follow_of_pointer_error hpointer]
      refine ⟨rfl, fun e he => ?_⟩
      cases he
      exact LocatedBlock.not_isOutOfRange_of_pointer hpointer
    | ok address =>
      cases hbytes : space.read address (startOf terminal rest).size with
      | some bytes =>
        simp only [followUnlimited, hpointer, hbytes]
        rw [follow_of_supplied hpointer (h _ _ _ hbytes) hbytes]
        rcases ih (index + 1) ⟨startOf terminal rest, address, bytes⟩ with
          hsame | ⟨i, block, link, address', hi, hrejected, hrefused, hunlimited⟩
        · exact Or.inl hsame
        · right
          refine ⟨i + 1, block, link, address', Nat.succ_lt_succ hi, ?_, hrefused, ?_⟩
          · rw [← Nat.add_assoc, Nat.add_right_comm]
            exact hrejected
          · rw [← Nat.add_assoc, Nat.add_right_comm]
            exact hunlimited
      | none =>
        simp only [followUnlimited, hpointer, hbytes]
        by_cases hrange : address.toNat + (startOf terminal rest).size.toNat ≤ space.limit.toNat
        · left
          rw [follow_of_refused hpointer hrange hbytes]
          refine ⟨rfl, fun e he => ?_⟩
          cases he
          exact id
        · -- the only block that the limit rejects
          right
          refine ⟨0, step.block.name, step.link.name, address, Nat.zero_lt_succ _, ?_⟩
          rw [nthBlock_eq_startOf_drop]
          refine ⟨?_, hbytes, rfl⟩
          rw [follow_of_outOfRange hpointer (Nat.lt_of_not_le hrange)]
          rfl

/-- A walk in a memory image comes to the same without the limit: it succeeds exactly if it succeeds
without one, at the same block and with the same bytes, and fails with the same errors but those
for the limit.  If a block is rejected for the limit, the image could not have supplied it, and this
is the error without a limit. -/
theorem Path.walk_unlimited {image : Image} (himage : image.Reachable) (path : Path)
    (root : UInt64) :
    (∀ there, (path.walk image.space root).outcome = .ok there ↔
      path.walkUnlimited image.read root = .ok there) ∧
    (∀ e, (path.walk image.space root).outcome = .error e → ¬e.IsOutOfRange →
      path.walkUnlimited image.read root = .error e) ∧
    ∀ i block link address limit, (path.walk image.space root).outcome =
        .error (.brokenLink i block link (.outOfRange address limit)) →
      i < path.steps.length ∧ image.read address (path.nthBlock (i + 1)).size = none ∧
      path.walkUnlimited image.read root =
        .error (.brokenLink i block link (.unmapped address (path.nthBlock (i + 1)).size)) := by
  rw [walk_outcome_eq, walkUnlimited]
  have hread : image.space.read = image.read := rfl
  rw [hread]
  cases hroot : image.read root path.root.size with
  | none =>
    refine ⟨fun _ => Iff.rfl, fun e he _ => he, ?_⟩
    intro i block link address limit h
    cases h
  | some bytes =>
    dsimp only
    -- either the limit rejects nothing, or what it rejects is not in the image
    rcases follow_unlimited himage.orderly.withinLimit_space path.steps 0
      ⟨path.root, root, bytes⟩ with
      ⟨hsame, hin⟩ | ⟨i, block, link, address, hi, hrejected, hrefused, hunlimited⟩
    · rw [hread] at hsame
      rw [← hsame]
      refine ⟨fun _ => Iff.rfl, fun e he _ => he, ?_⟩
      intro i block link address limit h
      exact absurd trivial (hin _ h)
    · rw [Nat.zero_add] at hrejected hunlimited
      rw [hread] at hunlimited
      rw [hrejected, hunlimited]
      refine ⟨fun there => iff_of_false (by simp) (by simp), fun e he hin => ?_, ?_⟩
      · cases he
        exact absurd trivial hin
      · intro i' block' link' address' limit' h
        cases h
        exact ⟨hi, hrefused, rfl⟩

/-- An image of two links and of sixteen bytes that end at its limit. -/
def filledImage : Image :=
  ⟨.amode24, [⟨0x10, [0, 0xff, 0xff, 0xf0, 0, 0xff, 0xff, 0xf1]⟩,
    ⟨0xfffff0, List.replicate 16 7⟩], none⟩

/-- A path along a link to a block of sixteen bytes. -/
def towardsSixteen : Path :=
  ⟨"p", [⟨⟨"A", 4, [⟨"NEXT", 0, 4, .link⟩]⟩, ⟨"NEXT", 0, 4, .link⟩⟩], ⟨"B", 16, []⟩⟩

/-- The first of the links in `filledImage` leads to the block that ends at the limit, also without
the limit.  The second one leads one byte further, where the image has no sixteen bytes. -/
theorem Path.walk_unlimited_filledImage :
    filledImage.Reachable ∧
      towardsSixteen.walkUnlimited filledImage.read 0x10 =
        .ok ⟨⟨"B", 16, []⟩, 0xfffff0, List.replicate 16 7⟩ ∧
      (towardsSixteen.walk filledImage.space 0x14).outcome =
        .error (.brokenLink 0 "A" "NEXT" (.outOfRange 0xfffff1 0x1000000)) ∧
      filledImage.read 0xfffff1 16 = none := by
  have himage : filledImage.Reachable :=
    ⟨.amode24, [.map 0x10 [0, 0xff, 0xff, 0xf0, 0, 0xff, 0xff, 0xf1],
      .map 0xfffff0 (List.replicate 16 7)], by decide +kernel⟩
  have hrejected : (towardsSixteen.walk filledImage.space 0x14).outcome =
      .error (.brokenLink 0 "A" "NEXT" (.outOfRange 0xfffff1 0x1000000)) := rfl
  obtain ⟨hok, -, -⟩ := walk_unlimited himage towardsSixteen 0x10
  obtain ⟨-, -, hrange⟩ := walk_unlimited himage towardsSixteen 0x14
  obtain ⟨-, hrefused, -⟩ := hrange _ _ _ _ _ hrejected
  exact ⟨himage, (hok _).1 rfl, hrejected, hrefused⟩

end Unlimited

end IplReport
