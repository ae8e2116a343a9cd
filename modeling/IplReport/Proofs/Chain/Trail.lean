import IplReport.Catalog.Zos
import IplReport.Chain.Walk
import IplReport.Proofs.Catalog.Contents
import IplReport.Proofs.Memory.Bytes

/-!
# Trails of a walk

A walk is described without the function that takes it: by the places it visits, each of which
the one before leads to, and by what can be wrong with the link out of the last of them.  Nothing
is asked of the storage, which may refuse any read and may hand back too few bytes.

Main statements:
- `LocatedBlock.leads_or_breaks`: a link leads on or breaks in one of four ways;
- `follow_eq_ok_iff` and `follow_eq_error_iff`: what following any number of steps comes to;
- `Path.walk_outcome`: the same of the whole walk along a path of a catalog.
-/

namespace IplReport

/-! ## Section 1: One step -/

namespace LocatedBlock

variable {space : AddressSpace} {here there : LocatedBlock} {link : Field} {next : Block}
  {fault : LinkFault}

/-- A link of the block `here` leads to the block `there`: it was read and holds its address, which
is not zero, and the storage hands back bytes for the block, which ends at or below the limit. -/
structure LeadsTo (space : AddressSpace) (here : LocatedBlock) (link : Field)
    (there : LocatedBlock) : Prop where
  value : here.bytes.HoldsAddress link there.address
  nonzero : there.address ≠ 0
  inRange : there.address.toNat + there.block.size.toNat ≤ space.limit.toNat
  read : space.read there.address there.block.size = some there.bytes

/-- Why a link of the block `here` does not lead to a block `next`: the first check that fails.
The address of missing bytes of a link is a sum of 64-bit numbers. -/
inductive Breaks (space : AddressSpace) (here : LocatedBlock) (link : Field) (next : Block) :
    LinkFault → Prop where
  /-- The bytes that were read end before the link does. -/
  | missing : here.bytes.length < link.stop →
      Breaks space here link next (.unmapped (here.address + link.offset) link.width)
  /-- The link holds zero. -/
  | null : here.bytes.HoldsAddress link 0 → Breaks space here link next .null
  /-- The next block would end past the limit. -/
  | outOfRange {address : UInt64} : here.bytes.HoldsAddress link address → address ≠ 0 →
      space.limit.toNat < address.toNat + next.size.toNat →
      Breaks space here link next (.outOfRange address space.limit)
  /-- The storage refuses the next block. -/
  | unmapped {address : UInt64} : here.bytes.HoldsAddress link address → address ≠ 0 →
      address.toNat + next.size.toNat ≤ space.limit.toNat →
      space.read address next.size = none →
      Breaks space here link next (.unmapped address next.size)

theorem linkValue?_eq_some_iff {address : UInt64} :
    here.linkValue? link = some address ↔ here.bytes.HoldsAddress link address := by
  rw [linkValue?, Option.bind_eq_some_iff]
  exact exists_congr fun word => and_congr_right fun _ => Bytes.address?_eq_some_iff

theorem linkValue?_eq_none (h : here.bytes.length < link.stop) : here.linkValue? link = none := by
  rw [linkValue?, window?, Bytes.window?_eq_none_iff.2 h, Option.bind_none]

/-- A link that is as wide as an address leads to the next block or breaks. -/
theorem leads_or_breaks (space : AddressSpace) (here : LocatedBlock) (next : Block)
    (hwidth : link.width.toNat = 4 ∨ link.width.toNat = 8) :
    (∃ there, here.LeadsTo space link there ∧ there.block = next) ∨
      ∃ fault, here.Breaks space link next fault := by
  cases hvalue : here.linkValue? link with
  | none =>
    refine Or.inr ⟨_, .missing ?_⟩
    -- a link inside the bytes would hold an address, being as wide as one
    by_contra hfits
    have hsome : here.window? link = some ((here.bytes.drop link.offset.toNat).take
        link.width.toNat) := Bytes.window?_eq_some_iff.2 ⟨Nat.le_of_not_lt hfits, rfl⟩
    have hlength := Bytes.length_of_window? hsome
    rw [linkValue?, hsome, Option.bind_some, Bytes.address?, if_pos (by omega)] at hvalue
    cases hvalue
  | some address =>
    have hholds := linkValue?_eq_some_iff.1 hvalue
    -- the checks in the order in which they are made
    by_cases hzero : address = 0
    · exact Or.inr ⟨_, .null (hzero ▸ hholds)⟩
    · by_cases hrange : address.toNat + next.size.toNat ≤ space.limit.toNat
      · cases hread : space.read address next.size with
        | none => exact Or.inr ⟨_, .unmapped hholds hzero hrange hread⟩
        | some bytes => exact Or.inl ⟨⟨next, address, bytes⟩, ⟨hholds, hzero, hrange, hread⟩, rfl⟩
      · exact Or.inr ⟨_, .outOfRange hholds hzero (Nat.lt_of_not_le hrange)⟩

end LocatedBlock

/-! ## Section 2: Following steps -/

section Follow

variable {space : AddressSpace} {terminal : Block} {index : Nat} {here there : LocatedBlock}
  {step : Step} {steps rest : List Step} {fault : LinkFault} {e : WalkError}

/-- Where the link of the first step leads on, the rest is followed from there. -/
theorem follow_of_leadsTo (h : here.LeadsTo space step.link there)
    (hblock : there.block = startOf terminal rest) :
    (follow space terminal index here (step :: rest)).outcome =
      (follow space terminal (index + 1) there rest).outcome := by
  obtain ⟨block, address, bytes⟩ := there
  obtain ⟨hvalue, hnonzero, hrange, hread⟩ := h
  dsimp only at hvalue hnonzero hrange hread hblock
  subst hblock
  -- the checks are those of `LeadsTo`, except for the read
  have htarget : here.target step.link (startOf terminal rest).size space.limit = .ok address := by
    rw [LocatedBlock.target, LocatedBlock.linkValue?_eq_some_iff.2 hvalue]
    dsimp only
    rw [if_neg hnonzero, if_neg (Nat.not_lt.2 hrange)]
  simp only [follow, htarget, Except.mapError, Traced.ofExcept_ok, pure_bind, Traced.outcome_bind,
    Traced.read, hread, Except.bind]

/-- Where the link of the first step breaks, the walk ends with its fault. -/
theorem follow_of_breaks (h : here.Breaks space step.link (startOf terminal rest) fault) :
    (follow space terminal index here (step :: rest)).outcome =
      .error (.brokenLink index step.block.name step.link.name fault) := by
  rw [follow, LocatedBlock.target]
  -- each constructor has the checks that are passed before its own
  cases h with
  | missing hlength =>
    rw [LocatedBlock.linkValue?_eq_none hlength]
    rfl
  | null hholds =>
    rw [LocatedBlock.linkValue?_eq_some_iff.2 hholds]
    rfl
  | outOfRange hholds hnonzero hrange =>
    rw [LocatedBlock.linkValue?_eq_some_iff.2 hholds]
    dsimp only
    rw [if_neg hnonzero, if_pos hrange]
    rfl
  | unmapped hholds hnonzero hrange hread =>
    rw [LocatedBlock.linkValue?_eq_some_iff.2 hholds]
    dsimp only
    rw [if_neg hnonzero, if_neg (Nat.not_lt.2 hrange)]
    simp only [Except.mapError, Traced.ofExcept_ok, pure_bind, Traced.outcome_bind, Traced.read,
      hread, Except.bind]

/-- Block number `i` on the way along `steps`: the one that step number `i` leaves, and
`terminal` after the last step. -/
def nthBlock (terminal : Block) (steps : List Step) (i : Nat) : Block :=
  (steps[i]?.map Step.block).getD terminal

@[simp] theorem nthBlock_length : nthBlock terminal steps steps.length = terminal := by
  rw [nthBlock, List.getElem?_eq_none (Nat.le_refl _)]
  rfl

/-- Block number `i` on the way is the one at which the steps after the first `i` start. -/
theorem nthBlock_eq_startOf_drop (terminal : Block) (steps : List Step) (i : Nat) :
    nthBlock terminal steps i = startOf terminal (steps.drop i) := by
  induction steps generalizing i with
  | nil => rw [List.drop_nil]; rfl
  | cons step rest ih =>
    cases i with
    | zero => rfl
    | succ i => exact ih i

theorem startOf_eq_nthBlock (terminal : Block) (steps : List Step) :
    startOf terminal steps = nthBlock terminal steps 0 :=
  (nthBlock_eq_startOf_drop terminal steps 0).symm

/-- The places `place 0` to `place k` are visited on the way along `steps` from `here`: each link
leads to the next place, which is read as the block that comes next. -/
structure Trail (space : AddressSpace) (terminal : Block) (steps : List Step)
    (here : LocatedBlock) (k : Nat) (place : Nat → LocatedBlock) : Prop where
  start : place 0 = here
  block : ∀ i < k, (place (i + 1)).block = nthBlock terminal steps (i + 1)
  leads : ∀ i (hi : i < steps.length), i < k →
    (place i).LeadsTo space steps[i].link (place (i + 1))

/-- The places of a trail, after one more place before them. -/
def before (here : LocatedBlock) (place : Nat → LocatedBlock) : Nat → LocatedBlock
  | 0 => here
  | i + 1 => place i

variable {k : Nat} {place : Nat → LocatedBlock}

/-- A trail from where the first link leads gives a trail from before that link. -/
theorem Trail.cons (hleads : here.LeadsTo space step.link there)
    (hblock : there.block = startOf terminal rest) (h : Trail space terminal rest there k place) :
    Trail space terminal (step :: rest) here (k + 1) (before here place) where
  start := rfl
  block := by
    intro i hi
    cases i with
    | zero =>
      rw [before, h.start, hblock, startOf_eq_nthBlock]
      rfl
    | succ i => exact h.block i (Nat.lt_of_succ_lt_succ hi)
  leads := by
    intro i hi hik
    cases i with
    | zero =>
      rw [before, before, h.start]
      exact hleads
    | succ i => exact h.leads i (Nat.lt_of_succ_lt_succ hi) (Nat.lt_of_succ_lt_succ hik)

/-- A trail of more than one place goes on, after its first link, as a trail. -/
theorem Trail.tail (h : Trail space terminal (step :: rest) here (k + 1) place) :
    here.LeadsTo space step.link (place 1) ∧ (place 1).block = startOf terminal rest ∧
      Trail space terminal rest (place 1) k (fun i => place (i + 1)) := by
  have hfirst := h.leads 0 (Nat.zero_lt_succ _) (Nat.zero_lt_succ _)
  rw [h.start] at hfirst
  refine ⟨hfirst, ?_, rfl, ?_, ?_⟩
  · rw [startOf_eq_nthBlock]
    exact h.block 0 (Nat.zero_lt_succ _)
  · exact fun i hi => h.block (i + 1) (Nat.succ_lt_succ hi)
  · exact fun i hi hik => h.leads (i + 1) (Nat.succ_lt_succ hi) (Nat.succ_lt_succ hik)

/-- All links are as wide as an address. -/
def AddressWide (steps : List Step) : Prop :=
  ∀ step ∈ steps, step.link.width.toNat = 4 ∨ step.link.width.toNat = 8

/-- Following steps succeeds exactly along a trail that visits a place for each of them. -/
theorem follow_eq_ok_iff (hwide : AddressWide steps) :
    (follow space terminal index here steps).outcome = .ok there ↔
      ∃ place, Trail space terminal steps here steps.length place ∧
        there = place steps.length := by
  -- by induction on the steps, the block that they are followed from being any
  induction steps generalizing index here with
  | nil =>
    constructor
    · intro h
      cases h
      exact ⟨fun _ => there, ⟨rfl, fun i hi => absurd hi (Nat.not_lt_zero i),
        fun i hi => absurd hi (Nat.not_lt_zero i)⟩, rfl⟩
    · rintro ⟨place, htrail, rfl⟩
      rw [List.length_nil, htrail.start]
      rfl
  | cons step rest ih =>
    obtain ⟨hfirst, hrest⟩ := List.forall_mem_cons.1 hwide
    constructor
    · intro h
      rcases here.leads_or_breaks space (startOf terminal rest) hfirst with
        ⟨there', hleads, hblock⟩ | ⟨fault, hbreaks⟩
      · -- the trail of the rest begins where the first link leads
        rw [follow_of_leadsTo hleads hblock] at h
        obtain ⟨place, htrail, rfl⟩ := (ih hrest).1 h
        exact ⟨before here place, htrail.cons hleads hblock, rfl⟩
      · rw [follow_of_breaks hbreaks] at h
        cases h
    · rintro ⟨place, htrail, rfl⟩
      obtain ⟨hleads, hblock, htail⟩ := htrail.tail
      rw [follow_of_leadsTo hleads hblock]
      exact (ih hrest).2 ⟨_, htail, rfl⟩

/-- Following steps fails exactly at the end of a trail out of which the next link breaks. -/
theorem follow_eq_error_iff (hwide : AddressWide steps) :
    (follow space terminal index here steps).outcome = .error e ↔
      ∃ i, ∃ hi : i < steps.length, ∃ place fault, Trail space terminal steps here i place ∧
        (place i).Breaks space steps[i].link (nthBlock terminal steps (i + 1)) fault ∧
        e = .brokenLink (index + i) steps[i].block.name steps[i].link.name fault := by
  -- the number of the step grows with every link that leads on, while `i` counts from here
  induction steps generalizing index here with
  | nil => exact iff_of_false (fun h => by cases h) fun ⟨i, hi, _⟩ => Nat.not_lt_zero i hi
  | cons step rest ih =>
    obtain ⟨hfirst, hrest⟩ := List.forall_mem_cons.1 hwide
    constructor
    · intro h
      rcases here.leads_or_breaks space (startOf terminal rest) hfirst with
        ⟨there, hleads, hblock⟩ | ⟨fault, hbreaks⟩
      · rw [follow_of_leadsTo hleads hblock] at h
        obtain ⟨i, hi, place, fault, htrail, hbreaks, rfl⟩ := (ih hrest).1 h
        refine ⟨i + 1, Nat.succ_lt_succ hi, before here place, fault,
          htrail.cons hleads hblock, hbreaks, ?_⟩
        rw [Nat.add_right_comm, Nat.add_assoc]
        rfl
      · -- a trail of no links, which visits `here` alone
        rw [follow_of_breaks hbreaks] at h
        cases h
        rw [startOf_eq_nthBlock] at hbreaks
        exact ⟨0, Nat.zero_lt_succ _, fun _ => here, fault,
          ⟨rfl, fun i hi => absurd hi (Nat.not_lt_zero i),
            fun i _ hi => absurd hi (Nat.not_lt_zero i)⟩, hbreaks, rfl⟩
    · rintro ⟨i, hi, place, fault, htrail, hbreaks, rfl⟩
      cases i with
      | zero =>
        rw [htrail.start] at hbreaks
        apply follow_of_breaks
        rw [startOf_eq_nthBlock]
        exact hbreaks
      | succ i =>
        obtain ⟨hleads, hblock, htail⟩ := htrail.tail
        rw [follow_of_leadsTo hleads hblock]
        refine (ih hrest).2 ⟨i, Nat.lt_of_succ_lt_succ hi, _, fault, htail, hbreaks, ?_⟩
        rw [Nat.add_right_comm, Nat.add_assoc]
        rfl

end Follow

/-! ## Section 3: Walks along paths -/

namespace Path

variable {c : Catalog} {name terminal : String} {links : List (String × String)} {path : Path}

/-- Block number `i` of a path, of which there is one more than there are steps. -/
def nthBlock (path : Path) (i : Nat) : Block :=
  IplReport.nthBlock path.terminal path.steps i

theorem root_eq_nthBlock (path : Path) : path.root = path.nthBlock 0 :=
  startOf_eq_nthBlock _ _

theorem nthBlock_eq {i : Nat} (hi : i < path.steps.length) :
    path.nthBlock i = path.steps[i].block := by
  rw [nthBlock, IplReport.nthBlock, List.getElem?_eq_getElem hi]
  rfl

/-- The places `place 0` to `place k` are visited on the way along a path from `root`.  The storage
hands back bytes for each of the blocks.  Each link holds the address of the next place, which is
not zero, and where the block ends at or below the limit. -/
structure Trail (path : Path) (space : AddressSpace) (root : UInt64) (k : Nat)
    (place : Nat → LocatedBlock) : Prop where
  root : (place 0).address = root
  block : ∀ i ≤ k, (place i).block = path.nthBlock i
  read : ∀ i ≤ k, space.read (place i).address (path.nthBlock i).size = some (place i).bytes
  value : ∀ i (hi : i < path.steps.length), i < k →
    (place i).bytes.HoldsAddress path.steps[i].link (place (i + 1)).address
  nonzero : ∀ i < k, (place (i + 1)).address ≠ 0
  inRange : ∀ i < k,
    (place (i + 1)).address.toNat + (path.nthBlock (i + 1)).size.toNat ≤ space.limit.toNat

/-- A trail along a path is one along its steps from the root block, which can be read. -/
theorem trail_iff {space : AddressSpace} {root : UInt64} {k : Nat} {place : Nat → LocatedBlock}
    (hk : k ≤ path.steps.length) :
    path.Trail space root k place ↔
      ∃ bytes, space.read root path.root.size = some bytes ∧
        IplReport.Trail space path.terminal path.steps ⟨path.root, root, bytes⟩ k place := by
  constructor
  · intro h
    have hblock := h.block 0 (Nat.zero_le k)
    have hread := h.read 0 (Nat.zero_le k)
    rw [← root_eq_nthBlock] at hblock hread
    rw [h.root] at hread
    refine ⟨(place 0).bytes, hread, ?_, fun i hi => h.block (i + 1) hi, ?_⟩
    · -- a place is known by its block, its address and its bytes
      rw [← hblock, ← h.root]
    · intro i hi hik
      refine ⟨h.value i hi hik, h.nonzero i hik, ?_, ?_⟩
      · rw [h.block (i + 1) hik]
        exact h.inRange i hik
      · rw [h.block (i + 1) hik]
        exact h.read (i + 1) hik
  · rintro ⟨bytes, hread, h⟩
    have hleads : ∀ i (hik : i < k),
        (place i).LeadsTo space (path.steps.get ⟨i, Nat.lt_of_lt_of_le hik hk⟩).link
          (place (i + 1)) := fun i hik => h.leads i _ hik
    have hblock : ∀ i ≤ k, (place i).block = path.nthBlock i := by
      intro i hi
      cases i with
      | zero =>
        rw [h.start]
        exact path.root_eq_nthBlock
      | succ i => exact h.block i hi
    refine ⟨by rw [h.start], hblock, ?_, fun i _ hik => (hleads i hik).value,
      fun i hik => (hleads i hik).nonzero, ?_⟩
    · intro i hi
      cases i with
      | zero =>
        rw [h.start, ← root_eq_nthBlock]
        exact hread
      | succ i =>
        rw [← hblock (i + 1) hi]
        exact (hleads i hi).read
    · intro i hik
      rw [← hblock (i + 1) hik]
      exact (hleads i hik).inRange

/-- A walk first reads the root block and then follows the steps. -/
theorem walk_outcome_eq (path : Path) (space : AddressSpace) (root : UInt64) :
    (path.walk space root).outcome =
      match space.read root path.root.size with
      | none => .error (.rootUnavailable path.root.name root path.root.size)
      | some bytes =>
        (follow space path.terminal 0 ⟨path.root, root, bytes⟩ path.steps).outcome := by
  rw [walk, Traced.outcome_bind]
  cases hread : space.read root path.root.size <;>
    simp only [Traced.read, hread, Except.bind]

/-- Along a trail to the end of a path, the last place is read as the terminal block. -/
theorem Trail.last_eq {space : AddressSpace} {root : UInt64} {place : Nat → LocatedBlock}
    (h : path.Trail space root path.steps.length place) :
    place path.steps.length = ⟨path.terminal, (place path.steps.length).address,
      (place path.steps.length).bytes⟩ := by
  have hblock := h.block path.steps.length (Nat.le_refl _)
  rw [nthBlock, nthBlock_length] at hblock
  rw [← hblock]

/-- A walk ends at the terminal block exactly along a trail with a place for every step and one
more. -/
theorem walk_eq_ok_iff (hwide : AddressWide path.steps) {space : AddressSpace} {root : UInt64}
    {there : LocatedBlock} :
    (path.walk space root).outcome = .ok there ↔
      ∃ place, path.Trail space root path.steps.length place ∧
        there = ⟨path.terminal, (place path.steps.length).address,
          (place path.steps.length).bytes⟩ := by
  rw [walk_outcome_eq]
  cases hread : space.read root path.root.size with
  | none =>
    -- a trail visits the root, so it needs the root block to be read
    refine iff_of_false (by simp) ?_
    rintro ⟨place, htrail, -⟩
    obtain ⟨bytes, hbytes, -⟩ := (trail_iff (Nat.le_refl _)).1 htrail
    rw [hread] at hbytes
    cases hbytes
  | some bytes =>
    rw [follow_eq_ok_iff hwide]
    constructor
    · rintro ⟨place, htrail, rfl⟩
      have htrail' := (trail_iff (Nat.le_refl _)).2 ⟨bytes, hread, htrail⟩
      exact ⟨place, htrail', htrail'.last_eq⟩
    · rintro ⟨place, htrail, rfl⟩
      obtain ⟨bytes', hbytes', htrail'⟩ := (trail_iff (Nat.le_refl _)).1 htrail
      rw [hread, Option.some_inj] at hbytes'
      rw [← hbytes'] at htrail'
      exact ⟨place, htrail', htrail.last_eq.symm⟩

/-- A walk fails exactly if the root block is refused, or at the end of a trail out of which the
next link breaks. -/
theorem walk_eq_error_iff (hwide : AddressWide path.steps) {space : AddressSpace} {root : UInt64}
    {e : WalkError} :
    (path.walk space root).outcome = .error e ↔
      (space.read root path.root.size = none ∧
        e = .rootUnavailable path.root.name root path.root.size) ∨
      ∃ i, ∃ hi : i < path.steps.length, ∃ place fault, path.Trail space root i place ∧
        (place i).Breaks space path.steps[i].link (path.nthBlock (i + 1)) fault ∧
        e = .brokenLink i path.steps[i].block.name path.steps[i].link.name fault := by
  rw [walk_outcome_eq]
  cases hread : space.read root path.root.size with
  | none =>
    constructor
    · intro h
      cases h
      exact Or.inl ⟨rfl, rfl⟩
    · rintro (⟨-, rfl⟩ | ⟨i, hi, place, fault, htrail, -⟩)
      · rfl
      · obtain ⟨bytes, hbytes, -⟩ := (trail_iff (Nat.le_of_lt hi)).1 htrail
        rw [hread] at hbytes
        cases hbytes
  | some bytes =>
    -- steps are counted from zero along a path
    rw [follow_eq_error_iff hwide]
    constructor
    · rintro ⟨i, hi, place, fault, htrail, hbreaks, rfl⟩
      refine Or.inr ⟨i, hi, place, fault, ?_, hbreaks, by rw [Nat.zero_add]⟩
      exact (trail_iff (Nat.le_of_lt hi)).2 ⟨bytes, hread, htrail⟩
    · rintro (⟨hnone, -⟩ | ⟨i, hi, place, fault, htrail, hbreaks, rfl⟩)
      · cases hnone
      · obtain ⟨bytes', hbytes', htrail'⟩ := (trail_iff (Nat.le_of_lt hi)).1 htrail
        rw [hread, Option.some_inj] at hbytes'
        rw [← hbytes'] at htrail'
        exact ⟨i, hi, place, fault, htrail', hbreaks, by rw [Nat.zero_add]⟩

/-- What a walk comes to along a path of a catalog, in any storage and from any root.  It ends at
the terminal block exactly if there is a trail with a place for every step and one more.  It ends
in a fault exactly if the root block is refused, or else there is a trail up to the first link
that breaks; the fault names the step, its block and its link, and the first check that fails. -/
theorem walk_outcome (h : c.path name links terminal = .ok path) (space : AddressSpace)
    (root : UInt64) :
    0 < path.steps.length ∧
    (∀ there, (path.walk space root).outcome = .ok there ↔
      ∃ place, path.Trail space root path.steps.length place ∧
        there = ⟨path.terminal, (place path.steps.length).address,
          (place path.steps.length).bytes⟩) ∧
    (∀ e, (path.walk space root).outcome = .error e ↔
      (space.read root path.root.size = none ∧
        e = .rootUnavailable path.root.name root path.root.size) ∨
      ∃ i, ∃ hi : i < path.steps.length, ∃ place fault, path.Trail space root i place ∧
        (place i).Breaks space path.steps[i].link (path.nthBlock (i + 1)) fault ∧
        e = .brokenLink i path.steps[i].block.name path.steps[i].link.name fault) := by
  -- the catalog has checked its links
  have hwide : AddressWide path.steps := fun step hstep => (Catalog.link_of_path h hstep).2.2
  have hsteps := List.length_pos_of_ne_nil (Catalog.steps_ne_nil_of_path h)
  exact ⟨hsteps, fun there => walk_eq_ok_iff hwide, fun e => walk_eq_error_iff hwide⟩

/-- Storage in which the prefixed save area at zero leads to a vector table of zeros. -/
def zeroTable : AddressSpace where
  limit := 0x80000000
  read address size :=
    if address = 0 then some (List.replicate 18 0 ++ [0x10, 0])
    else some (List.replicate size.toNat 0)

/-- The way to the communications vector table is a path, there is a trail along it in
`zeroTable`, and from a root that is not zero the link out of the root block is null. -/
theorem walk_outcome_zeroTable :
    ∃ path, (Zos.catalog .ebcdic).path "cvt" [("PSA", "PSACVT")] "CVT" = .ok path ∧
      (∃ place, path.Trail zeroTable 0 path.steps.length place ∧
        (place path.steps.length).address = 0x1000) ∧
      ∃ i, ∃ hi : i < path.steps.length, ∃ place, path.Trail zeroTable 8 i place ∧
        (place i).Breaks zeroTable path.steps[i].link (path.nthBlock (i + 1)) .null := by
  have hpath : (Zos.catalog .ebcdic).path "cvt" [("PSA", "PSACVT")] "CVT" =
      .ok ⟨"cvt", [⟨Zos.psa, ⟨"PSACVT", 16, 4, .link⟩⟩], Zos.cvt⟩ := rfl
  refine ⟨_, hpath, ?_, ?_⟩
  · obtain ⟨-, hok, -⟩ := walk_outcome hpath zeroTable 0
    obtain ⟨place, htrail, hthere⟩ := (hok ⟨Zos.cvt, 0x1000, List.replicate 332 0⟩).1 rfl
    exact ⟨place, htrail, (congrArg LocatedBlock.address hthere).symm⟩
  · obtain ⟨-, -, herror⟩ := walk_outcome hpath zeroTable 8
    rcases (herror (.brokenLink 0 "PSA" "PSACVT" .null)).1 rfl with
      ⟨-, h⟩ | ⟨i, hi, place, fault, htrail, hbreaks, h⟩
    · cases h
    · cases h
      exact ⟨0, hi, place, htrail, hbreaks⟩

end Path

end IplReport
