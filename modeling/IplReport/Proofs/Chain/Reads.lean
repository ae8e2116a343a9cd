import IplReport.Proofs.Chain.Trail

/-!
# What a walk reads

A walk is described here by the reads it attempts, whatever comes of them.  The first is that of
the root block.  Another one follows exactly if the read before it succeeded and the link in the
bytes that it gave passes every check, and then it is that of the whole block the link leads to.
So nothing is read at an address that was not checked, and nothing after a check that failed.

Main statements:
- `follow_cons_cases`: what can become of one step;
- `warranted_follow`: which reads are attempted along any steps;
- `Path.checksReads`: the same of a walk along a path, and how many reads there are.
-/

namespace IplReport

/-! ## Section 1: Checks of a link -/

/-- The link in the bytes of a block holds an address at which the block `next` may be read: the
address is not zero, and the block ends there at or below the limit. -/
structure Permits (space : AddressSpace) (bytes : Bytes) (link : Field) (next : Block)
    (address : UInt64) : Prop where
  value : bytes.HoldsAddress link address
  nonzero : address ≠ 0
  inRange : address.toNat + next.size.toNat ≤ space.limit.toNat

section Checks

variable {space : AddressSpace} {here : LocatedBlock} {bytes : Bytes} {link : Field}
  {next : Block} {address address' : UInt64}

theorem Bytes.HoldsAddress.unique (h : bytes.HoldsAddress link address)
    (h' : bytes.HoldsAddress link address') : address = address' := by
  obtain ⟨word, hword, -, hvalue⟩ := h
  obtain ⟨word', hword', -, hvalue'⟩ := h'
  rw [hword, Option.some_inj] at hword'
  subst hword'
  exact UInt64.toNat_inj.1 (hvalue.symm.trans hvalue')

/-- A link has a target exactly if all of its checks are passed. -/
theorem LocatedBlock.target_eq_ok_iff :
    here.target link next.size space.limit = .ok address ↔
      Permits space here.bytes link next address := by
  rw [target]
  constructor
  · intro h
    cases hvalue : here.linkValue? link with
    | none => simp [hvalue] at h
    | some value =>
      rw [hvalue] at h
      dsimp only at h
      split_ifs at h with hzero hrange
      cases h
      exact ⟨linkValue?_eq_some_iff.1 hvalue, hzero, Nat.not_lt.1 hrange⟩
  · rintro ⟨hvalue, hnonzero, hrange⟩
    rw [linkValue?_eq_some_iff.2 hvalue]
    dsimp only
    rw [if_neg hnonzero, if_neg (Nat.not_lt.2 hrange)]

end Checks

/-! ## Section 2: Following steps -/

section Follow

variable {space : AddressSpace} {terminal : Block} {index : Nat} {here : LocatedBlock}
  {step : Step} {steps rest : List Step} {fault : LinkFault} {address : UInt64} {bytes : Bytes}
  {first : Access} {reads : List Access}

/-- What becomes of the first step.  No address passes the checks, and nothing is read; or the block
at the address that does is refused, and its read is the last; or the block is read, and the rest
is followed from there. -/
theorem follow_cons_cases (space : AddressSpace) (terminal : Block) (index : Nat)
    (here : LocatedBlock) (step : Step) (rest : List Step) :
    (∃ fault, (∀ address, ¬Permits space here.bytes step.link (startOf terminal rest) address) ∧
      follow space terminal index here (step :: rest) =
        ⟨[], .error (.brokenLink index step.block.name step.link.name fault)⟩) ∨
    ∃ address, Permits space here.bytes step.link (startOf terminal rest) address ∧
      ((space.read address (startOf terminal rest).size = none ∧
        follow space terminal index here (step :: rest) =
          ⟨[(address, (startOf terminal rest).size)],
            .error (.brokenLink index step.block.name step.link.name
              (.unmapped address (startOf terminal rest).size))⟩) ∨
      ∃ bytes, space.read address (startOf terminal rest).size = some bytes ∧
        follow space terminal index here (step :: rest) =
          let later :=
            follow space terminal (index + 1) ⟨startOf terminal rest, address, bytes⟩ rest
          ⟨(address, (startOf terminal rest).size) :: later.reads, later.outcome⟩) := by
  rw [follow]
  -- the address is checked before anything is read
  cases htarget : here.target step.link (startOf terminal rest).size space.limit with
  | error fault =>
    refine Or.inl ⟨fault, fun address hpermits => ?_, rfl⟩
    rw [LocatedBlock.target_eq_ok_iff.2 hpermits] at htarget
    cases htarget
  | ok address =>
    refine Or.inr ⟨address, LocatedBlock.target_eq_ok_iff.1 htarget, ?_⟩
    simp only [Except.mapError, Traced.ofExcept_ok, pure_bind, Traced.read]
    cases hread : space.read address (startOf terminal rest).size with
    | none => exact Or.inl ⟨rfl, rfl⟩
    | some bytes => exact Or.inr ⟨bytes, rfl, rfl⟩

/-- In reads along steps, another read follows exactly if the one before it succeeded and the link
in its bytes permits it; it is then that of the whole block the link leads to. -/
def Warranted (space : AddressSpace) (terminal : Block) (steps : List Step)
    (reads : List Access) : Prop :=
  ∀ k address size, reads[k + 1]? = some (address, size) ↔
    ∃ hk : k < steps.length, ∃ earlier bytes, reads[k]? = some earlier ∧
      space.read earlier.1 earlier.2 = some bytes ∧
      Permits space bytes steps[k].link (nthBlock terminal steps (k + 1)) address ∧
      size = (nthBlock terminal steps (k + 1)).size

/-- A single read is all there is if no link permits another. -/
theorem warranted_singleton
    (h : ∀ hsteps : 0 < steps.length, ∀ bytes address, space.read first.1 first.2 = some bytes →
      ¬Permits space bytes steps[0].link (nthBlock terminal steps 1) address) :
    Warranted space terminal steps [first] := by
  intro k address size
  refine iff_of_false (by simp) ?_
  rintro ⟨hk, earlier, bytes, hearlier, hread, hpermits, -⟩
  cases k with
  | zero =>
    rw [List.getElem?_cons_zero, Option.some_inj] at hearlier
    subst hearlier
    exact h hk bytes address hread hpermits
  | succ k => simp at hearlier

/-- One more read may come before reads that start where its link leads. -/
theorem warranted_cons (hread : space.read first.1 first.2 = some bytes)
    (hpermits : Permits space bytes step.link (startOf terminal rest) address)
    (hrest : Warranted space terminal rest ((address, (startOf terminal rest).size) :: reads)) :
    Warranted space terminal (step :: rest)
      (first :: (address, (startOf terminal rest).size) :: reads) := by
  rw [startOf_eq_nthBlock] at hpermits hrest ⊢
  intro k address' size
  cases k with
  | zero =>
    rw [List.getElem?_cons_succ, List.getElem?_cons_zero, Option.some_inj, Prod.mk.injEq]
    constructor
    · rintro ⟨rfl, rfl⟩
      exact ⟨Nat.zero_lt_succ _, first, bytes, rfl, hread, hpermits, rfl⟩
    · rintro ⟨_, earlier, bytes', hearlier, hread', hpermits', rfl⟩
      rw [List.getElem?_cons_zero, Option.some_inj] at hearlier
      rw [← hearlier, hread, Option.some_inj] at hread'
      subst hread'
      exact ⟨hpermits.value.unique hpermits'.value, rfl⟩
  | succ k =>
    rw [List.getElem?_cons_succ, hrest k address' size]
    -- the blocks and links of the rest are those after the first step
    constructor
    · rintro ⟨hk, hstep⟩
      exact ⟨Nat.succ_lt_succ hk, hstep⟩
    · rintro ⟨hk, hstep⟩
      exact ⟨Nat.lt_of_succ_lt_succ hk, hstep⟩

/-- The reads on the way along steps are warranted, from that of the block they start from. -/
theorem warranted_follow (hread : space.read here.address here.block.size = some here.bytes) :
    Warranted space terminal steps
      ((here.address, here.block.size) :: (follow space terminal index here steps).reads) := by
  -- by induction on the steps, each of which starts from a block that was read
  induction steps generalizing index here with
  | nil => exact warranted_singleton fun hsteps => absurd hsteps (Nat.not_lt_zero 0)
  | cons step rest ih =>
    rcases follow_cons_cases space terminal index here step rest with
      ⟨fault, hnone, hfollow⟩ | ⟨address, hpermits, ⟨hnext, hfollow⟩ | ⟨bytes, hnext, hfollow⟩⟩
    · rw [hfollow]
      refine warranted_singleton fun _ bytes address hbytes => ?_
      rw [hread, Option.some_inj] at hbytes
      rw [← hbytes]
      rw [startOf_eq_nthBlock] at hnone
      exact hnone address
    · rw [hfollow]
      apply warranted_cons hread hpermits
      -- after a read that was refused no link permits another
      exact warranted_singleton fun _ bytes _ hbytes => by simp [hnext] at hbytes
    · rw [hfollow]
      apply warranted_cons hread hpermits
      exact ih hnext

/-- There is at most one read more than there are steps. -/
theorem Warranted.length_le (h : Warranted space terminal steps reads) :
    reads.length ≤ steps.length + 1 := by
  by_contra hlong
  have hlast : steps.length + 1 < reads.length := Nat.lt_of_not_le hlong
  obtain ⟨hk, -⟩ := (h steps.length _ _).1 (List.getElem?_eq_getElem hlast)
  exact Nat.lt_irrefl _ hk

/-- On the way to the end of the steps there is one read for each. -/
theorem length_reads_of_follow_eq_ok {there : LocatedBlock}
    (h : (follow space terminal index here steps).outcome = .ok there) :
    (follow space terminal index here steps).reads.length = steps.length := by
  induction steps generalizing index here with
  | nil => rfl
  | cons step rest ih =>
    rcases follow_cons_cases space terminal index here step rest with
      ⟨fault, -, hfollow⟩ | ⟨address, -, ⟨-, hfollow⟩ | ⟨bytes, -, hfollow⟩⟩
    · rw [hfollow] at h
      cases h
    · rw [hfollow] at h
      cases h
    · rw [hfollow] at h ⊢
      rw [List.length_cons, List.length_cons, ih h]

/-- Where a link turns out to be broken, there are no more than `n` reads; or there is one more,
which was refused, and which is the one that the fault names. -/
def StopsAfter (space : AddressSpace) (n : Nat) (fault : LinkFault) (reads : List Access) : Prop :=
  reads.length = n ∨ reads.length = n + 1 ∧ ∃ address size, fault = .unmapped address size ∧
    space.read address size = none ∧ reads[n]? = some (address, size)

theorem stopsAfter_cons {n : Nat} (h : StopsAfter space n fault reads) :
    StopsAfter space (n + 1) fault (first :: reads) := by
  rcases h with hlength | ⟨hlength, hrefused⟩
  · exact Or.inl (congrArg (· + 1) hlength)
  · exact Or.inr ⟨congrArg (· + 1) hlength, hrefused⟩

/-- Where a walk breaks off at a step, no more is read than the steps before it and this check. -/
theorem stopsAfter_of_follow_eq_error {e : WalkError}
    (h : (follow space terminal index here steps).outcome = .error e) :
    ∃ i block link fault, e = .brokenLink (index + i) block link fault ∧
      StopsAfter space i fault (follow space terminal index here steps).reads := by
  induction steps generalizing index here with
  | nil => cases h
  | cons step rest ih =>
    rcases follow_cons_cases space terminal index here step rest with
      ⟨fault, -, hfollow⟩ | ⟨address, -, ⟨hnext, hfollow⟩ | ⟨bytes, -, hfollow⟩⟩
    · rw [hfollow] at h ⊢
      cases h
      exact ⟨0, _, _, fault, rfl, Or.inl rfl⟩
    · rw [hfollow] at h ⊢
      cases h
      exact ⟨0, _, _, _, rfl, Or.inr ⟨rfl, address, _, rfl, hnext, rfl⟩⟩
    · rw [hfollow] at h ⊢
      obtain ⟨i, block, link, fault, rfl, hstops⟩ := ih h
      -- one read more, and one step more
      refine ⟨i + 1, block, link, fault, ?_, stopsAfter_cons hstops⟩
      rw [Nat.add_right_comm, Nat.add_assoc]

end Follow

/-! ## Section 3: Walking a path -/

namespace Path

variable {path : Path} {space : AddressSpace} {root : UInt64} {bytes : Bytes}

theorem walk_of_refused (hread : space.read root path.root.size = none) :
    path.walk space root =
      ⟨[(root, path.root.size)],
        .error (.rootUnavailable path.root.name root path.root.size)⟩ := by
  rw [walk]
  simp only [Traced.read, hread]
  rfl

theorem walk_of_read (hread : space.read root path.root.size = some bytes) :
    path.walk space root =
      let later := follow space path.terminal 0 ⟨path.root, root, bytes⟩ path.steps
      ⟨(root, path.root.size) :: later.reads, later.outcome⟩ := by
  rw [walk]
  simp only [Traced.read, hread]
  rfl

/-- What a walk reads: the root block first, and then each next block only if it is warranted.
There is at most one read more than there are steps, and there are as many if the walk succeeds.
If it fails, nothing is read after the check that failed. -/
structure ChecksReads (path : Path) (space : AddressSpace) (root : UInt64) : Prop where
  first : (path.walk space root).reads[0]? = some (root, path.root.size)
  next : Warranted space path.terminal path.steps (path.walk space root).reads
  atMost : (path.walk space root).reads.length ≤ path.steps.length + 1
  onSuccess : ∀ there, (path.walk space root).outcome = .ok there →
    (path.walk space root).reads.length = path.steps.length + 1
  onFailure : ∀ e, (path.walk space root).outcome = .error e →
    (e = .rootUnavailable path.root.name root path.root.size ∧
      (path.walk space root).reads.length = 1) ∨
    ∃ i block link fault, e = .brokenLink i block link fault ∧
      StopsAfter space (i + 1) fault (path.walk space root).reads

/-- Every walk along any path, in any storage and from any root, checks its reads. -/
theorem checksReads (path : Path) (space : AddressSpace) (root : UInt64) :
    path.ChecksReads space root := by
  cases hread : space.read root path.root.size with
  | none =>
    have hwarranted : Warranted space path.terminal path.steps [(root, path.root.size)] :=
      warranted_singleton fun _ bytes _ hbytes => by simp [hread] at hbytes
    have hwalk := walk_of_refused hread
    constructor <;> rw [hwalk]
    case first => rfl
    case next => exact hwarranted
    case atMost => exact hwarranted.length_le
    case onSuccess =>
      intro there h
      cases h
    case onFailure =>
      intro e h
      cases h
      exact Or.inl ⟨rfl, rfl⟩
  | some bytes =>
    have hwarranted : Warranted space path.terminal path.steps
        ((root, path.root.size) ::
          (follow space path.terminal 0 ⟨path.root, root, bytes⟩ path.steps).reads) :=
      warranted_follow hread
    have hwalk := walk_of_read hread
    constructor <;> rw [hwalk]
    case first => rfl
    case next => exact hwarranted
    case atMost => exact hwarranted.length_le
    case onSuccess =>
      intro there h
      rw [List.length_cons, length_reads_of_follow_eq_ok h]
    case onFailure =>
      intro e h
      obtain ⟨i, block, link, fault, rfl, hstops⟩ := stopsAfter_of_follow_eq_error h
      -- steps are counted from zero along a path
      exact Or.inr ⟨i, block, link, fault, by rw [Nat.zero_add], stopsAfter_cons hstops⟩

end Path

end IplReport
