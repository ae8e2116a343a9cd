import IplReport.Proofs.Chain.Reads

/-!
# Walks in parts

A path can be cut at any of its blocks.  A walk along it is then the walk along the first part,
and where that one ends, the walk along the second part goes on, with its steps counted on.  So
the block at the cut is no different from a root, and what comes after it does not matter to a
walk that fails before.

Main statements:
- `follow_append` and `follow_later`: following steps in two parts, and with other numbers;
- `Path.walk_eq_take_bind`: a walk in two parts;
- `Path.walk_in_parts`: the same of the outcomes, for a path of a catalog.
-/

namespace IplReport

/-! ## Section 1: Numbers of steps in errors -/

namespace WalkError

/-- The error of a walk whose first step is counted as number `k`. -/
def later (k : Nat) : WalkError → WalkError
  | brokenLink step block link fault => brokenLink (step + k) block link fault
  | rootUnavailable block address size => rootUnavailable block address size
  | noRoot => noRoot

/-- The walk fails before step number `k`: at its root, or at a step of a lower number. -/
def Before (k : Nat) : WalkError → Prop
  | brokenLink step _ _ _ => step < k
  | rootUnavailable .. => True
  | noRoot => True

end WalkError

/-! ## Section 2: Following steps -/

section Follow

variable {space : AddressSpace} {terminal : Block} {index : Nat} {here : LocatedBlock}

theorem startOf_append (terminal : Block) (first rest : List Step) :
    startOf terminal (first ++ rest) = startOf (startOf terminal rest) first := by
  cases first <;> rfl

/-- Steps can be followed in two parts, the first of which leads to where the second one starts. -/
theorem follow_append (first rest : List Step) :
    follow space terminal index here (first ++ rest) =
      follow space (startOf terminal rest) index here first >>= fun there =>
        follow space terminal (index + first.length) there rest := by
  induction first generalizing index here with
  | nil => simp only [List.nil_append, follow, pure_bind, List.length_nil, Nat.add_zero]
  | cons step later ih =>
    -- each step looks at the block that comes next, which may be the one at the cut
    have hcount : ∀ n, index + 1 + n = index + (n + 1) := by omega
    simp only [List.cons_append, List.length_cons, follow, startOf_append, bind_assoc, ih, hcount]

/-- The number of the first step is seen in errors only. -/
theorem follow_later (k : Nat) (steps : List Step) :
    follow space terminal (index + k) here steps =
      (follow space terminal index here steps).mapError (WalkError.later k) := by
  induction steps generalizing index here with
  | nil => rfl
  | cons step rest ih =>
    have hcount : index + k + 1 = index + 1 + k := by omega
    -- the step number is in the error of a broken link and nowhere else
    have htarget : ∀ target : Except LinkFault UInt64,
        (target.mapError (.brokenLink index step.block.name step.link.name)).mapError
            (WalkError.later k) =
          target.mapError (.brokenLink (index + k) step.block.name step.link.name) := by
      intro target
      cases target <;> rfl
    simp only [follow, Traced.mapError_bind, Traced.mapError_ofExcept, Traced.mapError_read,
      htarget, hcount, ih]
    rfl

/-- Steps that are followed from number `k` on, as those that start from zero. -/
theorem outcome_follow_later (k : Nat) (steps : List Step) :
    (follow space terminal k here steps).outcome =
      (follow space terminal 0 here steps).outcome.mapError (WalkError.later k) := by
  rw [← Traced.outcome_mapError, ← follow_later, Nat.zero_add]

end Follow

/-! ## Section 3: Walks along paths -/

namespace Path

/-- The first `k` steps of a path, which lead to the block of the next one. -/
def take (path : Path) (k : Nat) : Path :=
  ⟨path.name, path.steps.take k, path.nthBlock k⟩

/-- The steps of a path after the first `k`. -/
def drop (path : Path) (k : Nat) : Path :=
  ⟨path.name, path.steps.drop k, path.terminal⟩

variable {c : Catalog} {name terminal : String} {links : List (String × String)}
  {path other : Path} {space : AddressSpace} {root : UInt64} {k : Nat} {there : LocatedBlock}
  {e : WalkError}

theorem terminal_take (path : Path) (k : Nat) : (path.take k).terminal = (path.drop k).root :=
  nthBlock_eq_startOf_drop path.terminal path.steps k

theorem root_take (path : Path) (k : Nat) : (path.take k).root = path.root := by
  have happend := startOf_append path.terminal (path.steps.take k) (path.steps.drop k)
  rw [List.take_append_drop] at happend
  rw [root, terminal_take]
  exact happend.symm

/-- The first steps of a path of a catalog are such a path, to the block of the next step. -/
theorem take_of_path (hpath : c.path name links terminal = .ok path) (hpos : 0 < k)
    (hk : k < links.length) : c.path name (links.take k) links[k].1 = .ok (path.take k) := by
  obtain ⟨hlinks, hname, hsteps, -⟩ := Catalog.path_eq_ok_iff.1 hpath
  have hk' : k < path.steps.length := hsteps.length_eq ▸ hk
  refine Catalog.path_eq_ok_iff.2 ⟨?_, hname, List.forall₂_take k hsteps, ?_⟩
  · rw [Ne, List.take_eq_nil_iff, not_or]
    exact ⟨Nat.ne_of_gt hpos, hlinks⟩
  · have hstep : c.step links[k].1 links[k].2 = .ok path.steps[k] := hsteps.get hk hk'
    rw [take, nthBlock_eq hk']
    exact (Catalog.step_eq_ok_iff.1 hstep).1

/-- The last steps of a path of a catalog are such a path. -/
theorem drop_of_path (hpath : c.path name links terminal = .ok path) (hk : k < links.length) :
    c.path name (links.drop k) terminal = .ok (path.drop k) := by
  obtain ⟨-, hname, hsteps, hterminal⟩ := Catalog.path_eq_ok_iff.1 hpath
  refine Catalog.path_eq_ok_iff.2 ⟨?_, hname, List.forall₂_drop k hsteps, hterminal⟩
  rw [Ne, List.drop_eq_nil_iff, Nat.not_le]
  exact hk

/-- A walk takes the first steps of its path, and the others from where they lead. -/
theorem walk_eq_take_bind (hk : k ≤ path.steps.length) (space : AddressSpace) (root : UInt64) :
    path.walk space root = (path.take k).walk space root >>= fun there =>
      follow space path.terminal k there (path.steps.drop k) := by
  have hsteps := List.take_append_drop k path.steps
  have hlength := List.length_take_of_le hk
  rw [walk, walk, root_take, bind_assoc, terminal_take]
  conv_lhs => rw [← hsteps]
  simp only [follow_append, hlength, Nat.zero_add]
  rfl

/-- Of a walk that succeeds, the terminal block has been read where it ends. -/
theorem read_of_walk (hwide : AddressWide path.steps)
    (h : (path.walk space root).outcome = .ok there) :
    space.read there.address path.terminal.size = some there.bytes ∧
      there = ⟨path.terminal, there.address, there.bytes⟩ := by
  obtain ⟨place, htrail, rfl⟩ := (walk_eq_ok_iff hwide).1 h
  have hread := htrail.read _ (Nat.le_refl _)
  rw [nthBlock, nthBlock_length] at hread
  exact ⟨hread, rfl⟩

/-- Where the first part of a walk fails, the walk does. -/
theorem walk_of_take_error (hk : k ≤ path.steps.length)
    (h : ((path.take k).walk space root).outcome = .error e) :
    (path.walk space root).outcome = .error e := by
  rw [walk_eq_take_bind hk, Traced.outcome_bind, h]
  rfl

/-- Where the first part of a walk ends, the second part starts as from a root, which has been
read already.  Its steps are counted on. -/
theorem walk_of_take_ok (hwide : AddressWide (path.take k).steps) (hk : k ≤ path.steps.length)
    (h : ((path.take k).walk space root).outcome = .ok there) :
    (path.walk space root).outcome =
      ((path.drop k).walk space there.address).outcome.mapError (WalkError.later k) ∧
    ∀ block address size,
      ((path.drop k).walk space there.address).outcome ≠
        .error (.rootUnavailable block address size) := by
  -- the root of the second part is the block that the first part has read last
  obtain ⟨hread, hthere⟩ := read_of_walk hwide h
  rw [terminal_take] at hread hthere
  have hdrop : ((path.drop k).walk space there.address).outcome =
      (follow space path.terminal 0 there (path.steps.drop k)).outcome := by
    rw [walk_of_read hread, hthere]
    rfl
  refine ⟨?_, ?_⟩
  · rw [walk_eq_take_bind hk, Traced.outcome_bind, h, hdrop]
    exact outcome_follow_later k _
  · -- past the root, only links can be broken
    intro block address size herror
    rw [hdrop] at herror
    obtain ⟨i, _, _, _, hbroken, -⟩ := stopsAfter_of_follow_eq_error herror
    cases hbroken

/-- A walk fails before step number `k` exactly if its first part does, with that error. -/
theorem walk_eq_error_iff_take (hk : k ≤ path.steps.length) (he : e.Before k) :
    (path.walk space root).outcome = .error e ↔
      ((path.take k).walk space root).outcome = .error e := by
  refine ⟨fun h => ?_, walk_of_take_error hk⟩
  rw [walk_eq_take_bind hk, Traced.outcome_bind] at h
  cases hfirst : ((path.take k).walk space root).outcome with
  | error e' =>
    rw [hfirst] at h
    exact h
  | ok there =>
    -- the error would be found at step `k` or later
    rw [hfirst] at h
    obtain ⟨i, _, _, _, rfl, -⟩ := stopsAfter_of_follow_eq_error h
    exact absurd he (Nat.not_lt.2 (Nat.le_add_right k i))

/-- The name of a path does not matter to a walk. -/
theorem walk_congr (hsteps : other.steps = path.steps)
    (hterminal : other.terminal = path.terminal) :
    other.walk space root = path.walk space root := by
  cases other
  cases path
  cases hsteps
  cases hterminal
  rfl

/-- A path of a catalog can be cut at the block of any step but the first one, and both parts are
paths of the catalog.  If a walk along the first part fails, the walk along the whole path fails
with the same error.  If it ends at an address, the whole walk comes to what a walk along the second
part comes to that has its root there, save that its steps are counted on; and this root is never
refused.  So two paths with the same steps up to the cut and the same block there fail before it in
the same way. -/
theorem walk_in_parts (hpath : c.path name links terminal = .ok path) (hpos : 0 < k)
    (hk : k < links.length) (space : AddressSpace) (root : UInt64) :
    c.path name (links.take k) links[k].1 = .ok (path.take k) ∧
    c.path name (links.drop k) terminal = .ok (path.drop k) ∧
    (∀ e, ((path.take k).walk space root).outcome = .error e →
      (path.walk space root).outcome = .error e) ∧
    (∀ there, ((path.take k).walk space root).outcome = .ok there →
      (path.walk space root).outcome =
        ((path.drop k).walk space there.address).outcome.mapError (WalkError.later k) ∧
      ∀ block address size, ((path.drop k).walk space there.address).outcome ≠
        .error (.rootUnavailable block address size)) ∧
    ∀ other : Path, other.steps.take k = path.steps.take k → other.nthBlock k = path.nthBlock k →
      ∀ e : WalkError, e.Before k →
        ((other.walk space root).outcome = .error e ↔
          (path.walk space root).outcome = .error e) := by
  have htake := take_of_path hpath hpos hk
  have hwide : AddressWide (path.take k).steps :=
    fun step hstep => (Catalog.link_of_path htake hstep).2.2
  have hlength : k ≤ path.steps.length := by
    obtain ⟨-, -, hsteps, -⟩ := Catalog.path_eq_ok_iff.1 hpath
    rw [← hsteps.length_eq]
    exact Nat.le_of_lt hk
  refine ⟨htake, drop_of_path hpath hk, fun e => walk_of_take_error hlength,
    fun there => walk_of_take_ok hwide hlength, ?_⟩
  intro other hsteps hblock e he
  -- errors before the cut are those of the walks to it, and these walks are one and the same
  have hother : k ≤ other.steps.length := by
    have hcount := congrArg List.length hsteps
    rw [List.length_take, List.length_take_of_le hlength] at hcount
    omega
  have hsame : (other.take k).walk space root = (path.take k).walk space root :=
    walk_congr hsteps hblock
  rw [walk_eq_error_iff_take hother he, walk_eq_error_iff_take hlength he, hsame]

/-- From zero in `zeroTable` the first of three steps leads to a vector table whose links are null.
The walk on from there fails at its step 0, so the whole walk fails at step 1.  From a root that is
not zero the first step fails, and so does that of the path to another extension. -/
theorem walk_in_parts_zeroTable :
    ∃ path other, (Zos.catalog .ebcdic).path "ipa"
        [("PSA", "PSACVT"), ("CVT", "CVTECVT"), ("ECVT", "ECVTIPA")] "IPA" = .ok path ∧
      (Zos.catalog .ebcdic).path "ext2" [("PSA", "PSACVT"), ("CVT", "CVTEXT2")] "CVTEXT2" =
        .ok other ∧
      ((path.drop 1).walk zeroTable 0x1000).outcome = .error (.brokenLink 0 "CVT" "CVTECVT" .null) ∧
      (path.walk zeroTable 0).outcome = .error (.brokenLink 1 "CVT" "CVTECVT" .null) ∧
      (path.walk zeroTable 8).outcome = .error (.brokenLink 0 "PSA" "PSACVT" .null) ∧
      (other.walk zeroTable 8).outcome = .error (.brokenLink 0 "PSA" "PSACVT" .null) := by
  have hpath : (Zos.catalog .ebcdic).path "ipa"
      [("PSA", "PSACVT"), ("CVT", "CVTECVT"), ("ECVT", "ECVTIPA")] "IPA" =
      .ok ⟨"ipa", [⟨Zos.psa, ⟨"PSACVT", 16, 4, .link⟩⟩, ⟨Zos.cvt, ⟨"CVTECVT", 140, 4, .link⟩⟩,
        ⟨Zos.ecvt, ⟨"ECVTIPA", 392, 4, .link⟩⟩], Zos.ipa .ebcdic⟩ := rfl
  have hother : (Zos.catalog .ebcdic).path "ext2" [("PSA", "PSACVT"), ("CVT", "CVTEXT2")]
      "CVTEXT2" = .ok ⟨"ext2", [⟨Zos.psa, ⟨"PSACVT", 16, 4, .link⟩⟩,
        ⟨Zos.cvt, ⟨"CVTEXT2", 328, 4, .link⟩⟩], Zos.cvtExtension2 .ebcdic⟩ := rfl
  have hfails : (Path.walk ⟨"ipa", [⟨Zos.psa, ⟨"PSACVT", 16, 4, .link⟩⟩,
      ⟨Zos.cvt, ⟨"CVTECVT", 140, 4, .link⟩⟩, ⟨Zos.ecvt, ⟨"ECVTIPA", 392, 4, .link⟩⟩],
      Zos.ipa .ebcdic⟩ zeroTable 8).outcome = .error (.brokenLink 0 "PSA" "PSACVT" .null) := rfl
  obtain ⟨-, -, -, hrest, -⟩ := walk_in_parts hpath (k := 1) (by decide) (by decide) zeroTable 0
  obtain ⟨-, -, -, -, hsame⟩ := walk_in_parts hpath (k := 1) (by decide) (by decide) zeroTable 8
  refine ⟨_, _, hpath, hother, by decide +kernel, ?_, hfails, ?_⟩
  · obtain ⟨hwhole, -⟩ := hrest ⟨Zos.cvt, 0x1000, List.replicate 332 0⟩ rfl
    rw [hwhole]
    decide +kernel
  · have hbefore : (WalkError.brokenLink 0 "PSA" "PSACVT" .null).Before 1 := Nat.zero_lt_one
    exact (hsame _ rfl rfl _ hbefore).2 hfails

end Path

end IplReport
