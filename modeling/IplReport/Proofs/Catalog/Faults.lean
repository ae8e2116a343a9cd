import IplReport.Proofs.Catalog.Contents

/-!
# Where a check stops

Both checks go through a list and stop at the first entry that breaks a rule.  So a fault is told
by where the list is cut: what comes before passes, and the next entry has the fault.

Main statements:
- `Block.checkFields_eq_error_iff` and `checkBlocksAfter_eq_error_iff`: faults by that cut;
- `Block.fault_cases_of_sorted`: the faults that are left where fields are in the order of their
  offsets, and `Block.fault_of_sorted`: those that are left where, besides, names are distinct and
  links are as wide as an address.
-/

namespace IplReport

/-! ## Section 1: Checks that stop at a fault -/

section Stopping

variable {α γ ε : Type} {check : List γ → List α → Except ε Unit}
  {fault? : List γ → α → Option ε} {mark : α → γ} {seen : List γ} {xs : List α} {e : ε}

/-- A check that keeps a mark of every entry it has passed, the latest first, ends in an error
exactly if the list can be cut where an entry has that fault and those before it pass. -/
theorem stops_iff (hnil : ∀ seen, check seen [] = .ok ())
    (hpass : ∀ seen x rest, fault? seen x = none →
      check seen (x :: rest) = check (mark x :: seen) rest)
    (hstop : ∀ seen x rest e, fault? seen x = some e → check seen (x :: rest) = .error e) :
    check seen xs = .error e ↔
      ∃ before x after, xs = before ++ x :: after ∧ check seen before = .ok () ∧
        fault? ((before.map mark).reverse ++ seen) x = some e := by
  -- the entries before the fault move over to those that have been passed, one by one
  induction xs generalizing seen with
  | nil => simp [hnil]
  | cons x rest ih =>
    cases hfault : fault? seen x with
    | some fault =>
      rw [hstop seen x rest fault hfault, Except.error.injEq]
      constructor
      · rintro rfl
        exact ⟨[], x, rest, rfl, hnil seen, hfault⟩
      · rintro ⟨before, y, after, hsplit, hok, hy⟩
        cases before with
        | nil =>
          cases hsplit
          exact Option.some.inj (hfault.symm.trans hy)
        | cons z before =>
          -- a list that starts with this fault does not pass
          cases hsplit
          rw [hstop seen x before fault hfault] at hok
          cases hok
    | none =>
      rw [hpass seen x rest hfault, ih]
      constructor
      · rintro ⟨before, y, after, rfl, hok, hy⟩
        refine ⟨x :: before, y, after, rfl, ?_, by simpa using hy⟩
        rw [hpass seen x before hfault]
        exact hok
      · rintro ⟨before, y, after, hsplit, hok, hy⟩
        cases before with
        | nil =>
          cases hsplit
          exact absurd hy (by simp [hfault])
        | cons z before =>
          cases hsplit
          rw [hpass seen x before hfault] at hok
          exact ⟨before, y, after, rfl, hok, by simpa using hy⟩

end Stopping

/-! ## Section 2: Fields of a block -/

namespace Block

variable {b : Block} {fields earlier : List Field} {f : Field} {e : LayoutError}

theorem checkFields_eq_error_iff :
    b.checkFields earlier fields = .error e ↔
      ∃ before f after, fields = before ++ f :: after ∧
        b.checkFields earlier before = .ok () ∧
        b.fieldFault? (before.reverse ++ earlier) f = some e := by
  -- the check is a scan that keeps the fields it has passed, the last one first
  have hstops : b.checkFields earlier fields = .error e ↔
      ∃ before f after, fields = before ++ f :: after ∧
        b.checkFields earlier before = .ok () ∧
        b.fieldFault? ((before.map id).reverse ++ earlier) f = some e := by
    apply stops_iff (fun _ => rfl)
    · intro earlier f rest hnone
      simp [checkFields, hnone]
    · intro earlier f rest e hsome
      simp [checkFields, hsome]
  simpa using hstops

/-- A fault of a field by itself, if it is as wide as an address in case it is a link. -/
theorem placeFault?_of_link (hlink : f.kind = .link → f.width ∈ linkWidths)
    (h : b.placeFault? f = some e) :
    e = .zeroWidth b.name f.name ∨ e = .fieldOutOfBounds b.name f.name f.cappedStop b.size := by
  rw [placeFault?] at h
  split_ifs at h with hwidth hstop hkind
  · exact Or.inl (Option.some.inj h).symm
  · exact Or.inr (Option.some.inj h).symm
  · exact absurd (hlink hkind.1) hkind.2

/-- Of fields in the order of their offsets, a check finds only that one has the name of an earlier
one, is not well placed by itself, or starts inside the field before it. -/
theorem fault_cases_of_sorted (hsorted : b.fields.Pairwise fun f g => f.offset ≤ g.offset)
    (h : b.check = .error e) :
    ∃ before f after, b.fields = before ++ f :: after ∧
      ((e = .duplicateField b.name f.name ∧ ∃ g ∈ before, g.name = f.name) ∨
        b.placeFault? f = some e ∨
        ∃ previous ∈ before, e = .overlap b.name f.name previous.name) := by
  obtain ⟨before, f, after, hsplit, -, hfault⟩ := checkFields_eq_error_iff.1 h
  refine ⟨before, f, after, hsplit, ?_⟩
  rw [List.append_nil, fieldFault?] at hfault
  split_ifs at hfault with hdup
  · exact Or.inl ⟨(Option.some.inj hfault).symm, by simpa using hdup⟩
  · rcases Option.or_eq_some_iff.1 hfault with hplace | ⟨-, horder⟩
    · exact Or.inr (Or.inl hplace)
    · -- the fault lies between the field and the one that was checked last
      obtain ⟨previous, hprevious, horder⟩ := Option.bind_eq_some_iff.1 horder
      rw [List.head?_reverse] at hprevious
      have hmem : previous ∈ before := List.mem_of_getLast? hprevious
      rw [hsplit, List.pairwise_append] at hsorted
      have hle := hsorted.2.2 previous hmem f List.mem_cons_self
      rw [orderFault?, if_neg (UInt64.not_lt.2 hle)] at horder
      split_ifs at horder
      exact Or.inr (Or.inr ⟨previous, hmem, (Option.some.inj horder).symm⟩)

/-- Fields in the order of their offsets are never found out of order. -/
theorem check_ne_outOfOrder (hsorted : b.fields.Pairwise fun f g => f.offset ≤ g.offset)
    (block field : String) (offset : UInt64) (previous : String) (previousOffset : UInt64) :
    b.check ≠ .error (.outOfOrder block field offset previous previousOffset) := by
  intro h
  obtain ⟨_, f, _, -, ⟨he, -⟩ | hplace | ⟨_, -, he⟩⟩ := fault_cases_of_sorted hsorted h
  · cases he
  · rw [placeFault?] at hplace
    split_ifs at hplace <;> cases hplace
  · cases he

/-- Of fields with distinct names, in the order of their offsets and with links as wide as an
address, a check finds only that one has no bytes, does not end inside the block, or starts inside
the field before it. -/
theorem fault_of_sorted (hdistinct : (b.fields.map Field.name).Nodup)
    (hlinks : ∀ f ∈ b.fields, f.kind = .link → f.width ∈ linkWidths)
    (hsorted : b.fields.Pairwise fun f g => f.offset ≤ g.offset) (h : b.check = .error e) :
    ∃ f ∈ b.fields, e = .zeroWidth b.name f.name ∨
      e = .fieldOutOfBounds b.name f.name f.cappedStop b.size ∨
      ∃ previous ∈ b.fields, e = .overlap b.name f.name previous.name := by
  obtain ⟨before, f, after, hsplit, hcases⟩ := fault_cases_of_sorted hsorted h
  have hf : f ∈ b.fields := by simp [hsplit]
  refine ⟨f, hf, ?_⟩
  -- of the three kinds of fault, a name that occurs before is excluded
  rcases hcases with ⟨-, g, hg, hname⟩ | hplace | ⟨previous, hprevious, he⟩
  · rw [hsplit, List.map_append, List.map_cons, List.nodup_append] at hdistinct
    exact absurd hname (hdistinct.2.2 g.name (List.mem_map_of_mem hg) f.name List.mem_cons_self)
  · rcases placeFault?_of_link (hlinks f hf) hplace with hzero | hstop
    · exact Or.inl hzero
    · exact Or.inr (Or.inl hstop)
  · exact Or.inr (Or.inr ⟨previous, by simp [hsplit, hprevious], he⟩)

end Block

/-! ## Section 3: Blocks of a catalog -/

section Blocks

variable {seen : List String} {blocks : List Block} {e : LayoutError}

/-- The first rule that a block breaks after blocks with the names `seen`. -/
def blockFault? (seen : List String) (b : Block) : Option LayoutError :=
  if b.name ∈ seen then
    some (.duplicateBlock b.name)
  else
    match b.check with
    | .error fault => some fault
    | .ok () => none

theorem checkBlocksAfter_eq_error_iff :
    checkBlocksAfter seen blocks = .error e ↔
      ∃ before b after, blocks = before ++ b :: after ∧
        checkBlocksAfter seen before = .ok () ∧
        blockFault? ((before.map Block.name).reverse ++ seen) b = some e := by
  -- a scan that keeps the names of the blocks it has passed
  apply stops_iff (fun _ => rfl)
  · intro seen b rest hnone
    rw [blockFault?] at hnone
    split_ifs at hnone with hseen
    split at hnone
    case h_1 => cases hnone
    case h_2 hcheck => simp [checkBlocksAfter, hseen, hcheck]
  · intro seen b rest e hsome
    rw [blockFault?] at hsome
    split_ifs at hsome with hseen
    · simpa [checkBlocksAfter, hseen] using hsome
    · split at hsome
      case h_1 fault hcheck => simpa [checkBlocksAfter, hseen, hcheck] using hsome
      case h_2 => cases hsome

/-- Where names are distinct, a list of blocks has no other fault than one of its blocks has. -/
theorem fault_of_distinct (hdistinct : (blocks.map Block.name).Nodup)
    (h : checkBlocks blocks = .error e) : ∃ b ∈ blocks, b.check = .error e := by
  obtain ⟨before, b, after, hsplit, -, hfault⟩ := checkBlocksAfter_eq_error_iff.1 h
  rw [hsplit, List.map_append, List.map_cons, List.nodup_append] at hdistinct
  have hfresh : b.name ∉ (before.map Block.name).reverse ++ [] := by
    simp only [List.append_nil, List.mem_reverse]
    intro hmem
    exact hdistinct.2.2 b.name hmem b.name List.mem_cons_self rfl
  rw [blockFault?, if_neg hfresh] at hfault
  refine ⟨b, by simp [hsplit], ?_⟩
  split at hfault
  case h_1 fault hcheck => rw [hcheck, Option.some.inj hfault]
  case h_2 => cases hfault

end Blocks

end IplReport
