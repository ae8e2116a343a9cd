import IplReport.Proofs.Block.Reposition
import IplReport.Proofs.Catalog.Faults
import Mathlib.Data.Nat.Basic
import Mathlib.Order.Interval.Set.Defs

/-!
# Which fault is reported

A check reports one fault, though a description may have many.  Here the rules for fields are stated
one by one, each without regard to the others, and in the order in which they count.  What a check
reports is the first rule that is broken by the first field that breaks one.  So the report depends
on no later field, and it says what is the case: fields that are said to overlap share a byte.

Main statements:
- `stops_at_iff` and `stops_at_of_fault`: a check that stops at a fault, told by the number of the
  entry;
- `Block.fieldFault?_eq_some_iff`: of the rules a field breaks, the first is reported;
- `Catalog.first_fault`: what the checks of a block and of a catalog report.
-/

namespace IplReport

/-! ## Section 1: The entry that a check stops at -/

section Stopping

variable {α ε : Type} {check : List α → Except ε Unit} {fault? : List α → α → Option ε}
  {xs : List α} {e : ε}

/-- A fault of an entry, those before it having passed, is reported whatever comes after it. -/
theorem stops_at_of_fault
    (hstops : ∀ xs e, check xs = .error e ↔
      ∃ before x after, xs = before ++ x :: after ∧ check before = .ok () ∧
        fault? before x = some e)
    {i : Nat} (hi : i < xs.length) (hok : check (xs.take i) = .ok ())
    (hfault : fault? (xs.take i) xs[i] = some e) (later : List α) :
    check (xs.take (i + 1) ++ later) = .error e := by
  refine (hstops _ e).2 ⟨xs.take i, xs[i], later, ?_, hok, hfault⟩
  rw [List.take_succ_eq_append_getElem hi, List.append_assoc, List.singleton_append]

/-- A check that stops at the first fault is told by the number of an entry, all beginnings of the
list up to this entry having passed. -/
theorem stops_at_iff
    (hstops : ∀ xs e, check xs = .error e ↔
      ∃ before x after, xs = before ++ x :: after ∧ check before = .ok () ∧
        fault? before x = some e) :
    check xs = .error e ↔
      ∃ i, ∃ hi : i < xs.length, (∀ n ≤ i, check (xs.take n) = .ok ()) ∧
        fault? (xs.take i) xs[i] = some e := by
  constructor
  · intro h
    obtain ⟨before, x, after, rfl, hok, hfault⟩ := (hstops xs e).1 h
    have hi : before.length < (before ++ x :: after).length := by simp
    refine ⟨before.length, hi, ?_, by simpa using hfault⟩
    intro n hn
    rw [List.take_append_of_le_length hn]
    -- a fault in a beginning of the entries that pass would be one of these entries
    cases hcheck : check (before.take n) with
    | ok => rfl
    | error e' =>
      obtain ⟨sooner, y, rest, hsplit, hsooner, hy⟩ := (hstops _ e').1 hcheck
      have hbefore : check before = .error e' := by
        refine (hstops before e').2 ⟨sooner, y, rest ++ before.drop n, ?_, hsooner, hy⟩
        rw [← List.cons_append, ← List.append_assoc, ← hsplit, List.take_append_drop]
      rw [hok] at hbefore
      cases hbefore
  · rintro ⟨i, hi, hok, hfault⟩
    have hwhole := stops_at_of_fault hstops hi (hok i (Nat.le_refl i)) hfault (xs.drop (i + 1))
    rwa [List.take_append_drop] at hwhole

end Stopping

namespace Block

/-! ## Section 2: The rules for a field -/

/-- What is wrong with a field `f` that comes after the fields `before`, by the number of the rule
that it breaks.  The rules are independent of each other, and a field may break several of them. -/
inductive Defect (b : Block) (before : List Field) (f : Field) : Nat → LayoutError → Prop where
  /-- An earlier field has the same name. -/
  | duplicate : f.name ∈ before.map Field.name →
      Defect b before f 0 (.duplicateField b.name f.name)
  /-- The field has no bytes. -/
  | zeroWidth : f.width = 0 → Defect b before f 1 (.zeroWidth b.name f.name)
  /-- The field ends past its block.  Its end is told exactly if it is a 64-bit number, and else as
  the highest of these. -/
  | outOfBounds {stop : UInt64} : b.size.toNat < f.offset.toNat + f.width.toNat →
      stop.toNat = min (f.offset.toNat + f.width.toNat) 0xffffffffffffffff →
      Defect b before f 2 (.fieldOutOfBounds b.name f.name stop b.size)
  /-- The field is a link and not as wide as an address. -/
  | badLink : f.kind = .link → f.width ≠ 4 → f.width ≠ 8 →
      Defect b before f 3 (.badLinkWidth b.name f.name f.width)
  /-- The field starts before the one that precedes it. -/
  | outOfOrder {previous : Field} : before.getLast? = some previous →
      f.offset.toNat < previous.offset.toNat →
      Defect b before f 4 (.outOfOrder b.name f.name f.offset previous.name previous.offset)
  /-- The field and the one that precedes it have a byte in common. -/
  | overlap {previous : Field} {position : Nat} : before.getLast? = some previous →
      position ∈ Set.Ico previous.offset.toNat (previous.offset.toNat + previous.width.toNat) →
      position ∈ Set.Ico f.offset.toNat (f.offset.toNat + f.width.toNat) →
      Defect b before f 5 (.overlap b.name f.name previous.name)

/-- A field keeps the first `n` rules. -/
def Keeps (b : Block) (before : List Field) (f : Field) (n : Nat) : Prop :=
  ∀ rule < n, ∀ e, ¬b.Defect before f rule e

/-- The error stands for a rule that a field breaks, and the field keeps all rules before it. -/
def FirstDefect (b : Block) (before : List Field) (f : Field) (e : LayoutError) : Prop :=
  ∃ rule, b.Defect before f rule e ∧ b.Keeps before f rule

variable {b : Block} {before earlier : List Field} {f previous : Field} {n : Nat} {e : LayoutError}

theorem keeps_zero : b.Keeps before f 0 :=
  fun rule hrule => absurd hrule (Nat.not_lt_zero rule)

theorem Keeps.succ (h : b.Keeps before f n) (hn : ∀ e, ¬b.Defect before f n e) :
    b.Keeps before f (n + 1) := by
  intro rule hrule
  rcases Nat.lt_succ_iff_lt_or_eq.1 hrule with hlt | rfl
  · exact h rule hlt
  · exact hn

theorem keeps_one (h : f.name ∉ before.map Field.name) : b.Keeps before f 1 := by
  refine keeps_zero.succ fun e hdefect => ?_
  cases hdefect with
  | duplicate hname => exact h hname

theorem Keeps.two (h : b.Keeps before f 1) (hwidth : f.width ≠ 0) : b.Keeps before f 2 := by
  refine h.succ fun e hdefect => ?_
  cases hdefect with
  | zeroWidth hzero => exact hwidth hzero

theorem Keeps.three (h : b.Keeps before f 2) (hstop : f.stop ≤ b.size.toNat) :
    b.Keeps before f 3 := by
  refine h.succ fun e hdefect => ?_
  cases hdefect with
  | outOfBounds hpast => exact Nat.not_lt.2 hstop hpast

theorem Keeps.four (h : b.Keeps before f 3) (hlink : f.kind = .link → f.width ∈ linkWidths) :
    b.Keeps before f 4 := by
  refine h.succ fun e hdefect => ?_
  cases hdefect with
  | badLink hkind hfour height =>
    have hwidth := hlink hkind
    simp [linkWidths, hfour, height] at hwidth

/-- A field with a new name that is well placed by itself keeps all rules but those of order. -/
theorem keeps_four_of_admits (hname : f.name ∉ before.map Field.name) (hadmits : b.Admits f) :
    b.Keeps before f 4 :=
  (((keeps_one hname).two hadmits.width).three hadmits.stop).four hadmits.link

theorem Keeps.five (h : b.Keeps before f 4) (hlast : before.getLast? = some previous)
    (horder : previous.offset.toNat ≤ f.offset.toNat) : b.Keeps before f 5 := by
  refine h.succ fun e hdefect => ?_
  cases hdefect with
  | outOfOrder hlast' hearlier =>
    rw [hlast, Option.some.injEq] at hlast'
    subst hlast'
    exact Nat.not_lt.2 horder hearlier

/-- A rule is broken in one way only. -/
theorem Defect.unique {e' : LayoutError} (h : b.Defect before f n e) (h' : b.Defect before f n e') :
    e = e' := by
  cases h with
  | duplicate =>
    cases h'
    rfl
  | zeroWidth =>
    cases h'
    rfl
  | outOfBounds _ hstop =>
    cases h' with
    | outOfBounds _ hstop' => rw [UInt64.toNat_inj.1 (hstop.trans hstop'.symm)]
  | badLink =>
    cases h'
    rfl
  | outOfOrder hlast =>
    cases h' with
    | outOfOrder hlast' =>
      rw [hlast, Option.some.injEq] at hlast'
      rw [hlast']
  | overlap hlast =>
    cases h' with
    | overlap hlast' =>
      rw [hlast, Option.some.injEq] at hlast'
      rw [hlast']

theorem FirstDefect.unique {e' : LayoutError} (h : b.FirstDefect before f e)
    (h' : b.FirstDefect before f e') : e = e' := by
  obtain ⟨rule, hdefect, hkeeps⟩ := h
  obtain ⟨rule', hdefect', hkeeps'⟩ := h'
  rcases Nat.lt_trichotomy rule rule' with hlt | rfl | hlt
  · exact absurd hdefect (hkeeps' rule hlt e)
  · exact hdefect.unique hdefect'
  · exact absurd hdefect' (hkeeps rule' hlt e')

/-! ## Section 3: The rule that is reported -/

/-- What is found wrong with the place of a field, its name being new, is its first defect. -/
theorem firstDefect_of_placeFault? (hname : f.name ∉ before.map Field.name)
    (h : b.placeFault? f = some e) : b.FirstDefect before f e := by
  have hone : b.Keeps before f 1 := keeps_one hname
  -- each check that is passed gives one more rule that the field keeps
  rw [placeFault?] at h
  split_ifs at h with hwidth hstop hlink
  · cases h
    exact ⟨1, .zeroWidth hwidth, hone⟩
  · cases h
    exact ⟨2, .outOfBounds hstop f.toNat_cappedStop, hone.two hwidth⟩
  · cases h
    have hwidths : f.width ≠ 4 ∧ f.width ≠ 8 := by simpa [linkWidths] using hlink.2
    have hthree : b.Keeps before f 3 := (hone.two hwidth).three (Nat.le_of_not_lt hstop)
    exact ⟨3, .badLink hlink.1 hwidths.1 hwidths.2, hthree⟩

/-- What is found wrong with a field next to the one that precedes it, its name being new and its
place being right, is its first defect. -/
theorem firstDefect_of_orderFault? (hname : f.name ∉ before.map Field.name) (hadmits : b.Admits f)
    (hlast : before.getLast? = some previous) (h : b.orderFault? previous f = some e) :
    b.FirstDefect before f e := by
  have hfour : b.Keeps before f 4 := keeps_four_of_admits hname hadmits
  rw [orderFault?] at h
  split_ifs at h with hearlier hinside
  · cases h
    exact ⟨4, .outOfOrder hlast (UInt64.lt_iff_toNat_lt.1 hearlier), hfour⟩
  · cases h
    -- the first byte of the field is one that both of them have
    have horder : previous.offset.toNat ≤ f.offset.toNat :=
      UInt64.le_iff_toNat_le.1 (UInt64.not_lt.1 hearlier)
    have hbytes : f.offset.toNat < f.stop := Field.offset_lt_stop hadmits.width
    exact ⟨5, .overlap hlast ⟨horder, hinside⟩ ⟨le_rfl, hbytes⟩, hfour.five hlast horder⟩

/-- Of the rules that a field breaks, the first is reported. -/
theorem firstDefect_of_fieldFault? (h : b.fieldFault? earlier f = some e) :
    b.FirstDefect earlier.reverse f e := by
  rw [fieldFault?] at h
  split_ifs at h with hdup
  · cases h
    exact ⟨0, .duplicate (by simpa using hdup), keeps_zero⟩
  · have hname : f.name ∉ earlier.reverse.map Field.name := by simpa using hdup
    rcases Option.or_eq_some_iff.1 h with hplace | ⟨hplace, horder⟩
    · exact firstDefect_of_placeFault? hname hplace
    · obtain ⟨previous, hprevious, horder⟩ := Option.bind_eq_some_iff.1 horder
      -- the field that was checked last is the last one in order of declaration
      have hlast : earlier.reverse.getLast? = some previous := by
        rw [List.getLast?_reverse, hprevious]
      exact firstDefect_of_orderFault? hname (placeFault?_eq_none_iff.1 hplace) hlast horder

/-- A field in which no fault is found breaks no rule. -/
theorem not_defect_of_fieldFault? (h : b.fieldFault? earlier f = none) :
    ¬b.Defect earlier.reverse f n e := by
  rw [fieldFault?] at h
  split_ifs at h with hdup
  have hname : f.name ∉ earlier.reverse.map Field.name := by simpa using hdup
  rw [Option.or_eq_none_iff, placeFault?_eq_none_iff] at h
  obtain ⟨hadmits, horder⟩ := h
  have hlatest : ∀ previous, earlier.reverse.getLast? = some previous →
      previous.stop ≤ f.offset.toNat := by
    intro previous hlast
    rw [List.getLast?_reverse] at hlast
    rw [hlast, Option.bind_some, orderFault?_eq_none_iff] at horder
    exact horder
  intro hdefect
  by_cases hrule : n < 4
  · exact keeps_four_of_admits hname hadmits n hrule e hdefect
  · -- the two rules that are left would have the field start before the latest one ends
    cases hdefect with
    | @outOfOrder previous hlast hearlier =>
      have hstop := hlatest previous hlast
      exact absurd (Nat.lt_of_le_of_lt hstop hearlier) (Nat.not_lt.2 previous.offset_le_stop)
    | @overlap previous position hlast hprevious hposition =>
      have hstop := hlatest previous hlast
      exact absurd (Nat.lt_of_lt_of_le hprevious.2 hstop) (Nat.not_lt.2 hposition.1)
    | _ => exact absurd (by decide) hrule

/-- The report of a field is its first defect, and there is none if it breaks no rule. -/
theorem fieldFault?_eq_some_iff :
    b.fieldFault? earlier f = some e ↔ b.FirstDefect earlier.reverse f e := by
  refine ⟨firstDefect_of_fieldFault?, fun hfirst => ?_⟩
  cases hfault : b.fieldFault? earlier f with
  | some e' => rw [(firstDefect_of_fieldFault? hfault).unique hfirst]
  | none =>
    obtain ⟨rule, hdefect, -⟩ := hfirst
    exact absurd hdefect (not_defect_of_fieldFault? hfault)

/-! ## Section 4: The fault of a block -/

def setFields (b : Block) (fields : List Field) : Block :=
  { b with fields := fields }

/-- Fields are checked by the name and the size of their block alone. -/
theorem checkFields_setFields (b : Block) (others earlier fields : List Field) :
    (b.setFields others).checkFields earlier fields = b.checkFields earlier fields := by
  induction fields generalizing earlier with
  | nil => rfl
  | cons f rest ih =>
    have hfault : (b.setFields others).fieldFault? earlier f = b.fieldFault? earlier f := rfl
    simp only [checkFields, hfault, ih]

theorem check_setFields (b : Block) (fields : List Field) :
    (b.setFields fields).check = b.checkFields [] fields :=
  b.checkFields_setFields fields [] fields

/-- The fault of a block is the first defect of its field number `i`.  The fields before it pass. -/
structure FaultAt (b : Block) (i : Nat) (e : LayoutError) : Prop where
  lt : i < b.fields.length
  passes : ∀ n ≤ i, (b.setFields (b.fields.take n)).check = .ok ()
  first : b.FirstDefect (b.fields.take i) b.fields[i] e

theorem checkFields_stops (b : Block) (fields : List Field) (e : LayoutError) :
    b.checkFields [] fields = .error e ↔
      ∃ before f after, fields = before ++ f :: after ∧ b.checkFields [] before = .ok () ∧
        b.fieldFault? before.reverse f = some e := by
  rw [checkFields_eq_error_iff]
  simp only [List.append_nil]

theorem faultAt_iff {i : Nat} : b.FaultAt i e ↔
    ∃ hi : i < b.fields.length, (∀ n ≤ i, b.checkFields [] (b.fields.take n) = .ok ()) ∧
      b.fieldFault? (b.fields.take i).reverse b.fields[i] = some e := by
  simp only [fieldFault?_eq_some_iff, List.reverse_reverse, ← check_setFields]
  exact ⟨fun h => ⟨h.lt, h.passes, h.first⟩, fun ⟨hi, hok, hfirst⟩ => ⟨hi, hok, hfirst⟩⟩

/-- A check of a block reports the first defect of the first field that has one. -/
theorem check_eq_error_iff : b.check = .error e ↔ ∃ i, b.FaultAt i e := by
  simp only [faultAt_iff]
  exact stops_at_iff b.checkFields_stops

/-- The fault of a field is reported whatever fields come after it. -/
theorem FaultAt.check_append {i : Nat} (h : b.FaultAt i e) (later : List Field) :
    (b.setFields (b.fields.take (i + 1) ++ later)).check = .error e := by
  obtain ⟨hi, hok, hfault⟩ := faultAt_iff.1 h
  rw [check_setFields]
  exact stops_at_of_fault b.checkFields_stops hi (hok i (Nat.le_refl i)) hfault later

end Block

/-! ## Section 5: The fault of a catalog -/

namespace Catalog

variable {seen : List String} {blocks : List Block} {b : Block} {e : LayoutError}

theorem exists_ofBlocks_iff : (∃ c, ofBlocks blocks = .ok c) ↔ checkBlocks blocks = .ok () := by
  constructor
  · rintro ⟨c, hc⟩
    exact (ofBlocks_eq_ok_iff.1 hc).1
  · intro hchecked
    exact ⟨⟨blocks, hchecked⟩, ofBlocks_eq_ok_iff.2 ⟨hchecked, rfl⟩⟩

theorem ofBlocks_eq_error_iff : ofBlocks blocks = .error e ↔ checkBlocks blocks = .error e := by
  rw [ofBlocks]
  split
  case h_1 h => simp [h]
  case h_2 fault h => simp [h]

/-- The fault of a list of blocks is that of its block number `j`: a block before it has its name,
or else the check of the block reports this fault.  The blocks before it make a catalog. -/
structure FaultAt (blocks : List Block) (j : Nat) (e : LayoutError) : Prop where
  lt : j < blocks.length
  passes : ∀ n ≤ j, ∃ c, ofBlocks (blocks.take n) = .ok c
  first : (blocks[j].name ∈ (blocks.take j).map Block.name ∧ e = .duplicateBlock blocks[j].name) ∨
    (blocks[j].name ∉ (blocks.take j).map Block.name ∧ blocks[j].check = .error e)

theorem blockFault?_eq_some_iff : blockFault? seen b = some e ↔
    (b.name ∈ seen ∧ e = .duplicateBlock b.name) ∨ (b.name ∉ seen ∧ b.check = .error e) := by
  rw [blockFault?]
  split_ifs with hseen
  · simp [hseen, eq_comm]
  · split
    case h_1 fault hcheck => simp [hseen, hcheck]
    case h_2 hcheck => simp [hseen, hcheck]

theorem checkBlocks_stops (blocks : List Block) (e : LayoutError) :
    checkBlocks blocks = .error e ↔
      ∃ before b after, blocks = before ++ b :: after ∧ checkBlocks before = .ok () ∧
        blockFault? (before.map Block.name).reverse b = some e := by
  simp only [checkBlocks]
  rw [checkBlocksAfter_eq_error_iff]
  simp only [List.append_nil]

theorem faultAt_iff {j : Nat} : FaultAt blocks j e ↔
    ∃ hj : j < blocks.length, (∀ n ≤ j, checkBlocks (blocks.take n) = .ok ()) ∧
      blockFault? ((blocks.take j).map Block.name).reverse blocks[j] = some e := by
  simp only [blockFault?_eq_some_iff, List.mem_reverse, ← exists_ofBlocks_iff]
  exact ⟨fun h => ⟨h.lt, h.passes, h.first⟩, fun ⟨hj, hok, hfirst⟩ => ⟨hj, hok, hfirst⟩⟩

/-- A list of blocks is refused with the fault of the first block that has one. -/
theorem ofBlocks_eq_error_iff_faultAt : ofBlocks blocks = .error e ↔ ∃ j, FaultAt blocks j e := by
  simp only [ofBlocks_eq_error_iff, faultAt_iff]
  exact stops_at_iff checkBlocks_stops

/-- The fault of a block is reported whatever blocks come after it. -/
theorem FaultAt.ofBlocks_append {j : Nat} (h : FaultAt blocks j e) (later : List Block) :
    ofBlocks (blocks.take (j + 1) ++ later) = .error e := by
  obtain ⟨hj, hok, hfault⟩ := faultAt_iff.1 h
  rw [ofBlocks_eq_error_iff]
  exact stops_at_of_fault checkBlocks_stops hj (hok j (Nat.le_refl j)) hfault later

/-- What the checks report.  A block is rejected exactly if one of its fields breaks a rule and
those before it pass, and the report is the first rule that this field breaks.  The block is
rejected with the same report if it is cut after this field, and if other fields come after it.
Likewise a list of blocks is rejected at the first block that has the name of one before it or that
its own check rejects, whatever blocks come after it. -/
theorem first_fault :
    (∀ (b : Block) (e : LayoutError),
      (b.check = .error e ↔ ∃ i, b.FaultAt i e) ∧
      ∀ i, b.FaultAt i e →
        (b.setFields (b.fields.take (i + 1))).check = .error e ∧
        ∀ later, (b.setFields (b.fields.take (i + 1) ++ later)).check = .error e) ∧
    ∀ (blocks : List Block) (e : LayoutError),
      (ofBlocks blocks = .error e ↔ ∃ j, FaultAt blocks j e) ∧
      ∀ j, FaultAt blocks j e →
        ofBlocks (blocks.take (j + 1)) = .error e ∧
        ∀ later, ofBlocks (blocks.take (j + 1) ++ later) = .error e := by
  constructor
  · intro b e
    refine ⟨Block.check_eq_error_iff, fun i h => ⟨?_, h.check_append⟩⟩
    -- a cut after the field leaves no later fields
    simpa using h.check_append []
  · intro blocks e
    refine ⟨ofBlocks_eq_error_iff_faultAt, fun j h => ⟨?_, h.ofBlocks_append⟩⟩
    simpa using h.ofBlocks_append []

/-- A block whose second field breaks the last three rules, and whose third the first two. -/
def tangled : Block :=
  ⟨"B", 16, [⟨"P", 4, 8, .padding⟩, ⟨"Q", 2, 3, .link⟩, ⟨"P", 0, 0, .link⟩]⟩

/-- The second field is too narrow for a link, starts before the first and shares a byte with it.
Of these three the width is reported, and it is so whatever fields come after. -/
theorem first_fault_tangled :
    tangled.Defect [⟨"P", 4, 8, .padding⟩] ⟨"Q", 2, 3, .link⟩ 4 (.outOfOrder "B" "Q" 2 "P" 4) ∧
      tangled.Defect [⟨"P", 4, 8, .padding⟩] ⟨"Q", 2, 3, .link⟩ 5 (.overlap "B" "Q" "P") ∧
      tangled.FirstDefect [⟨"P", 4, 8, .padding⟩] ⟨"Q", 2, 3, .link⟩ (.badLinkWidth "B" "Q" 3) ∧
      ∀ later, (tangled.setFields (tangled.fields.take 2 ++ later)).check =
        .error (.badLinkWidth "B" "Q" 3) := by
  have hlast : [(⟨"P", 4, 8, .padding⟩ : Field)].getLast? = some ⟨"P", 4, 8, .padding⟩ := rfl
  have horder : tangled.Defect [⟨"P", 4, 8, .padding⟩] ⟨"Q", 2, 3, .link⟩ 4
      (.outOfOrder "B" "Q" 2 "P" 4) :=
    Block.Defect.outOfOrder (b := tangled) (f := ⟨"Q", 2, 3, .link⟩) hlast (by decide)
  have hoverlap : tangled.Defect [⟨"P", 4, 8, .padding⟩] ⟨"Q", 2, 3, .link⟩ 5
      (.overlap "B" "Q" "P") := .overlap hlast ⟨le_rfl, by decide⟩ ⟨by decide, by decide⟩
  obtain ⟨hreport, hlater⟩ := first_fault.1 tangled (.badLinkWidth "B" "Q" 3)
  obtain ⟨i, hfault⟩ := hreport.1 rfl
  obtain ⟨hcut, hmore⟩ := hlater i hfault
  match i with
  | 0 => cases hcut
  | 1 => exact ⟨horder, hoverlap, hfault.first, hmore⟩
  | n + 2 =>
    -- the first two fields would pass
    have htwo := hfault.passes 2 (by omega)
    cases htwo

end Catalog

end IplReport
