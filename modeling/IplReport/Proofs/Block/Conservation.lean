import IplReport.Proofs.Block.Reposition
import IplReport.Proofs.Catalog.Faults

/-!
# What a move conserves

A text field can be moved in any block, also in one that is not sound: names may occur twice, and
fields may overlap and be in any order.  A move that is refused changes nothing.  One that is made
loses no field but the padding in its way, doubles none, and leaves fields that start at one offset
in the order they had.

Main statements:
- `filter_sortByOffset`: sorting keeps the order of fields that start at one offset;
- `reposition_eq_ok_iff_cutAt` and `reposition_eq_error_iff`: which moves are made or refused;
- `run_repositionInPlace`: fields that are changed one step after the other come to the same;
- `reposition_conserves_fields`: all that a move does to a block.
-/

namespace IplReport

/-! ## Section 1: Fields that start at one offset -/

section Stability

variable {f : Field} {fields : List Field}

theorem filter_insertByOffset (offset : UInt64) :
    (insertByOffset f fields).filter (fun g => g.offset = offset) =
      (f :: fields).filter fun g => g.offset = offset := by
  induction fields with
  | nil => rfl
  | cons g rest ih =>
    unfold insertByOffset
    split
    case isTrue hlt =>
      -- no more than one of the two starts at the offset, so either may come first
      have hne : ¬(g.offset = offset ∧ f.offset = offset) := by
        rintro ⟨hg, hf⟩
        rw [hg, hf] at hlt
        exact UInt64.lt_irrefl offset hlt
      simp only [List.filter_cons, decide_eq_true_eq] at ih ⊢
      rw [ih]
      split_ifs with hg hf
      · exact absurd ⟨hg, hf⟩ hne
      all_goals rfl
    case isFalse => rfl

/-- Sorting keeps the order of fields that start at one offset. -/
theorem filter_sortByOffset (fields : List Field) (offset : UInt64) :
    (sortByOffset fields).filter (fun g => g.offset = offset) =
      fields.filter fun g => g.offset = offset := by
  induction fields with
  | nil => rfl
  | cons f rest ih =>
    rw [sortByOffset, filter_insertByOffset, List.filter_cons, List.filter_cons, ih]

end Stability

/-! ## Section 2: Ranges that are shared -/

namespace Field

variable {f g : Field}

/-- Each of two fields starts before the other one stops.  A stop past the highest 64-bit number is
taken for that number. -/
def SharesRange (f g : Field) : Prop :=
  f.offset.toNat < min g.stop 0xffffffffffffffff ∧ g.offset.toNat < min f.stop 0xffffffffffffffff

instance (f g : Field) : Decidable (f.SharesRange g) :=
  inferInstanceAs (Decidable (_ ∧ _))

theorem overlaps_iff : f.overlaps g = true ↔ f.SharesRange g := by
  simp only [overlaps, SharesRange, Bool.and_eq_true, decide_eq_true_eq, UInt64.lt_iff_toNat_lt,
    toNat_cappedStop]

/-- Fields that have bytes and stop at 64-bit numbers share a range exactly if they share a byte. -/
theorem sharesRange_iff_exists_mem (hf : f.width ≠ 0) (hg : g.width ≠ 0)
    (hfstop : f.stop < UInt64.size) (hgstop : g.stop < UInt64.size) :
    f.SharesRange g ↔
      ∃ x, (f.offset.toNat ≤ x ∧ x < f.stop) ∧ (g.offset.toNat ≤ x ∧ x < g.stop) := by
  have hfbytes := offset_lt_stop hf
  have hgbytes := offset_lt_stop hg
  rw [UInt64.size] at hfstop hgstop
  rw [SharesRange, Nat.min_eq_left (by omega), Nat.min_eq_left (by omega)]
  constructor
  · -- the first byte of the one that starts later
    intro h
    exact ⟨max f.offset.toNat g.offset.toNat, by omega⟩
  · rintro ⟨x, hx, hx'⟩
    omega

end Field

namespace Block

variable {b b' : Block} {f moved : Field} {before after : List Field} {name : String}
  {offset width : UInt64} {e : LayoutError}

/-! ## Section 3: The first field of a name -/

/-- The fields of a block, cut at the first one of a given name. -/
structure CutAt (b : Block) (name : String) (before : List Field) (f : Field)
    (after : List Field) : Prop where
  fields : b.fields = before ++ f :: after
  named : f.name = name
  first : ∀ g ∈ before, g.name ≠ name

theorem field_eq_ok_iff_cutAt :
    b.field name = .ok f ↔ ∃ before after, b.CutAt name before f after := by
  have hfind : b.field name = .ok f ↔ b.fields.find? (fun g => g.name == name) = some f := by
    rw [field, field?]
    cases b.fields.find? fun g => g.name == name <;> simp
  rw [hfind, List.find?_eq_some_iff_append]
  constructor
  · rintro ⟨hname, before, after, hfields, hfirst⟩
    exact ⟨before, after, hfields, by simpa using hname, fun g hg => by simpa using hfirst g hg⟩
  · rintro ⟨before, after, hfields, hname, hfirst⟩
    exact ⟨by simpa using hname, before, after, hfields, fun g hg => by simpa using hfirst g hg⟩

theorem field_eq_error_iff :
    b.field name = .error e ↔ e = .unknownField b.name name ∧ ∀ f ∈ b.fields, f.name ≠ name := by
  have hnone : b.fields.find? (fun g => g.name == name) = none ↔ ∀ f ∈ b.fields, f.name ≠ name := by
    simp
  rw [← hnone, field, field?]
  cases b.fields.find? fun g => g.name == name <;> simp [eq_comm]

/-- Taking out the first field of its name leaves the fields before and after it. -/
theorem CutAt.eraseP (h : b.CutAt name before f after) :
    b.fields.eraseP (fun g => g.name == name) = before ++ after := by
  have hfirst : ∀ g ∈ before, ¬(g.name == name) = true := by simpa using h.first
  rw [h.fields, List.eraseP_append_right _ hfirst,
    List.eraseP_cons_of_pos (by simpa using h.named)]

/-- A move succeeds exactly if the first field of the name is text. -/
theorem reposition_eq_ok_iff_cutAt :
    b.reposition name offset width = .ok b' ↔
      ∃ before f after, b.CutAt name before f after ∧ f.isText = true ∧
        b' = b.place f (f.moveTo offset width) := by
  rw [reposition, bind_eq_ok_iff]
  constructor
  · rintro ⟨f, hf, hmove⟩
    obtain ⟨before, after, hcut⟩ := field_eq_ok_iff_cutAt.1 hf
    split_ifs at hmove with htext
    cases hmove
    exact ⟨before, f, after, hcut, htext, rfl⟩
  · rintro ⟨before, f, after, hcut, htext, rfl⟩
    exact ⟨f, field_eq_ok_iff_cutAt.2 ⟨before, after, hcut⟩, if_pos htext⟩

/-- The fields after a move, in their order. -/
theorem CutAt.fields_place (h : b.CutAt name before f after) :
    (b.place f moved).fields = sortByOffset
      ((before ++ after).filter (fun g => ¬(g.kind = .padding ∧ g.SharesRange moved)) ++
        [moved]) := by
  have hclear : (fun g : Field => !(g.kind == .padding && g.overlaps moved)) =
      fun g => decide ¬(g.kind = .padding ∧ g.SharesRange moved) := by
    funext g
    rw [Bool.eq_iff_iff, decide_eq_true_eq, ← Field.overlaps_iff]
    simp [imp_iff_not_or]
  rw [place, h.named, h.eraseP, hclear]

/-- A move is refused if there is no field of the name, or the first one is not text. -/
theorem reposition_eq_error_iff :
    b.reposition name offset width = .error e ↔
      (e = .unknownField b.name name ∧ ∀ f ∈ b.fields, f.name ≠ name) ∨
      e = .notText b.name name ∧ ∃ before f after, b.CutAt name before f after ∧
        f.isText = false := by
  rw [reposition, bind_eq_error_iff, field_eq_error_iff]
  refine or_congr_right ?_
  constructor
  · rintro ⟨f, hf, hmove⟩
    obtain ⟨before, after, hcut⟩ := field_eq_ok_iff_cutAt.1 hf
    split_ifs at hmove with htext
    · cases hmove
    · cases hmove
      exact ⟨rfl, before, f, after, hcut, Bool.eq_false_iff.2 htext⟩
  · rintro ⟨rfl, before, f, after, hcut, htext⟩
    refine ⟨f, field_eq_ok_iff_cutAt.2 ⟨before, after, hcut⟩, ?_⟩
    rw [htext]
    rfl

/-! ## Section 4: The move made in place -/

/-- Changes the fields of the block that is held, whatever is to follow. -/
def changeFields (change : List Field → List Field) : EStateM LayoutError Block Unit :=
  modify fun b => { b with fields := change b.fields }

/-- Takes the first field of the name of `f` out of the block that is held, drops padding in the way
of `moved`, puts `moved` behind all other fields, and sorts them. -/
def moveFields (f moved : Field) : EStateM LayoutError Block Unit := do
  changeFields fun fields => fields.eraseP fun g => g.name == f.name
  changeFields fun fields => fields.filter fun g => !(g.kind == .padding && g.overlaps moved)
  changeFields fun fields => fields ++ [moved]
  changeFields sortByOffset

/-- Moves a text field of the block that is held. -/
def repositionInPlace (name : String) (offset width : UInt64) : EStateM LayoutError Block Unit := do
  let b ← get
  let f ← ofExcept (b.field name)
  if f.isText then moveFields f (f.moveTo offset width) else throw (.notText b.name name)

/-- Changing the block that is held comes to the same as making another one, and when a fault is
found nothing has been changed. -/
theorem run_repositionInPlace (b : Block) (name : String) (offset width : UInt64) :
    (repositionInPlace name offset width).run b =
      match b.reposition name offset width with
      | .ok b' => .ok () b'
      | .error e => .error e b := by
  simp only [repositionInPlace, reposition, EStateM.run_bind, EStateM.run_get]
  -- the fields are changed only after both checks
  cases b.field name with
  | error e => rfl
  | ok f =>
    simp only [ofExcept, EStateM.run_pure, bind, Except.bind]
    cases f.isText with
    | false => rfl
    | true => rfl

/-! ## Section 5: What a move does -/

/-- All that a move does to a block, sound or not.  It is refused exactly if no field has the name
or the first one that has it is not text, and what is held then is what was held before.  If it is
not refused, name and size stay.  The fields are in the order of their offsets, and they are the old
ones without the field that moves and without the padding that shares a range with the new place,
together with the field at this place.  Of the fields that start at one offset, those that were there
keep their order and the one that has moved comes last.  So the check never finds a field out of
order. -/
theorem reposition_conserves_fields (b : Block) (name : String) (offset width : UInt64) :
    (b.reposition name offset width = .error (.unknownField b.name name) ↔
      ∀ f ∈ b.fields, f.name ≠ name) ∧
    (b.reposition name offset width = .error (.notText b.name name) ↔
      ∃ before f after, b.CutAt name before f after ∧ f.isText = false) ∧
    (∀ e, b.reposition name offset width = .error e →
      (e = .unknownField b.name name ∨ e = .notText b.name name) ∧
      (repositionInPlace name offset width).run b = .error e b) ∧
    ∀ b', b.reposition name offset width = .ok b' →
      (repositionInPlace name offset width).run b = .ok () b' ∧
      b'.name = b.name ∧ b'.size = b.size ∧
      b'.fields.Pairwise (fun f g => f.offset ≤ g.offset) ∧
      (∃ before f after, b.CutAt name before f after ∧ f.isText = true ∧
        let moved : Field := ⟨f.name, offset, width, f.kind⟩
        let kept := (before ++ after).filter fun g => ¬(g.kind = .padding ∧ g.SharesRange moved)
        b'.fields.Perm (kept ++ [moved]) ∧
        (∀ start, b'.fields.filter (fun g => g.offset = start) =
          (kept ++ [moved]).filter fun g => g.offset = start) ∧
        ∀ g : Field, g.width ≠ 0 → width ≠ 0 → g.stop < UInt64.size → moved.stop < UInt64.size →
          (g.SharesRange moved ↔ ∃ x, (g.offset.toNat ≤ x ∧ x < g.stop) ∧
            (offset.toNat ≤ x ∧ x < moved.stop))) ∧
      ∀ block field fieldOffset previous previousOffset,
        b'.check ≠ .error (.outOfOrder block field fieldOffset previous previousOffset) := by
  refine ⟨?_, ?_, ?_, ?_⟩
  · rw [reposition_eq_error_iff]
    simp
  · rw [reposition_eq_error_iff]
    simp
  · intro e he
    refine ⟨(reposition_eq_error_iff.1 he).imp And.left And.left, ?_⟩
    rw [run_repositionInPlace, he]
  · intro b' hb'
    have hrun : (repositionInPlace name offset width).run b = .ok () b' := by
      rw [run_repositionInPlace, hb']
    -- names may occur twice, so the field that moves is known by where it is cut out
    obtain ⟨before, f, after, hcut, htext, rfl⟩ := reposition_eq_ok_iff_cutAt.1 hb'
    have hsorted := pairwise_sortByOffset
      ((before ++ after).filter (fun g => ¬(g.kind = .padding ∧
        g.SharesRange (f.moveTo offset width))) ++ [f.moveTo offset width])
    rw [← hcut.fields_place] at hsorted
    refine ⟨hrun, rfl, rfl, hsorted, ⟨before, f, after, hcut, htext, ?_, ?_, ?_⟩, ?_⟩
    · rw [hcut.fields_place]
      exact sortByOffset_perm _
    · intro start
      rw [hcut.fields_place]
      exact filter_sortByOffset _ start
    · intro g hg hwidth hgstop hstop
      exact Field.sharesRange_iff_exists_mem hg hwidth hgstop hstop
    · exact check_ne_outOfOrder hsorted

/-- A block that is not sound: its fields are not in order, a name occurs twice, and three of the
fields have a place at which the first field `T` is to be put. -/
def jumbled : Block :=
  ⟨"B", 32, [⟨"U", 20, 4, .link⟩, ⟨"T", 16, 4, .text .ascii⟩, ⟨"P", 0, 8, .padding⟩,
    ⟨"T", 9, 2, .padding⟩, ⟨"L", 8, 4, .link⟩, ⟨"Q", 8, 0, .padding⟩]⟩

/-- The second field `T` is padding in the way and is dropped.  The first one comes behind the link
and the empty padding that start where it is put. -/
theorem reposition_conserves_fields_jumbled :
    (repositionInPlace "X" 8 4).run jumbled = .error (.unknownField "B" "X") jumbled ∧
    (repositionInPlace "L" 8 4).run jumbled = .error (.notText "B" "L") jumbled ∧
    ∃ b', jumbled.reposition "T" 8 4 = .ok b' ∧
      b'.fields.filter (fun g => g.offset = 8) =
        [⟨"L", 8, 4, .link⟩, ⟨"Q", 8, 0, .padding⟩, ⟨"T", 8, 4, .text .ascii⟩] ∧
      b'.check ≠ .error (.outOfOrder "B" "Q" 8 "L" 8) := by
  obtain ⟨hunknown, -, herror, -⟩ := reposition_conserves_fields jumbled "X" 8 4
  obtain ⟨-, hnotText, herror', -⟩ := reposition_conserves_fields jumbled "L" 8 4
  obtain ⟨-, -, -, hok⟩ := reposition_conserves_fields jumbled "T" 8 4
  refine ⟨(herror _ (hunknown.2 (by decide))).2, (herror' _ (hnotText.2 ?_)).2, ?_⟩
  · exact ⟨jumbled.fields.take 4, ⟨"L", 8, 4, .link⟩, [⟨"Q", 8, 0, .padding⟩],
      ⟨rfl, rfl, by decide⟩, rfl⟩
  -- the fields in full; of those at offset 8 the one that has moved is the last
  · have hb' : jumbled.reposition "T" 8 4 = .ok ⟨"B", 32, [⟨"P", 0, 8, .padding⟩,
        ⟨"L", 8, 4, .link⟩, ⟨"Q", 8, 0, .padding⟩, ⟨"T", 8, 4, .text .ascii⟩,
        ⟨"U", 20, 4, .link⟩]⟩ := by decide +kernel
    exact ⟨_, hb', rfl, (hok _ hb').2.2.2.2.2 _ _ _ _ _⟩

end Block

end IplReport
