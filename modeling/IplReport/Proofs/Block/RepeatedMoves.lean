import IplReport.Catalog.Zos
import IplReport.Proofs.Block.Conservation

/-!
# Moves that change nothing more

A text field that is moved where it already is stays there, and so does everything else.  The field
is taken out and put in again behind the fields that start where it does, so this is a matter of
order as well: it holds after any move, which has put the field there, and in every sound block,
where no two fields start at one offset.

Main statements:
- `eq_of_filter_eq`: sorted fields are known by those that start at each offset;
- `place_place`: the same move made twice;
- `reposition_again`: moves to where a field has been put, and to where it is in a sound block.
-/

namespace IplReport

/-! ## Section 1: Sorted fields -/

section Order

variable {fields fields' : List Field}

theorem mem_iff_of_filter_eq
    (hsame : ∀ start, fields.filter (fun g => g.offset = start) =
      fields'.filter fun g => g.offset = start) (f : Field) : f ∈ fields ↔ f ∈ fields' := by
  have hmem : f ∈ fields.filter (fun g => g.offset = f.offset) ↔
      f ∈ fields'.filter fun g => g.offset = f.offset := by rw [hsame]
  simpa using hmem

/-- Fields in the order of their offsets are known by the fields that start at each offset. -/
theorem eq_of_filter_eq (hsorted : fields.Pairwise fun f g => f.offset ≤ g.offset)
    (hsorted' : fields'.Pairwise fun f g => f.offset ≤ g.offset)
    (hsame : ∀ start, fields.filter (fun g => g.offset = start) =
      fields'.filter fun g => g.offset = start) : fields = fields' := by
  induction fields generalizing fields' with
  | nil =>
    refine (List.eq_nil_iff_forall_not_mem.2 fun f hf => ?_).symm
    exact List.not_mem_nil ((mem_iff_of_filter_eq hsame f).2 hf)
  | cons f rest ih =>
    have hf : f ∈ fields' := (mem_iff_of_filter_eq hsame f).1 List.mem_cons_self
    obtain ⟨g, rest', rfl⟩ := List.exists_cons_of_ne_nil (List.ne_nil_of_mem hf)
    obtain ⟨hfirst, hrest⟩ := List.pairwise_cons.1 hsorted
    obtain ⟨hfirst', hrest'⟩ := List.pairwise_cons.1 hsorted'
    -- neither of the first two fields starts after the other one
    have hoffset : f.offset = g.offset := by
      apply UInt64.le_antisymm
      · rcases List.mem_cons.1 ((mem_iff_of_filter_eq hsame g).2 List.mem_cons_self) with rfl | hg
        · exact UInt64.le_refl _
        · exact hfirst g hg
      · rcases List.mem_cons.1 hf with rfl | hf
        · exact UInt64.le_refl _
        · exact hfirst' f hf
    have hheads := hsame f.offset
    rw [List.filter_cons_of_pos (by simp), List.filter_cons_of_pos (by simp [hoffset])] at hheads
    obtain rfl : f = g := (List.cons.inj hheads).1
    rw [ih hrest hrest' fun start => ?_]
    have hstart := hsame start
    rw [List.filter_cons, List.filter_cons] at hstart
    split_ifs at hstart
    · exact (List.cons.inj hstart).2
    · exact hstart

/-- Sorting depends only on the order of the fields that start at one offset. -/
theorem sortByOffset_congr
    (hsame : ∀ start, fields.filter (fun g => g.offset = start) =
      fields'.filter fun g => g.offset = start) : sortByOffset fields = sortByOffset fields' := by
  refine eq_of_filter_eq (pairwise_sortByOffset fields) (pairwise_sortByOffset fields') ?_
  intro start
  rw [filter_sortByOffset, filter_sortByOffset, hsame]

end Order

namespace Block

variable {b : Block} {f moved : Field}

/-! ## Section 2: The same move twice -/

/-- Whether a field stays when `f` moves to `moved`: it is not of the same name, and it is not
padding in the way. -/
def stays (f moved g : Field) : Bool :=
  !(g.kind == .padding && g.overlaps moved) && !(g.name == f.name)

theorem fields_place (h : (b.fields.map Field.name).Nodup) :
    (b.place f moved).fields = sortByOffset (b.fields.filter (stays f moved) ++ [moved]) := by
  rw [place, eraseP_name_eq_filter h, List.filter_filter]
  rfl

/-- After a move, the same move finds nothing more to drop, and it puts the field where it is. -/
theorem place_place (h : (b.fields.map Field.name).Nodup) (hname : moved.name = f.name) :
    (b.place f moved).place moved moved = b.place f moved := by
  have hstays : stays moved moved = stays f moved := by
    funext g
    rw [stays, stays, hname]
  have hmoved : stays f moved moved = false := by simp [stays, hname]
  have hkept : (b.fields.filter (stays f moved) ++ [moved]).filter (stays f moved) =
      b.fields.filter (stays f moved) := by
    simp [List.filter_filter, hmoved]
  have hfields : ((b.place f moved).place moved moved).fields = (b.place f moved).fields := by
    rw [fields_place (distinct_place h hname), fields_place h, hstays]
    apply sortByOffset_congr
    intro start
    -- of the fields that start at one offset, those that stay keep their order
    rw [List.filter_append, List.filter_append, List.filter_comm, filter_sortByOffset,
      List.filter_comm, hkept]
  exact congrArg (Block.mk b.name b.size) hfields

/-- A move of a text field succeeds, and so does the same move after it, which changes nothing. -/
theorem exists_reposition_again (h : (b.fields.map Field.name).Nodup) (hf : f ∈ b.fields)
    (htext : f.isText = true) (offset width : UInt64) :
    ∃ b', b.reposition f.name offset width = .ok b' ∧
      b'.reposition f.name offset width = .ok b' := by
  have hname : (f.moveTo offset width).name = f.name := rfl
  refine ⟨_, (reposition_eq_ok_iff h).2 ⟨f, hf, rfl, htext, rfl⟩, ?_⟩
  rw [reposition_eq_ok_iff (distinct_place h hname)]
  -- the field of this name is now the one that has moved
  exact ⟨f.moveTo offset width, (mem_place h).2 (Or.inl rfl), hname, htext,
    (place_place h hname).symm⟩

/-! ## Section 3: A move to where a field is -/

/-- In a sound block, a field that is put where it is meets no padding and has one place in the
order. -/
theorem Sound.place_self (hb : b.Sound) (hf : f ∈ b.fields) : b.place f f = b := by
  -- the fields are the same ones: what moves stays, and nothing is in its way
  have hmem : ∀ g, g ∈ (b.place f f).fields ↔ g ∈ b.fields := by
    intro g
    rw [mem_place hb.distinct]
    constructor
    · rintro (rfl | ⟨hg, -⟩)
      · exact hf
      · exact hg
    · intro hg
      by_cases heq : g = f
      · exact Or.inl heq
      · refine Or.inr ⟨hg, fun hname => heq (hb.eq_of_name hg hf hname), fun hway => ?_⟩
        rw [(hb.apart hg hf heq).overlaps_eq_false] at hway
        exact Bool.false_ne_true hway.2
  have hsound : b.SoundFields (b.place f f).fields := by
    refine soundFields_of_sorted (distinct_place hb.distinct rfl) ?_ (pairwise_sortByOffset _) ?_
    · exact fun g hg => hb.admitted g ((hmem g).1 hg)
    · exact fun g hg g' hg' hne => hb.apart ((hmem g).1 hg) ((hmem g').1 hg') hne
  -- both lists are in the only order in which these fields can be sound
  exact congrArg (Block.mk b.name b.size) (hsound.eq_of_mem_iff hb hmem)

/-- Moves that change nothing.  In a block with distinct names, sound or not, any move of a text
field succeeds, and the same move made again leaves the block exactly as it is then.  In a block
that passes the check, a text field is moved to its own offset and width, and the block is what it
was: the same fields in the same order, padding included. -/
theorem reposition_again :
    (∀ (b : Block) (f : Field) (offset width : UInt64), (b.fields.map Field.name).Nodup →
      f ∈ b.fields → f.isText = true →
      ∃ b', b.reposition f.name offset width = .ok b' ∧
        b'.reposition f.name offset width = .ok b') ∧
    ∀ (b : Block) (f : Field), b.check = .ok () → f ∈ b.fields → f.isText = true →
      b.reposition f.name f.offset f.width = .ok b := by
  constructor
  · intro b f offset width hdistinct hf htext
    exact exists_reposition_again hdistinct hf htext offset width
  · intro b f hcheck hf htext
    have hb : b.Sound := check_eq_ok_iff.1 hcheck
    rw [reposition_eq_ok_iff hb.distinct]
    exact ⟨f, hf, rfl, htext, (hb.place_self hf).symm⟩

/-- A block that is not sound: its fields are not in order, and a link, empty padding and a text
field start at the offset to which another text field is to be moved. -/
def huddled : Block :=
  ⟨"B", 16, [⟨"T", 12, 4, .text .ascii⟩, ⟨"L", 8, 4, .link⟩, ⟨"P", 4, 8, .padding⟩,
    ⟨"Q", 8, 0, .padding⟩, ⟨"U", 8, 2, .text .ebcdic⟩]⟩

/-- The first move drops padding and puts the field behind those that start with it.  A field that
lies between padding and other text in a sound block is left alone. -/
theorem reposition_again_huddled :
    huddled.reposition "T" 8 4 = .ok ⟨"B", 16, [⟨"L", 8, 4, .link⟩, ⟨"Q", 8, 0, .padding⟩,
        ⟨"U", 8, 2, .text .ebcdic⟩, ⟨"T", 8, 4, .text .ascii⟩]⟩ ∧
      (huddled.reposition "T" 8 4).bind (fun b => b.reposition "T" 8 4) =
        huddled.reposition "T" 8 4 ∧
      (Zos.ipa .ebcdic).check = .ok () ∧
      (Zos.ipa .ebcdic).reposition "IPALPDSN" 48 44 = .ok (Zos.ipa .ebcdic) := by
  obtain ⟨htwice, hown⟩ := reposition_again
  have hmove : huddled.reposition "T" 8 4 = .ok ⟨"B", 16, [⟨"L", 8, 4, .link⟩,
      ⟨"Q", 8, 0, .padding⟩, ⟨"U", 8, 2, .text .ebcdic⟩, ⟨"T", 8, 4, .text .ascii⟩]⟩ := by
    decide +kernel
  have hcheck : (Zos.ipa .ebcdic).check = .ok () := by rfl
  obtain ⟨b', hb', hagain⟩ := htwice huddled ⟨"T", 12, 4, .text .ascii⟩ 8 4 (by decide)
    (by decide) rfl
  refine ⟨hmove, ?_, hcheck, hown _ ⟨"IPALPDSN", 48, 44, .text .ebcdic⟩ hcheck (by decide) rfl⟩
  rw [hb']
  exact hagain

end Block

end IplReport
