import IplReport.Catalog.Zos
import IplReport.Proofs.Block.Reposition
import Mathlib.Data.Nat.Basic
import Mathlib.Order.Interval.Set.Defs

/-!
# One move of a text field

Moving one text field of a sound block leaves all other fields where they are, except that padding in
the way is dropped.  So the block stays sound if the new place is a good one by itself and no other
text and no link is there.

Main statements:
- `Sound.exists_reposition`: the move itself always succeeds;
- `accepts_moveOnly_iff`: what is asked of the new place;
- `reposition_stays_sound`: when the block passes the check again.
-/

namespace IplReport

namespace Field

/-- Fields that have bytes are apart exactly if no byte is in the range of both. -/
theorem apart_iff_forall_notMem {f g : Field} (hf : f.width ≠ 0) (hg : g.width ≠ 0) :
    f.Apart g ↔ ∀ x ∈ Set.Ico f.offset.toNat f.stop, x ∉ Set.Ico g.offset.toNat g.stop := by
  have hfbytes := offset_lt_stop hf
  have hgbytes := offset_lt_stop hg
  simp only [Set.mem_Ico]
  unfold Apart
  constructor
  · intro h x hx hx'
    omega
  · intro h
    -- ranges that share a byte share the first byte of the one that starts later
    have hlater := h (max f.offset.toNat g.offset.toNat)
    omega

theorem kind_ne_padding_iff {f : Field} : f.kind ≠ .padding ↔ f.isText = true ∨ f.kind = .link := by
  unfold isText
  cases f.kind <;> simp [FieldKind.encoding?]

end Field

namespace Block

variable {b : Block} {f g : Field} {offset width : UInt64}

/-! ## Section 1: The place of one field -/

/-- Gives the field `f` another place, and leaves all others where they are. -/
def moveOnly (f : Field) (offset width : UInt64) (g : Field) : Field :=
  if g = f then f.moveTo offset width else g

@[simp] theorem moveOnly_self : moveOnly f offset width f = f.moveTo offset width :=
  if_pos rfl

@[simp] theorem moveOnly_of_ne (h : g ≠ f) : moveOnly f offset width g = g :=
  if_neg h

theorem moves_id : Moves id :=
  ⟨fun _ => rfl, fun _ => rfl, fun _ _ => rfl⟩

theorem moves_moveOnly (htext : f.isText = true) : Moves (moveOnly f offset width) where
  name g := by
    by_cases hg : g = f
    · simp [hg, Field.moveTo]
    · simp [hg]
  kind g := by
    by_cases hg : g = f
    · simp [hg, Field.moveTo]
    · simp [hg]
  text g hg := by
    -- a field that is not text is not the one that moves
    apply moveOnly_of_ne
    rintro rfl
    simp [htext] at hg

/-- In a sound block only the new place is in question: it has bytes, it ends inside the block, and
it is apart from every other field that is not padding. -/
theorem accepts_moveOnly_iff (hb : b.Sound) (hf : f ∈ b.fields) (htext : f.isText = true) :
    b.Accepts (moveOnly f offset width) ↔
      width ≠ 0 ∧ (f.moveTo offset width).stop ≤ b.size.toNat ∧
        ∀ g ∈ b.fields, g ≠ f → g.kind ≠ .padding → (f.moveTo offset width).Apart g := by
  obtain ⟨encoding, hkind⟩ := Field.isText_iff.1 htext
  have hnotPadding : f.kind ≠ .padding := by simp [hkind]
  constructor
  · intro h
    refine ⟨?_, ?_, fun g hg hne hgkind => ?_⟩
    · simpa [Field.moveTo] using h.width f hf hnotPadding
    · simpa using h.stop f hf hnotPadding
    · simpa [hne] using h.apart f hf g hg hnotPadding hgkind (Ne.symm hne)
  · rintro ⟨hwidth, hstop, hapart⟩
    constructor
    · intro g hg _
      by_cases heq : g = f
      · simpa [heq, Field.moveTo] using hwidth
      · simpa [heq] using (hb.admitted g hg).width
    · intro g hg _
      by_cases heq : g = f
      · simpa [heq] using hstop
      · simpa [heq] using (hb.admitted g hg).stop
    · intro g hg g' hg' hgkind hgkind' hne
      -- one of the two is the field that moves, or neither of them is
      by_cases heq : g = f
      · subst heq
        simpa [Ne.symm hne] using hapart g' hg' (Ne.symm hne) hgkind'
      · by_cases heq' : g' = f
        · subst heq'
          simpa [hne] using (hapart g hg hne hgkind).symm
        · simpa [heq, heq'] using hb.apart hg hg' hne

/-! ## Section 2: The move -/

/-- A text field of a sound block can be moved anywhere, and it is the only field that moves. -/
theorem Sound.exists_reposition (hb : b.Sound) (hf : f ∈ b.fields) (htext : f.isText = true) :
    ∃ b', b.reposition f.name offset width = .ok b' ∧
      b.Rearranged (moveOnly f offset width) b' := by
  apply hb.rearranged.reposition hb.distinct moves_id hf htext moveOnly_self
  intro g _ hname
  exact moveOnly_of_ne fun heq => hname (congrArg Field.name heq)

/-- A text field of a block that passes the check can be moved to any offset and width.  The block
passes the check again exactly if there are bytes at the new place, it ends inside the block, the sum
being exact, and it is disjoint from every other text and from every link.  Padding does not come
into it, however much of it is in the way. -/
theorem reposition_stays_sound (h : b.check = .ok ()) (hf : f ∈ b.fields)
    (htext : f.isText = true) (offset width : UInt64) :
    ∃ b', b.reposition f.name offset width = .ok b' ∧
      (b'.check = .ok () ↔
        width ≠ 0 ∧ offset.toNat + width.toNat ≤ b.size.toNat ∧
          ∀ g ∈ b.fields, g ≠ f → (g.isText = true ∨ g.kind = .link) →
            ∀ x ∈ Set.Ico offset.toNat (offset.toNat + width.toNat),
              x ∉ Set.Ico g.offset.toNat (g.offset.toNat + g.width.toNat)) := by
  have hb : b.Sound := check_eq_ok_iff.1 h
  obtain ⟨b', hok, hrearranged⟩ := hb.exists_reposition hf htext
  refine ⟨b', hok, ?_⟩
  rw [check_eq_ok_iff, hrearranged.sound_iff hb (moves_moveOnly htext),
    accepts_moveOnly_iff hb hf htext]
  -- no byte shared is the same as one after the other, as no field is empty
  refine and_congr_right fun hwidth => and_congr_right fun _ => ?_
  refine forall₃_congr fun g hg _ => ?_
  rw [Field.kind_ne_padding_iff]
  refine imp_congr_right fun _ => ?_
  exact Field.apart_iff_forall_notMem hwidth (hb.admitted g hg).width

/-- The suffix of the LOADxx member is moved over all the padding before the next field. -/
theorem reposition_stays_sound_overPadding :
    (Zos.ipa .ebcdic).check = .ok () ∧
      ∃ b', (Zos.ipa .ebcdic).reposition "IPALOADS" 0 48 = .ok b' ∧ b'.check = .ok () := by
  have hcheck : (Zos.ipa .ebcdic).check = .ok () := by rfl
  have hf : (⟨"IPALOADS", 20, 2, .text .ebcdic⟩ : Field) ∈ (Zos.ipa .ebcdic).fields := by decide
  obtain ⟨b', hok, hiff⟩ := reposition_stays_sound hcheck hf rfl 0 48
  refine ⟨hcheck, b', hok, hiff.2 ⟨by decide, by decide, ?_⟩⟩
  have hbehind : ∀ g ∈ (Zos.ipa .ebcdic).fields, g ≠ ⟨"IPALOADS", 20, 2, .text .ebcdic⟩ →
      (g.isText = true ∨ g.kind = .link) → 48 ≤ g.offset.toNat := by decide
  intro g hg hne hkind x hx hx'
  exact absurd (hbehind g hg hne hkind) (Nat.not_le.2 (Nat.lt_of_le_of_lt hx'.1 hx.2))

end Block

end IplReport
