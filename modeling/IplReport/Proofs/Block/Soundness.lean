import IplReport.Block.Validation
import IplReport.Proofs.Lookup
import Mathlib.Data.List.Induction
import Mathlib.Data.List.Nodup
import Mathlib.Data.List.Pairwise

/-!
# What the check of a block establishes

The check looks at one field after the other and compares each with the one before it.  Here the
rules are stated of the whole list: distinct names, every field well placed by itself, and every
field, not only the next one, starting no earlier than an earlier field ends.

Main statements:
- `check_eq_ok_iff`: the check succeeds exactly if the block is sound;
- `sound_iff`: what soundness says in numbers, any two fields being compared;
- `SoundFields.apart`: two different fields of a sound block have no byte in common;
- `soundFields_of_sorted`: fields in the order of their offsets need only be apart.
-/

namespace IplReport

namespace Field

/-! ## Section 1: Kinds and places of fields -/

theorem isText_of_link {f : Field} (h : f.kind = .link) : f.isText = false := by
  simp [isText, h, FieldKind.encoding?]

theorem isText_iff {f : Field} : f.isText = true ↔ ∃ encoding, f.kind = .text encoding := by
  unfold isText
  cases f.kind <;> simp [FieldKind.encoding?]

/-- Two fields have no byte in common, the sums being exact. -/
def Apart (f g : Field) : Prop :=
  f.stop ≤ g.offset.toNat ∨ g.stop ≤ f.offset.toNat

theorem Apart.symm {f g : Field} (h : f.Apart g) : g.Apart f :=
  Or.symm h

instance : Std.Symm Apart := ⟨fun _ _ h => h.symm⟩

theorem offset_le_stop (f : Field) : f.offset.toNat ≤ f.stop :=
  Nat.le_add_right _ _

theorem offset_lt_stop {f : Field} (h : f.width ≠ 0) : f.offset.toNat < f.stop := by
  have hwidth : f.width.toNat ≠ 0 := fun hzero => h (UInt64.toNat_inj.1 hzero)
  rw [stop]
  omega

end Field

namespace Block

/-! ## Section 2: Soundness -/

/-- What the check asks of a field by itself: it has bytes, it ends inside the block, and it is
pointer-sized if it is a link. -/
structure Admits (b : Block) (f : Field) : Prop where
  width : f.width ≠ 0
  stop : f.stop ≤ b.size.toNat
  link : f.kind = .link → f.width ∈ linkWidths

/-- Fields that make a sound description of a block: their names are distinct, each is well placed
by itself, and each ends before any later one starts. -/
structure SoundFields (b : Block) (fields : List Field) : Prop where
  distinct : (fields.map Field.name).Nodup
  admitted : ∀ f ∈ fields, b.Admits f
  ordered : fields.Pairwise fun f g => f.stop ≤ g.offset.toNat

def Sound (b : Block) : Prop :=
  b.SoundFields b.fields

variable {b : Block} {fields earlier rest : List Field} {f g : Field}

theorem SoundFields.nil (b : Block) : b.SoundFields [] :=
  ⟨List.nodup_nil, by simp, List.Pairwise.nil⟩

theorem SoundFields.of_append (h : b.SoundFields (earlier ++ rest)) : b.SoundFields earlier where
  distinct := by
    have hdistinct := h.distinct
    rw [List.map_append] at hdistinct
    exact hdistinct.of_append_left
  admitted := fun f hf => h.admitted f (List.mem_append_left _ hf)
  ordered := (List.pairwise_append.1 h.ordered).1

/-- Different fields of a sound list are apart. -/
theorem SoundFields.apart (h : b.SoundFields fields) (hf : f ∈ fields) (hg : g ∈ fields)
    (hne : f ≠ g) : f.Apart g := by
  have hpairs : fields.Pairwise Field.Apart := h.ordered.imp fun hstop => Or.inl hstop
  exact hpairs.forall hf hg hne

theorem SoundFields.eq_of_name (h : b.SoundFields fields) (hf : f ∈ fields) (hg : g ∈ fields)
    (hname : f.name = g.name) : f = g :=
  List.inj_on_of_nodup_map h.distinct hf hg hname

/-- Sound lists of the same fields have them in the same order. -/
theorem SoundFields.eq_of_mem_iff {b' : Block} {fields' : List Field} (h : b.SoundFields fields)
    (h' : b'.SoundFields fields') (hmem : ∀ f, f ∈ fields ↔ f ∈ fields') : fields = fields' := by
  have hperm : fields.Perm fields' :=
    (List.perm_ext_iff_of_nodup h.distinct.of_map h'.distinct.of_map).2 hmem
  refine hperm.eq_of_pairwise (fun f g hf hg hfg hgf => ?_) h.ordered h'.ordered
  -- two fields cannot each end before the other one starts, since they have bytes
  have hbytes := Field.offset_lt_stop (h.admitted f hf).width
  have hbytes' := Field.offset_lt_stop (h'.admitted g hg).width
  omega

/-- Fields that are in the order of their offsets are sound as soon as any two are apart. -/
theorem soundFields_of_sorted (hdistinct : (fields.map Field.name).Nodup)
    (hadmitted : ∀ f ∈ fields, b.Admits f)
    (hsorted : fields.Pairwise fun f g => f.offset ≤ g.offset)
    (hapart : ∀ f ∈ fields, ∀ g ∈ fields, f ≠ g → f.Apart g) : b.SoundFields fields := by
  refine ⟨hdistinct, hadmitted, ?_⟩
  have hne : fields.Pairwise (· ≠ ·) := hdistinct.of_map
  refine (hsorted.and hne).imp_of_mem ?_
  intro f g hf hg hfg
  obtain ⟨hle, hne⟩ := hfg
  rcases hapart f hf g hg hne with hbefore | hafter
  · exact hbefore
  · -- `g` would have to end where `f` starts, but it has bytes and starts no earlier
    have hbytes := Field.offset_lt_stop (hadmitted g hg).width
    have hstart : f.offset.toNat ≤ g.offset.toNat := UInt64.le_iff_toNat_le.1 hle
    omega

theorem admits_iff : b.Admits f ↔ f.width ≠ 0 ∧ f.offset.toNat + f.width.toNat ≤ b.size.toNat ∧
    (f.kind = .link → f.width = 4 ∨ f.width = 8) := by
  have hwidths : f.width ∈ linkWidths ↔ f.width = 4 ∨ f.width = 8 := by simp [linkWidths]
  rw [← hwidths]
  exact ⟨fun h => ⟨h.width, h.stop, h.link⟩, fun h => ⟨h.1, h.2.1, h.2.2⟩⟩

/-- The rules of a sound block in numbers, any two of its fields being compared. -/
theorem sound_iff : b.Sound ↔ (b.fields.map Field.name).Nodup ∧
    (∀ f ∈ b.fields, f.width ≠ 0 ∧ f.offset.toNat + f.width.toNat ≤ b.size.toNat ∧
      (f.kind = .link → f.width = 4 ∨ f.width = 8)) ∧
    ∀ i j (hi : i < b.fields.length) (hj : j < b.fields.length), i < j →
      b.fields[i].offset.toNat + b.fields[i].width.toNat ≤ b.fields[j].offset.toNat := by
  simp only [← admits_iff]
  constructor
  · intro h
    exact ⟨h.distinct, h.admitted, List.pairwise_iff_getElem.1 h.ordered⟩
  · rintro ⟨hdistinct, hadmitted, hordered⟩
    exact ⟨hdistinct, hadmitted, List.pairwise_iff_getElem.2 hordered⟩

theorem field_eq_ok_iff {name : String} (h : (b.fields.map Field.name).Nodup) :
    b.field name = .ok f ↔ f ∈ b.fields ∧ f.name = name := by
  rw [← find?_name_eq_some_iff h, Block.field, Block.field?]
  cases b.fields.find? fun f => f.name == name <;> simp

/-! ## Section 3: The check -/

theorem placeFault?_eq_none_iff : b.placeFault? f = none ↔ b.Admits f := by
  rw [placeFault?]
  constructor
  · intro h
    split_ifs at h with hwidth hstop hlink
    exact ⟨hwidth, Nat.le_of_not_lt hstop, fun hkind => by
      by_contra hnot
      exact hlink ⟨hkind, hnot⟩⟩
  · intro h
    have hlink : ¬(f.kind = .link ∧ f.width ∉ linkWidths) := fun hbad => hbad.2 (h.link hbad.1)
    rw [if_neg h.width, if_neg (Nat.not_lt.2 h.stop), if_neg hlink]

theorem orderFault?_eq_none_iff : b.orderFault? g f = none ↔ g.stop ≤ f.offset.toNat := by
  have hstart := g.offset_le_stop
  rw [orderFault?]
  constructor
  · intro h
    split_ifs at h with hbefore hinside
    exact Nat.le_of_not_lt hinside
  · intro h
    have hbefore : ¬f.offset < g.offset := by
      rw [UInt64.lt_iff_toNat_lt]
      omega
    rw [if_neg hbefore, if_neg (Nat.not_lt.2 h)]

/-- After sound fields, a field breaks no rule exactly if the list is still sound with it.  Only
the latest field is compared with it: the others end before that one starts. -/
theorem fieldFault?_eq_none_iff (h : b.SoundFields earlier.reverse) :
    b.fieldFault? earlier f = none ↔ b.SoundFields (earlier.reverse ++ [f]) := by
  have hnames : (earlier.any fun g => g.name == f.name) = true ↔
      f.name ∈ earlier.map Field.name := by
    simp only [List.any_eq_true, beq_iff_eq, List.mem_map]
  -- the comparison with the latest field stands for one with all of them
  have hlatest : (earlier.head?.bind fun g => b.orderFault? g f) = none ↔
      ∀ g ∈ earlier, g.stop ≤ f.offset.toNat := by
    cases earlier with
    | nil => simp
    | cons latest older =>
      have hordered := List.pairwise_reverse.1 h.ordered
      rw [List.head?_cons, Option.bind_some, orderFault?_eq_none_iff, List.forall_mem_cons]
      refine ⟨fun hlatest => ⟨hlatest, fun g hg => ?_⟩, fun hall => hall.1⟩
      have hg : g.stop ≤ latest.offset.toNat := List.rel_of_pairwise_cons hordered hg
      have hstart := latest.offset_le_stop
      omega
  rw [fieldFault?]
  split_ifs with hdup
  · refine iff_of_false (by simp) fun hsound => ?_
    have hdistinct := hsound.distinct
    rw [List.map_append, List.map_reverse, List.nodup_append] at hdistinct
    exact hdistinct.2.2 f.name (List.mem_reverse.2 (hnames.1 hdup)) f.name (by simp) rfl
  · rw [Option.or_eq_none_iff, placeFault?_eq_none_iff, hlatest]
    constructor
    · rintro ⟨hadmits, hall⟩
      refine ⟨?_, ?_, ?_⟩
      · rw [List.map_append, List.nodup_append]
        refine ⟨h.distinct, by simp, ?_⟩
        intro name hname name' hname' heq
        rw [List.map_singleton, List.mem_singleton] at hname'
        rw [List.map_reverse, List.mem_reverse, heq, hname'] at hname
        exact hdup (hnames.2 hname)
      · intro g hg
        rcases List.mem_append.1 hg with hg | hg
        · exact h.admitted g hg
        · rw [List.mem_singleton.1 hg]
          exact hadmits
      · refine List.pairwise_append.2 ⟨h.ordered, List.pairwise_singleton _ _, ?_⟩
        intro g hg g' hg'
        rw [List.mem_singleton.1 hg']
        exact hall g (List.mem_reverse.1 hg)
    · intro hsound
      refine ⟨hsound.admitted f (by simp), fun g hg => ?_⟩
      exact (List.pairwise_append.1 hsound.ordered).2.2 g (List.mem_reverse.2 hg) f (by simp)

/-- Checking fields in turn succeeds exactly if the whole list is sound. -/
theorem checkFields_eq_ok_iff (h : b.SoundFields earlier.reverse) :
    b.checkFields earlier fields = .ok () ↔ b.SoundFields (earlier.reverse ++ fields) := by
  -- the fields that have been checked are sound, which is what the next one is compared with
  induction fields generalizing earlier with
  | nil => simpa [checkFields] using h
  | cons f rest ih =>
    have hassoc : earlier.reverse ++ f :: rest = (f :: earlier).reverse ++ rest := by simp
    rw [checkFields]
    cases hfault : b.fieldFault? earlier f with
    | some fault =>
      refine iff_of_false (by simp) fun hsound => ?_
      rw [hassoc] at hsound
      have hnone := (fieldFault?_eq_none_iff h).2 (by simpa using hsound.of_append)
      rw [hfault] at hnone
      cases hnone
    | none =>
      have hsound : b.SoundFields (f :: earlier).reverse := by
        simpa using (fieldFault?_eq_none_iff h).1 hfault
      rw [hassoc]
      exact ih hsound

/-- The check of a block succeeds exactly if the block is sound. -/
theorem check_eq_ok_iff : b.check = .ok () ↔ b.Sound :=
  checkFields_eq_ok_iff (SoundFields.nil b)

end Block

end IplReport
