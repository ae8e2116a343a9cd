import IplReport.Proofs.Catalog.Faults
import IplReport.Proofs.Settings.Placements
import IplReport.Proofs.Snapshot.Anatomy

/-!
# Settings that serve for a snapshot

Placements move text fields and do nothing else, so a catalog for settings still has every part
that a snapshot is made of.  And where there is no catalog, the fault is one that a placement can
bring about: names stay distinct, links stay as wide as they are, and fields are kept in order.

Main statement:
- `Settings.catalog_serves`: a catalog for settings has a plan, and which faults there are.
-/

namespace IplReport

namespace Settings

variable {s : Settings} {c : Catalog} {blocks : List Block} {e : LayoutError}

/-! ## Section 1: Plans -/

namespace Describes

variable {b : Block} {f : Field} {step : Step} {name block link field : String}

/-- A block that the usual catalog has is also in a catalog for settings. -/
theorem exists_block (h : s.Describes c) (hb : (Zos.catalog s.encoding).block name = .ok b) :
    ∃ b', c.block name = .ok b' := by
  obtain ⟨hmem, rfl⟩ := Catalog.block_eq_ok_iff.1 hb
  have hname : b.name ∈ c.blocks.map Block.name := by
    rw [h.names]
    exact List.mem_map_of_mem hmem
  obtain ⟨b', hb', hsame⟩ := List.mem_map.1 hname
  exact ⟨b', Catalog.block_eq_ok_iff.2 ⟨hb', hsame⟩⟩

theorem exists_step (h : s.Describes c)
    (hstep : (Zos.catalog s.encoding).step block link = .ok step) :
    ∃ b', c.step block link = .ok ⟨b', step.link⟩ := by
  obtain ⟨hblock, hfield, hkind⟩ := Catalog.step_eq_ok_iff.1 hstep
  obtain ⟨hmem, hname⟩ := Catalog.block_eq_ok_iff.1 hblock
  obtain ⟨hlink, hlinkName⟩ := (Block.field_eq_ok_iff (s.sound_zos _ hmem).distinct).1 hfield
  exact (h.links _ _ _).2 ⟨_, hmem, hname, hlink, hlinkName, hkind⟩

theorem exists_textField (h : s.Describes c)
    (hf : (Zos.catalog s.encoding).textField block field = .ok f) :
    ∃ f', c.textField block field = .ok f' := by
  obtain ⟨b, hblock, hfield, htext⟩ := Catalog.textField_eq_ok_iff.1 hf
  obtain ⟨hmem, hname⟩ := Catalog.block_eq_ok_iff.1 hblock
  obtain ⟨hf, hfieldName⟩ := (Block.field_eq_ok_iff (s.sound_zos _ hmem).distinct).1 hfield
  exact ⟨_, (h.text _ _ _).2 ⟨b, hmem, hname, f, hf, hfieldName, htext, rfl⟩⟩

/-- All parts of a plan are there under their usual names. -/
theorem exists_plan (h : s.Describes c) : ∃ plan, Plan.ofCatalog c = .ok plan := by
  have ha := Anatomy.of_zos s.encoding
  obtain ⟨psa, hpsaCvt⟩ := h.exists_step ha.psaCvt
  obtain ⟨cvt, hcvtEcvt⟩ := h.exists_step ha.cvtEcvt
  obtain ⟨ecvt, hecvtIpa⟩ := h.exists_step ha.ecvtIpa
  obtain ⟨cvt', hcvtExtension⟩ := h.exists_step ha.cvtExtension
  obtain ⟨ipa, hipa⟩ := h.exists_block ha.ipa
  obtain ⟨extension, hextension⟩ := h.exists_block ha.extension
  obtain ⟨load, hload⟩ := h.exists_textField ha.loadDataset
  obtain ⟨parmlib, hparmlib⟩ := h.exists_textField ha.parmlibDatasetName
  obtain ⟨device, hdevice⟩ := h.exists_textField ha.deviceId
  obtain ⟨iodf, hiodf⟩ := h.exists_textField ha.iodfId
  -- two links lead out of the vector table
  have hcvt : cvt = cvt' := Catalog.block_eq_of_step hcvtEcvt hcvtExtension
  subst hcvt
  exact ⟨_, Plan.ofCatalog_eq_ok_iff.2 ⟨⟨psa, cvt, ecvt, ipa, extension, _, _, _, _, load, parmlib,
    device, iodf⟩, ⟨hpsaCvt, hcvtEcvt, hecvtIpa, hcvtExtension, hipa, hextension, hload, hparmlib,
    hdevice, hiodf⟩, rfl⟩⟩

end Describes

/-- Settings that have a catalog have a plan too. -/
theorem exists_plan (h : s.catalog = .ok c) : ∃ plan, Plan.ofCatalog c = .ok plan :=
  (describes_of_catalog h).exists_plan

/-! ## Section 2: Faults -/

/-- The faults that placements can bring about.  The first three are of a placement that cannot be
applied, the others of the place that it gives to a field. -/
inductive PlacementFault (placements : List Placement) : LayoutError → Prop where
  | unknownBlock {p : Placement} : p ∈ placements →
      PlacementFault placements (.unknownBlock p.block)
  | unknownField {p : Placement} : p ∈ placements →
      PlacementFault placements (.unknownField p.block p.field)
  | notText {p : Placement} : p ∈ placements → PlacementFault placements (.notText p.block p.field)
  | zeroWidth (block field : String) : PlacementFault placements (.zeroWidth block field)
  | fieldOutOfBounds (block field : String) (stop size : UInt64) :
      PlacementFault placements (.fieldOutOfBounds block field stop size)
  | overlap (block field previous : String) :
      PlacementFault placements (.overlap block field previous)

/-- A placement that cannot be applied names no block, no field, or no text. -/
theorem placementFault_of_apply {placements : List Placement} {p : Placement}
    (hp : p ∈ placements) (h : applyPlacement p blocks = .error e) :
    PlacementFault placements e := by
  induction blocks with
  | nil =>
    cases h
    exact .unknownBlock hp
  | cons b rest ih =>
    rw [applyPlacement] at h
    split_ifs at h with hname
    · have hname : b.name = p.block := beq_iff_eq.1 hname
      -- the block is there, so what fails is the move
      have hmove : b.reposition p.field p.offset p.width = .error e := by
        rcases bind_eq_error_iff.1 h with hmove | ⟨_, -, hnone⟩
        · exact hmove
        · cases hnone
      rcases bind_eq_error_iff.1 hmove with hfield | ⟨f, -, hkind⟩
      · rw [Block.field] at hfield
        split at hfield
        · cases hfield
        · cases hfield
          rw [hname]
          exact .unknownField hp
      · split_ifs at hkind
        · cases hkind
        · cases hkind
          rw [hname]
          exact .notText hp
    · rcases bind_eq_error_iff.1 h with hrest | ⟨_, -, hnone⟩
      · exact ih hrest
      · cases hnone

/-- Settled blocks have no other fault than a field at a place where it cannot be. -/
theorem placementFault_of_check (h : Settled s.placements (Zos.blocks s.encoding) blocks)
    (he : checkBlocks blocks = .error e) : PlacementFault s.placements e := by
  have hdistinct : (blocks.map Block.name).Nodup := by
    rw [h.map_name]
    exact s.distinct_zos
  obtain ⟨b', hb', hcheck⟩ := fault_of_distinct hdistinct he
  obtain ⟨b, hb, hrearranged⟩ := exists_left_of_forall₂ h hb'
  have hmoves := moves_settle s.placements b
  have hlinks : ∀ f ∈ b'.fields, f.kind = .link → f.width ∈ linkWidths := by
    intro f hf hkind
    -- links stay where they are, so they are as wide as they usually are
    obtain ⟨g, hg, rfl⟩ := (hrearranged.mem f (by simp [hkind])).1 hf
    rw [hmoves.kind] at hkind
    rw [hmoves.text g (Field.isText_of_link hkind)]
    exact ((s.sound_zos b hb).admitted g hg).link hkind
  obtain ⟨f, -, rfl | rfl | ⟨previous, -, rfl⟩⟩ :=
    Block.fault_of_sorted hrearranged.distinct hlinks hrearranged.sorted hcheck
  · exact .zeroWidth _ _
  · exact .fieldOutOfBounds _ _ _ _
  · exact .overlap _ _ _

/-- A catalog for any settings has a plan.  If there is no catalog, the fault is that a placement
names no block, no field or no text, or that in the end a field has no bytes, does not end inside
its block or overlaps another one.  It is never a name that occurs twice, a field out of order or a
link of another width, nor a step that is not a link or a path without steps. -/
theorem catalog_serves (s : Settings) :
    (∀ c, s.catalog = .ok c → ∃ plan, Plan.ofCatalog c = .ok plan) ∧
    ∀ e, s.catalog = .error e → PlacementFault s.placements e := by
  refine ⟨fun c => exists_plan, fun e he => ?_⟩
  rw [catalog, bind_eq_error_iff] at he
  rcases he with hplace | ⟨blocks, hok, hcheck⟩
  · obtain ⟨p, hp, blocks, hfault⟩ := exists_error_of_foldlM hplace
    exact placementFault_of_apply hp hfault
  · -- all placements are applied, and the result is refused
    apply placementFault_of_check (settled_of_foldlM hok)
    rw [Catalog.ofBlocks] at hcheck
    split at hcheck
    · cases hcheck
    · cases hcheck
      assumption

/-- Settings that put two fields of the initialization parameter area in each other's place. -/
def crossed : Settings where
  placements := [⟨"IPA", "IPALOADS", 92, 4⟩, ⟨"IPA", "IPALPDDV", 20, 2⟩]

/-- Settings that put only the first of them in the place of the other. -/
def halfCrossed : Settings :=
  { crossed with placements := crossed.placements.take 1 }

/-- There is a plan where two fields have changed places, and where only one of them was moved there
is the fault that it overlaps the other. -/
theorem catalog_serves_crossed :
    (∃ c plan, crossed.catalog = .ok c ∧ Plan.ofCatalog c = .ok plan) ∧
      ∃ e, halfCrossed.catalog = .error e ∧ e = .overlap "IPA" "IPALOADS" "IPALPDDV" ∧
        PlacementFault halfCrossed.placements e := by
  have hserved : crossed.catalog.toOption.isSome = true := by decide +kernel
  have hfault : (match halfCrossed.catalog with
      | .ok _ => none
      | .error e => some e) = some (.overlap "IPA" "IPALOADS" "IPALPDDV") := by decide +kernel
  constructor
  · cases hc : crossed.catalog with
    | error e => simp [hc, Except.toOption] at hserved
    | ok c =>
      obtain ⟨plan, hplan⟩ := (catalog_serves crossed).1 c hc
      exact ⟨c, plan, rfl, hplan⟩
  · cases he : halfCrossed.catalog with
    | ok c => simp [he] at hfault
    | error e =>
      rw [he, Option.some_inj] at hfault
      exact ⟨e, rfl, hfault, (catalog_serves halfCrossed).2 e he⟩

end Settings

end IplReport
