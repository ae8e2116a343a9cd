import IplReport.Proofs.Catalog.Contents
import IplReport.Snapshot.Plan

/-!
# What a plan is made of

A plan is looked up in a catalog name by name.  Here its parts are laid open: five blocks, the
four links between them and the four fields to be read.  Both paths of a plan start with the same
step, and they part at the communications vector table.

Main statements:
- `Plan.ofCatalog_eq_ok_iff`: there is a plan exactly if the catalog has all the parts;
- `Anatomy.of_zos`: the parts in the catalog of the five control blocks.
-/

namespace IplReport

/-! ## Section 1: The parts -/

/-- The blocks that a snapshot is taken from, the links between them and the fields in them. -/
structure Anatomy where
  psa : Block
  cvt : Block
  ecvt : Block
  ipa : Block
  extension : Block
  psaCvt : Field
  cvtEcvt : Field
  ecvtIpa : Field
  cvtExtension : Field
  loadDataset : Field
  parmlibDatasetName : Field
  deviceId : Field
  iodfId : Field

namespace Anatomy

/-- These are the parts of a catalog that have the right names. -/
structure Of (a : Anatomy) (c : Catalog) : Prop where
  psaCvt : c.step "PSA" "PSACVT" = .ok ⟨a.psa, a.psaCvt⟩
  cvtEcvt : c.step "CVT" "CVTECVT" = .ok ⟨a.cvt, a.cvtEcvt⟩
  ecvtIpa : c.step "ECVT" "ECVTIPA" = .ok ⟨a.ecvt, a.ecvtIpa⟩
  cvtExtension : c.step "CVT" "CVTEXT2" = .ok ⟨a.cvt, a.cvtExtension⟩
  ipa : c.block "IPA" = .ok a.ipa
  extension : c.block "CVTEXT2" = .ok a.extension
  loadDataset : c.textField "IPA" "IPALOADS" = .ok a.loadDataset
  parmlibDatasetName : c.textField "IPA" "IPALPDSN" = .ok a.parmlibDatasetName
  deviceId : c.textField "IPA" "IPALPDDV" = .ok a.deviceId
  iodfId : c.textField "CVTEXT2" "IODF_ID" = .ok a.iodfId

def plan (a : Anatomy) : Plan where
  ipaPath := ⟨"ipa", [⟨a.psa, a.psaCvt⟩, ⟨a.cvt, a.cvtEcvt⟩, ⟨a.ecvt, a.ecvtIpa⟩], a.ipa⟩
  extensionPath := ⟨"cvtext2", [⟨a.psa, a.psaCvt⟩, ⟨a.cvt, a.cvtExtension⟩], a.extension⟩
  loadDataset := a.loadDataset
  parmlibDatasetName := a.parmlibDatasetName
  deviceId := a.deviceId
  iodfId := a.iodfId

end Anatomy

/-! ## Section 2: Looking them up -/

section Lookup

variable {c : Catalog} {plan : Plan} {s t : Step}

/-- Steps out of blocks of one name are out of one block. -/
theorem Catalog.block_eq_of_step {block link link' : String} (hs : c.step block link = .ok s)
    (ht : c.step block link' = .ok t) : s.block = t.block := by
  have hblock := (step_eq_ok_iff.1 hs).1
  rw [(step_eq_ok_iff.1 ht).1] at hblock
  exact (Except.ok.inj hblock).symm

/-- A plan can be made exactly if the catalog has all of its parts, and is made of them. -/
theorem Plan.ofCatalog_eq_ok_iff :
    Plan.ofCatalog c = .ok plan ↔ ∃ a : Anatomy, a.Of c ∧ plan = a.plan := by
  unfold Plan.ofCatalog
  constructor
  · intro h
    obtain ⟨⟨ipaName, ipaSteps, ipa⟩, hipaPath, h⟩ := bind_eq_ok_iff.1 h
    obtain ⟨⟨extensionName, extensionSteps, extension⟩, hextensionPath, h⟩ := bind_eq_ok_iff.1 h
    obtain ⟨loadDataset, hload, h⟩ := bind_eq_ok_iff.1 h
    obtain ⟨parmlibDatasetName, hparmlib, h⟩ := bind_eq_ok_iff.1 h
    obtain ⟨deviceId, hdevice, h⟩ := bind_eq_ok_iff.1 h
    obtain ⟨iodfId, hiodf, h⟩ := bind_eq_ok_iff.1 h
    cases h
    obtain ⟨-, hipaName, hipaSteps, hipa⟩ := Catalog.path_eq_ok_iff.1 hipaPath
    obtain ⟨-, hextensionName, hextensionSteps, hextension⟩ :=
      Catalog.path_eq_ok_iff.1 hextensionPath
    dsimp only at hipaName hipaSteps hipa hextensionName hextensionSteps hextension
    subst hipaName hextensionName
    -- three steps of the first path, two of the second
    obtain ⟨first, _, hpsaCvt, hrest, rfl⟩ := List.forall₂_cons_left_iff.1 hipaSteps
    obtain ⟨second, _, hcvtEcvt, hrest', rfl⟩ := List.forall₂_cons_left_iff.1 hrest
    obtain ⟨third, _, hecvtIpa, ⟨⟩, rfl⟩ := List.forall₂_cons_left_iff.1 hrest'
    obtain ⟨first', _, hpsaCvt', hrest, rfl⟩ := List.forall₂_cons_left_iff.1 hextensionSteps
    obtain ⟨second', _, hcvtExtension, ⟨⟩, rfl⟩ := List.forall₂_cons_left_iff.1 hrest
    -- both paths start with one step, and the second step of both is out of one block
    have hfirst : first = first' := Except.ok.inj (hpsaCvt.symm.trans hpsaCvt')
    have hsecond : second.block = second'.block := Catalog.block_eq_of_step hcvtEcvt hcvtExtension
    obtain ⟨cvt, cvtExtension⟩ := second'
    dsimp only at hsecond
    subst hfirst hsecond
    exact ⟨⟨first.block, second.block, third.block, ipa, extension, first.link, second.link,
      third.link, cvtExtension, loadDataset, parmlibDatasetName, deviceId, iodfId⟩,
      ⟨hpsaCvt, hcvtEcvt, hecvtIpa, hcvtExtension, hipa, hextension, hload, hparmlib, hdevice,
        hiodf⟩, rfl⟩
  · rintro ⟨a, h, rfl⟩
    have hipa : c.path "ipa" ipaLinks "IPA" = .ok a.plan.ipaPath :=
      Catalog.path_eq_ok_iff.2 ⟨by simp [ipaLinks], rfl,
        .cons h.psaCvt (.cons h.cvtEcvt (.cons h.ecvtIpa .nil)), h.ipa⟩
    have hextension : c.path "cvtext2" extensionLinks "CVTEXT2" = .ok a.plan.extensionPath :=
      Catalog.path_eq_ok_iff.2 ⟨by simp [extensionLinks], rfl,
        .cons h.psaCvt (.cons h.cvtExtension .nil), h.extension⟩
    rw [hipa, hextension, h.loadDataset, h.parmlibDatasetName, h.deviceId, h.iodfId]
    rfl

/-- The parts of a catalog determine the plan. -/
theorem Anatomy.Of.plan_eq {a : Anatomy} (ha : a.Of c) (hplan : Plan.ofCatalog c = .ok plan) :
    a.plan = plan := by
  rw [Plan.ofCatalog_eq_ok_iff.2 ⟨a, ha, rfl⟩] at hplan
  exact Except.ok.inj hplan

end Lookup

/-! ## Section 3: The z/OS control blocks -/

namespace Anatomy

/-- The parts of the catalog of the five control blocks. -/
def zos (encoding : TextEncoding) : Anatomy where
  psa := Zos.psa
  cvt := Zos.cvt
  ecvt := Zos.ecvt
  ipa := Zos.ipa encoding
  extension := Zos.cvtExtension2 encoding
  psaCvt := ⟨"PSACVT", 16, 4, .link⟩
  cvtEcvt := ⟨"CVTECVT", 140, 4, .link⟩
  ecvtIpa := ⟨"ECVTIPA", 392, 4, .link⟩
  cvtExtension := ⟨"CVTEXT2", 328, 4, .link⟩
  loadDataset := ⟨"IPALOADS", 20, 2, .text encoding⟩
  parmlibDatasetName := ⟨"IPALPDSN", 48, 44, .text encoding⟩
  deviceId := ⟨"IPALPDDV", 92, 4, .text encoding⟩
  iodfId := ⟨"IODF_ID", 6, 2, .text encoding⟩

theorem of_zos (encoding : TextEncoding) : (zos encoding).Of (Zos.catalog encoding) := by
  cases encoding <;> constructor <;> rfl

theorem ofCatalog_zos (encoding : TextEncoding) :
    Plan.ofCatalog (Zos.catalog encoding) = .ok (zos encoding).plan :=
  Plan.ofCatalog_eq_ok_iff.2 ⟨_, of_zos encoding, rfl⟩

end Anatomy

end IplReport
