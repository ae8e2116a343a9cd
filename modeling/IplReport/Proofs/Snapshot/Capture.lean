import IplReport.Proofs.Chain.InImage
import IplReport.Proofs.FieldValue
import IplReport.Proofs.Snapshot.Anatomy

/-!
# Snapshots of a memory image

Taking a snapshot composes checked layouts, two walks and four extractions.  Here its outcome is
described by the image alone: the addresses that the links hold, the blocks that the image can
supply there, and the bytes of the fields at their own places.  A root that is set either reaches
all five blocks, and then all four fields are there, or a first link fails.

Main statements:
- `Plan.captureImage_success`: when there is a snapshot, and what it says;
- `Plan.captureImage_failure`: which errors there are, and when.
-/

namespace IplReport

/-! ## Section 1: What the image says -/

/-- The value `v` is what the image holds of the text field `f` of the block at `address`. -/
def Image.ShowsField (image : Image) (address : UInt64) (f : Field) (v : FieldValue) : Prop :=
  ∃ encoding window, f.kind = .text encoding ∧ image.FieldHolds address f window ∧
    v.Shows f encoding window

/-- Where the five blocks are. -/
structure Places where
  psa : UInt64
  cvt : UInt64
  ecvt : UInt64
  ipa : UInt64
  extension : UInt64

namespace Anatomy

/-- A root is set, links lead from there to all of the blocks, and the image can supply each. -/
structure Reached (a : Anatomy) (image : Image) (places : Places) : Prop where
  root : image.root = some places.psa
  psa : image.Supplies a.psa places.psa
  cvt : image.Links places.psa a.psaCvt places.cvt a.cvt
  ecvt : image.Links places.cvt a.cvtEcvt places.ecvt a.ecvt
  ipa : image.Links places.ecvt a.ecvtIpa places.ipa a.ipa
  extension : image.Links places.cvt a.cvtExtension places.extension a.extension

/-- The values of a snapshot are what the image holds of the fields in the two last blocks. -/
structure Shown (a : Anatomy) (image : Image) (places : Places) (s : Snapshot) : Prop where
  loadDataset : image.ShowsField places.ipa a.loadDataset s.loadDataset
  parmlibDatasetName : image.ShowsField places.ipa a.parmlibDatasetName s.parmlibDatasetName
  deviceId : image.ShowsField places.ipa a.deviceId s.deviceId
  iodfId : image.ShowsField places.extension a.iodfId s.iodfId

/-- Why there is no snapshot.  The link out of the prefixed save area is followed twice, but it
can fail only the first time. -/
inductive Failure (a : Anatomy) (image : Image) : SnapshotError → Prop where
  /-- No root is set. -/
  | noRoot : image.root = none → Failure a image (.traversal .loadDataset .noRoot)
  /-- The image cannot supply the prefixed save area at the root. -/
  | noPsa {psa : UInt64} : image.root = some psa → image.read psa a.psa.size = none →
      Failure a image (.traversal .loadDataset (.rootUnavailable "PSA" psa a.psa.size))
  /-- The first link to fail is that to the communications vector table. -/
  | psaCvt {psa : UInt64} {fault : LinkFault} : image.root = some psa →
      image.Supplies a.psa psa → image.LinkFails psa a.psaCvt a.cvt fault →
      Failure a image (.traversal .loadDataset (.brokenLink 0 "PSA" "PSACVT" fault))
  /-- The first link to fail is that to the extended table. -/
  | cvtEcvt {psa cvt : UInt64} {fault : LinkFault} : image.root = some psa →
      image.Supplies a.psa psa → image.Links psa a.psaCvt cvt a.cvt →
      image.LinkFails cvt a.cvtEcvt a.ecvt fault →
      Failure a image (.traversal .loadDataset (.brokenLink 1 "CVT" "CVTECVT" fault))
  /-- The first link to fail is that to the initialization parameter area. -/
  | ecvtIpa {psa cvt ecvt : UInt64} {fault : LinkFault} : image.root = some psa →
      image.Supplies a.psa psa → image.Links psa a.psaCvt cvt a.cvt →
      image.Links cvt a.cvtEcvt ecvt a.ecvt → image.LinkFails ecvt a.ecvtIpa a.ipa fault →
      Failure a image (.traversal .loadDataset (.brokenLink 2 "ECVT" "ECVTIPA" fault))
  /-- The first link to fail is that to the second extension. -/
  | cvtExtension {psa cvt ecvt ipa : UInt64} {fault : LinkFault} : image.root = some psa →
      image.Supplies a.psa psa → image.Links psa a.psaCvt cvt a.cvt →
      image.Links cvt a.cvtEcvt ecvt a.ecvt → image.Links ecvt a.ecvtIpa ipa a.ipa →
      image.LinkFails cvt a.cvtExtension a.extension fault →
      Failure a image (.traversal .iodfId (.brokenLink 1 "CVT" "CVTEXT2" fault))

end Anatomy

/-! ## Section 2: Fields of blocks that were read -/

section Fields

variable {c : Catalog} {image : Image} {b : Block} {f : Field} {v : FieldValue}
  {block field : String} {address : UInt64} {bytes : Bytes}

/-- The text fields of a catalog end inside their blocks. -/
theorem Catalog.textField_fits (hb : c.block block = .ok b) (hf : c.textField block field = .ok f) :
    f.stop ≤ b.size.toNat ∧ ∃ encoding, f.kind = .text encoding := by
  obtain ⟨b', hb', hf, htext⟩ := textField_eq_ok_iff.1 hf
  have hsame : b' = b := Except.ok.inj (hb'.symm.trans hb)
  subst hsame
  have hsound := c.sound (block_eq_ok_iff.1 hb').1
  have hmem := ((Block.field_eq_ok_iff hsound.distinct).1 hf).1
  exact ⟨(hsound.admitted f hmem).stop, Field.isText_iff.1 htext⟩

/-- A text field of a block that was read has the value that the image shows of it. -/
theorem Image.extract_eq_ok_iff (h : image.Orderly) (hb : c.block block = .ok b)
    (hf : c.textField block field = .ok f) (hread : image.read address b.size = some bytes) :
    LocatedBlock.extract ⟨b, address, bytes⟩ f = .ok v ↔ image.ShowsField address f v := by
  obtain ⟨hstop, -⟩ := Catalog.textField_fits hb hf
  rw [LocatedBlock.extract_eq_ok_iff]
  refine exists_congr fun encoding => exists_congr fun window => ?_
  -- what is read of the block is what the image holds at the place of the field
  rw [h.fieldHolds_iff hread hstop]
  rfl

/-- A text field of a block that was read always has a value. -/
theorem Image.exists_showsField (h : image.Orderly) (hb : c.block block = .ok b)
    (hf : c.textField block field = .ok f) (hsupplied : image.Supplies b address) :
    ∃ v, image.ShowsField address f v := by
  obtain ⟨bytes, hread⟩ := hsupplied
  obtain ⟨hstop, encoding, hkind⟩ := Catalog.textField_fits hb hf
  obtain ⟨window, hwindow⟩ := h.exists_fieldHolds hread hstop
  exact ⟨_, encoding, window, hkind, hwindow, FieldValue.shows_iff.2 rfl⟩

end Fields

/-! ## Section 3: Following a plan -/

namespace Plan

variable {plan : Plan} {space : AddressSpace} {root : UInt64} {here there : LocatedBlock}
  {load parmlib device iodf : FieldValue} {cause : WalkError}

/-- A snapshot is taken if both walks reach their ends and the fields are there. -/
theorem capture_of_ok (hipa : (plan.ipaPath.walk space root).outcome = .ok here)
    (hload : here.extract plan.loadDataset = .ok load)
    (hparmlib : here.extract plan.parmlibDatasetName = .ok parmlib)
    (hdevice : here.extract plan.deviceId = .ok device)
    (hextension : (plan.extensionPath.walk space root).outcome = .ok there)
    (hiodf : there.extract plan.iodfId = .ok iodf) :
    (plan.capture space root).outcome = .ok ⟨load, parmlib, device, iodf⟩ := by
  simp [-bind_pure_comp, capture, locate, extract, Traced.outcome_bind, Except.mapError,
    Except.bind, hipa, hload, hparmlib, hdevice, hextension, hiodf]

/-- If the first walk does not reach its end, this is the error. -/
theorem capture_of_ipa_error (hipa : (plan.ipaPath.walk space root).outcome = .error cause) :
    (plan.capture space root).outcome = .error (.traversal .loadDataset cause) := by
  simp [capture, locate, Traced.outcome_bind, Except.mapError, Except.bind, hipa]

/-- If only the second walk does not reach its end, that is the error. -/
theorem capture_of_extension_error (hipa : (plan.ipaPath.walk space root).outcome = .ok here)
    (hload : here.extract plan.loadDataset = .ok load)
    (hparmlib : here.extract plan.parmlibDatasetName = .ok parmlib)
    (hdevice : here.extract plan.deviceId = .ok device)
    (hextension : (plan.extensionPath.walk space root).outcome = .error cause) :
    (plan.capture space root).outcome = .error (.traversal .iodfId cause) := by
  simp [-bind_pure_comp, capture, locate, extract, Traced.outcome_bind, Except.mapError,
    Except.bind, hipa, hload, hparmlib, hdevice, hextension]

/-- A snapshot of an image is one of its storage, from the root that is set. -/
theorem captureImage_of_root {image : Image} (hroot : image.root = some root) :
    plan.captureImage image = (plan.capture image.space root).outcome := by
  rw [captureImage, hroot]

end Plan

/-! ## Section 4: Snapshots and failures -/

namespace Anatomy

variable {a : Anatomy} {c : Catalog} {image : Image} {places : Places} {s : Snapshot}
  {e : SnapshotError} {psa cvt ecvt ipa : UInt64}

theorem Of.ipaPath_fits (ha : a.Of c) : ∀ step ∈ a.plan.ipaPath.steps, step.Fits := by
  simp only [plan, List.forall_mem_cons]
  exact ⟨Catalog.fits_of_step ha.psaCvt, Catalog.fits_of_step ha.cvtEcvt,
    Catalog.fits_of_step ha.ecvtIpa, by simp⟩

theorem Of.extensionPath_fits (ha : a.Of c) : ∀ step ∈ a.plan.extensionPath.steps, step.Fits := by
  simp only [plan, List.forall_mem_cons]
  exact ⟨Catalog.fits_of_step ha.psaCvt, Catalog.fits_of_step ha.cvtExtension, by simp⟩

/-- The names of the blocks and links, which errors carry. -/
theorem Of.names (ha : a.Of c) :
    (a.psa.name = "PSA" ∧ a.cvt.name = "CVT" ∧ a.ecvt.name = "ECVT") ∧
      a.psaCvt.name = "PSACVT" ∧ a.cvtEcvt.name = "CVTECVT" ∧ a.ecvtIpa.name = "ECVTIPA" ∧
      a.cvtExtension.name = "CVTEXT2" := by
  -- a step is made of the block and the field that have the names asked for
  have hnames : ∀ {block link s}, c.step block link = .ok s →
      s.block.name = block ∧ s.link.name = link := by
    intro block link s hs
    obtain ⟨hblock, hfield, -⟩ := Catalog.step_eq_ok_iff.1 hs
    obtain ⟨hmem, hname⟩ := Catalog.block_eq_ok_iff.1 hblock
    exact ⟨hname, ((Block.field_eq_ok_iff (c.sound hmem).distinct).1 hfield).2⟩
  exact ⟨⟨(hnames ha.psaCvt).1, (hnames ha.cvtEcvt).1, (hnames ha.ecvtIpa).1⟩,
    (hnames ha.psaCvt).2, (hnames ha.cvtEcvt).2, (hnames ha.ecvtIpa).2,
    (hnames ha.cvtExtension).2⟩

/-- Three fields are there wherever the image can supply the initialization parameter area. -/
theorem Of.exists_ipa_values (ha : a.Of c) (h : image.Orderly) (hipa : image.Supplies a.ipa ipa) :
    ∃ load parmlib device, image.ShowsField ipa a.loadDataset load ∧
      image.ShowsField ipa a.parmlibDatasetName parmlib ∧
      image.ShowsField ipa a.deviceId device := by
  obtain ⟨load, hload⟩ := Image.exists_showsField h ha.ipa ha.loadDataset hipa
  obtain ⟨parmlib, hparmlib⟩ := Image.exists_showsField h ha.ipa ha.parmlibDatasetName hipa
  obtain ⟨device, hdevice⟩ := Image.exists_showsField h ha.ipa ha.deviceId hipa
  exact ⟨load, parmlib, device, hload, hparmlib, hdevice⟩

/-- Along the links that lead there, the first walk reaches the initialization parameter area, and
the values that are read in it are those that the image shows. -/
theorem Of.ipa_walk (ha : a.Of c) (h : image.Orderly) (hpsa : image.Supplies a.psa psa)
    (hcvt : image.Links psa a.psaCvt cvt a.cvt) (hecvt : image.Links cvt a.cvtEcvt ecvt a.ecvt)
    (hipa : image.Links ecvt a.ecvtIpa ipa a.ipa) :
    ∃ here, (a.plan.ipaPath.walk image.space psa).outcome = .ok here ∧
      ∀ f name v, c.textField "IPA" name = .ok f →
        (here.extract f = .ok v ↔ image.ShowsField ipa f v) := by
  have hway : image.Way a.ipa psa a.plan.ipaPath.steps ipa :=
    .cons hcvt (.cons hecvt (.cons hipa .nil))
  obtain ⟨bytes, hread, hwalk⟩ := Image.walk_of_way h ha.ipaPath_fits hpsa hway
  exact ⟨_, hwalk, fun f name v hf => Image.extract_eq_ok_iff h ha.ipa hf hread⟩

/-- If all blocks are reached, all fields are shown. -/
theorem Reached.exists_shown (ha : a.Of c) (h : image.Orderly) (hreached : a.Reached image places) :
    ∃ s, a.Shown image places s := by
  obtain ⟨load, parmlib, device, hload, hparmlib, hdevice⟩ :=
    ha.exists_ipa_values h hreached.ipa.supplied
  obtain ⟨iodf, hiodf⟩ :=
    Image.exists_showsField h ha.extension ha.iodfId hreached.extension.supplied
  exact ⟨⟨load, parmlib, device, iodf⟩, hload, hparmlib, hdevice, hiodf⟩

/-- If all blocks are reached, the snapshot shows the fields in them. -/
theorem Reached.captureImage (ha : a.Of c) (h : image.Orderly)
    (hreached : a.Reached image places) (hshown : a.Shown image places s) :
    a.plan.captureImage image = .ok s := by
  obtain ⟨here, hipa, hvalue⟩ :=
    ha.ipa_walk h hreached.psa hreached.cvt hreached.ecvt hreached.ipa
  -- the second walk starts from the root again
  have hway : image.Way a.extension places.psa a.plan.extensionPath.steps places.extension :=
    .cons hreached.cvt (.cons hreached.extension .nil)
  obtain ⟨bytes, hread, hextension⟩ :=
    Image.walk_of_way h ha.extensionPath_fits hreached.psa hway
  rw [Plan.captureImage_of_root hreached.root]
  apply Plan.capture_of_ok hipa
  · exact (hvalue _ _ _ ha.loadDataset).2 hshown.loadDataset
  · exact (hvalue _ _ _ ha.parmlibDatasetName).2 hshown.parmlibDatasetName
  · exact (hvalue _ _ _ ha.deviceId).2 hshown.deviceId
  · exact hextension
  · exact (Image.extract_eq_ok_iff h ha.extension ha.iodfId hread).2 hshown.iodfId

/-- If a failure has its reason in the image, the snapshot ends in its error. -/
theorem Failure.captureImage (ha : a.Of c) (h : image.Orderly) (hfailure : a.Failure image e) :
    a.plan.captureImage image = .error e := by
  obtain ⟨⟨hpsaName, hcvtName, hecvtName⟩, hpsaCvt, hcvtEcvt, hecvtIpa, hcvtExtension⟩ := ha.names
  -- errors carry names of the parts, which are the names they were looked up by
  cases hfailure with
  | noRoot hroot => rw [Plan.captureImage, hroot]
  | noPsa hroot hpsa =>
    rw [Plan.captureImage_of_root hroot, ← hpsaName]
    apply Plan.capture_of_ipa_error
    exact Image.walk_of_refused hpsa
  | psaCvt hroot hpsa hfails =>
    rw [Plan.captureImage_of_root hroot, ← hpsaName, ← hpsaCvt]
    apply Plan.capture_of_ipa_error
    exact Image.walk_of_stops h ha.ipaPath_fits hpsa (.here hfails)
  | cvtEcvt hroot hpsa hcvt hfails =>
    rw [Plan.captureImage_of_root hroot, ← hcvtName, ← hcvtEcvt]
    apply Plan.capture_of_ipa_error
    exact Image.walk_of_stops h ha.ipaPath_fits hpsa (.later hcvt (.here hfails))
  | ecvtIpa hroot hpsa hcvt hecvt hfails =>
    rw [Plan.captureImage_of_root hroot, ← hecvtName, ← hecvtIpa]
    apply Plan.capture_of_ipa_error
    exact Image.walk_of_stops h ha.ipaPath_fits hpsa (.later hcvt (.later hecvt (.here hfails)))
  | cvtExtension hroot hpsa hcvt hecvt hipa hfails =>
    -- the first walk has come to its end, so the fields there have been read
    obtain ⟨here, hwalk, hvalue⟩ := ha.ipa_walk h hpsa hcvt hecvt hipa
    obtain ⟨load, parmlib, device, hload, hparmlib, hdevice⟩ :=
      ha.exists_ipa_values h hipa.supplied
    rw [Plan.captureImage_of_root hroot, ← hcvtName, ← hcvtExtension]
    apply Plan.capture_of_extension_error hwalk
    · exact (hvalue _ _ _ ha.loadDataset).2 hload
    · exact (hvalue _ _ _ ha.parmlibDatasetName).2 hparmlib
    · exact (hvalue _ _ _ ha.deviceId).2 hdevice
    · exact Image.walk_of_stops h ha.extensionPath_fits hpsa (.later hcvt (.here hfails))

/-- Either all blocks are reached or there is a failure. -/
theorem reached_or_failure (ha : a.Of c) (h : image.Orderly) :
    (∃ places, a.Reached image places) ∨ ∃ e, a.Failure image e := by
  cases hroot : image.root with
  | none => exact Or.inr ⟨_, .noRoot hroot⟩
  | some psa =>
    cases hread : image.read psa a.psa.size with
    | none => exact Or.inr ⟨_, .noPsa hroot hread⟩
    | some bytes =>
      have hpsa : image.Supplies a.psa psa := ⟨bytes, hread⟩
      -- the links in the order in which they are first followed
      rcases Image.links_or_fails h (Catalog.fits_of_step ha.psaCvt) hpsa a.cvt with
        ⟨cvt, hcvt⟩ | ⟨fault, hfails⟩
      swap
      · exact Or.inr ⟨_, .psaCvt hroot hpsa hfails⟩
      rcases Image.links_or_fails h (Catalog.fits_of_step ha.cvtEcvt) hcvt.supplied a.ecvt with
        ⟨ecvt, hecvt⟩ | ⟨fault, hfails⟩
      swap
      · exact Or.inr ⟨_, .cvtEcvt hroot hpsa hcvt hfails⟩
      rcases Image.links_or_fails h (Catalog.fits_of_step ha.ecvtIpa) hecvt.supplied a.ipa with
        ⟨ipa, hipa⟩ | ⟨fault, hfails⟩
      swap
      · exact Or.inr ⟨_, .ecvtIpa hroot hpsa hcvt hecvt hfails⟩
      rcases Image.links_or_fails h (Catalog.fits_of_step ha.cvtExtension) hcvt.supplied
        a.extension with ⟨extension, hextension⟩ | ⟨fault, hfails⟩
      · exact Or.inl ⟨⟨psa, cvt, ecvt, ipa, extension⟩,
          hroot, hpsa, hcvt, hecvt, hipa, hextension⟩
      · exact Or.inr ⟨_, .cvtExtension hroot hpsa hcvt hecvt hipa hfails⟩

/-- There is a snapshot exactly if all blocks are reached, and it shows the fields in them. -/
theorem captureImage_eq_ok_iff (ha : a.Of c) (h : image.Orderly) :
    a.plan.captureImage image = .ok s ↔
      ∃ places, a.Reached image places ∧ a.Shown image places s := by
  constructor
  · intro hs
    -- a failure would have ended in an error, so all blocks are reached
    rcases reached_or_failure ha h with ⟨places, hreached⟩ | ⟨e, hfailure⟩
    · obtain ⟨s', hshown⟩ := hreached.exists_shown ha h
      have hs' := hreached.captureImage ha h hshown
      rw [hs, Except.ok.injEq] at hs'
      subst hs'
      exact ⟨places, hreached, hshown⟩
    · rw [hfailure.captureImage ha h] at hs
      cases hs
  · rintro ⟨places, hreached, hshown⟩
    exact hreached.captureImage ha h hshown

/-- There is an error exactly if the image has a failure for it. -/
theorem captureImage_eq_error_iff (ha : a.Of c) (h : image.Orderly) :
    a.plan.captureImage image = .error e ↔ a.Failure image e := by
  constructor
  · intro he
    -- if the blocks were reached, there would be a snapshot
    rcases reached_or_failure ha h with ⟨places, hreached⟩ | ⟨e', hfailure⟩
    · obtain ⟨s, hshown⟩ := hreached.exists_shown ha h
      rw [hreached.captureImage ha h hshown] at he
      cases he
    · have he' := hfailure.captureImage ha h
      rw [he, Except.error.injEq] at he'
      subst he'
      exact hfailure
  · exact fun hfailure => hfailure.captureImage ha h

end Anatomy

/-! ## Section 5: What a plan of any catalog makes of any image -/

namespace Plan

variable {c : Catalog} {plan : Plan}

/-- What a snapshot of an image is, for every catalog that has a plan and every image that can
be reached.  There is one exactly if a root is set, the image can supply the prefixed save area
there, and the links lead to the other four blocks.  Its values are what the image holds of the
four fields at their own places, without the fill at their ends. -/
theorem captureImage_success (hplan : Plan.ofCatalog c = .ok plan) :
    ∃ a : Anatomy, a.Of c ∧ ∀ image : Image, image.Reachable →
      ((∃ s, plan.captureImage image = .ok s) ↔ ∃ places, a.Reached image places) ∧
      ∀ s, plan.captureImage image = .ok s ↔
        ∃ places, a.Reached image places ∧ a.Shown image places s := by
  -- a plan consists of blocks, links and fields of its catalog, which are the anatomy
  obtain ⟨a, ha, rfl⟩ := ofCatalog_eq_ok_iff.1 hplan
  refine ⟨a, ha, fun image hreachable => ?_⟩
  have h := hreachable.orderly
  refine ⟨?_, fun s => Anatomy.captureImage_eq_ok_iff ha h⟩
  constructor
  · rintro ⟨s, hs⟩
    obtain ⟨places, hreached, -⟩ := (Anatomy.captureImage_eq_ok_iff ha h).1 hs
    exact ⟨places, hreached⟩
  · rintro ⟨places, hreached⟩
    obtain ⟨s, hshown⟩ := hreached.exists_shown ha h
    exact ⟨s, hreached.captureImage ha h hshown⟩

/-- An image in which all blocks overlap at the address 4, with a given byte at the end of the
link to the second extension of the vector table. -/
def overlappedImage (extension : UInt8) : Image :=
  [.map 0 (List.replicate 400 0), .write 16 [0, 0, 0, 4], .write 144 [0, 0, 0, 4],
    .write 332 [0, 0, 0, extension], .write 396 [0, 0, 0, 4], .write 24 [0xf0, 0xf1],
    .setRoot 0].foldl Image.apply (.empty .amode31)

theorem reachable_overlappedImage (extension : UInt8) : (overlappedImage extension).Reachable :=
  ⟨.amode31, _, rfl⟩

theorem captureImage_success_overlappedImage :
    ∃ (plan : Plan) (a : Anatomy) (s : Snapshot) (places : Places),
      Plan.ofCatalog (Zos.catalog .ebcdic) = .ok plan ∧
      plan.captureImage (overlappedImage 4) = .ok s ∧ s.loadDataset.text = "01" ∧
      a.Of (Zos.catalog .ebcdic) ∧ a.Reached (overlappedImage 4) places ∧
      a.Shown (overlappedImage 4) places s := by
  have htext : ((Anatomy.zos .ebcdic).plan.captureImage (overlappedImage 4)).toOption.map
      (·.loadDataset.text) = some "01" := by decide +kernel
  cases hs : (Anatomy.zos .ebcdic).plan.captureImage (overlappedImage 4) with
  | error fault => simp [hs, Except.toOption] at htext
  | ok s =>
    have hplan := Anatomy.ofCatalog_zos .ebcdic
    obtain ⟨a, ha, hsuccess⟩ := captureImage_success hplan
    obtain ⟨places, hreached, hshown⟩ := ((hsuccess _ (reachable_overlappedImage 4)).2 s).1 hs
    refine ⟨_, a, s, places, hplan, hs, ?_, ha, hreached, hshown⟩
    simpa [hs, Except.toOption] using htext

/-- Which errors a snapshot of an image ends in, for every catalog that has a plan and every image
that can be reached: those of `Anatomy.Failure`, and that there is no root exactly if none is
set.  In particular no field is ever missing from a block that was reached. -/
theorem captureImage_failure (hplan : Plan.ofCatalog c = .ok plan) :
    ∃ a : Anatomy, a.Of c ∧ ∀ image : Image, image.Reachable →
      (∀ e, plan.captureImage image = .error e ↔ a.Failure image e) ∧
      (plan.captureImage image = .error (.traversal .loadDataset .noRoot) ↔ image.root = none) := by
  obtain ⟨a, ha, rfl⟩ := ofCatalog_eq_ok_iff.1 hplan
  refine ⟨a, ha, fun image hreachable => ?_⟩
  have h := hreachable.orderly
  refine ⟨fun e => Anatomy.captureImage_eq_error_iff ha h, ?_⟩
  rw [Anatomy.captureImage_eq_error_iff ha h]
  constructor
  · intro hfailure
    cases hfailure with
    | noRoot hroot => exact hroot
  · exact .noRoot

theorem captureImage_failure_overlappedImage :
    ∃ (plan : Plan) (a : Anatomy), Plan.ofCatalog (Zos.catalog .ebcdic) = .ok plan ∧
      a.Of (Zos.catalog .ebcdic) ∧
      a.Failure (overlappedImage 0) (.traversal .iodfId (.brokenLink 1 "CVT" "CVTEXT2" .null)) := by
  have herror : (Anatomy.zos .ebcdic).plan.captureImage (overlappedImage 0) =
      .error (.traversal .iodfId (.brokenLink 1 "CVT" "CVTEXT2" .null)) := by decide +kernel
  have hplan := Anatomy.ofCatalog_zos .ebcdic
  obtain ⟨a, ha, hfailure⟩ := captureImage_failure hplan
  exact ⟨_, a, hplan, ha, ((hfailure _ (reachable_overlappedImage 0)).1 _).1 herror⟩

end Plan

end IplReport
