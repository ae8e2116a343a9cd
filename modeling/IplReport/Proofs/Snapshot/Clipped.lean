import IplReport.Proofs.Chain.Sums
import IplReport.Proofs.Snapshot.Reads

/-!
# Snapshots of storage that hands back too little

Where storage hands back fewer bytes than it was asked for, there may be no snapshot, but there is
never a wrong one: every link and every field that is read is the one that whole storage has.

Main statement:
- `Plan.capture_clipped`: walks and snapshots in clipped storage, against those in whole storage.
-/

namespace IplReport

variable {clipped whole : AddressSpace} {root : UInt64} {c : Catalog} {path : Path}
  {here there : LocatedBlock} {f : Field} {v : FieldValue}

/-! ## Section 1: Links that are cut off -/

/-- On the way along a path, the bytes of a block end before the link out of it does.  The error
names this step and link, and the address of the link, which is an exact sum. -/
def Path.CutShort (path : Path) (space : AddressSpace) (root : UInt64) (e : WalkError) : Prop :=
  ∃ i, ∃ hi : i < path.steps.length, ∃ place position, path.Trail space root i place ∧
    (place i).bytes.length < path.steps[i].link.stop ∧
    position.toNat = (place i).address.toNat + path.steps[i].link.offset.toNat ∧
    e = .brokenLink i path.steps[i].block.name path.steps[i].link.name
      (.unmapped position path.steps[i].link.width)

/-- Where a walk fails in clipped storage only, a link is cut off. -/
theorem Path.cutShort_of_clips {name terminal : String} {links : List (String × String)}
    {e : WalkError} (hpath : c.path name links terminal = .ok path) (hclips : clipped.Clips whole)
    (hbounded : whole.Bounded) (h : (path.walk clipped root).outcome = .error e) :
    (path.walk whole root).outcome = .error e ∨ path.CutShort clipped root e := by
  have hfits := Catalog.fits_of_path hpath
  rcases walk_eq_error_of_clips (addressWide_of_fits hfits) hclips h with
    hwhole | ⟨i, hi, place, htrail, hshort, rfl⟩
  · exact Or.inl hwhole
  · exact Or.inr ⟨i, hi, place, _, htrail, hshort,
      htrail.toNat_add_offset (hclips.bounded hbounded) hfits hi (Nat.le_refl i), rfl⟩

/-! ## Section 2: Fields -/

/-- A value that is extracted from a beginning of a block is the one that the whole block has. -/
theorem LocatedBlock.Begins.extract (h : here.Begins there) (hv : here.extract f = .ok v) :
    there.extract f = .ok v := by
  obtain ⟨encoding, window, hkind, hwindow, hshows⟩ := extract_eq_ok_iff.1 hv
  rw [extract_eq_ok_iff]
  exact ⟨encoding, window, hkind, Bytes.window?_of_beginning h.bytes hwindow, hshows⟩

/-- The four fields of a plan are text. -/
theorem Anatomy.Of.isText {a : Anatomy} (ha : a.Of c)
    (hf : f ∈ [a.plan.loadDataset, a.plan.parmlibDatasetName, a.plan.deviceId, a.plan.iodfId]) :
    f.isText = true := by
  -- a catalog hands out fields for a plan only if they are text
  have htext : ∀ {block field g}, c.textField block field = .ok g → g.isText = true := by
    intro block field g hg
    obtain ⟨_, _, _, hg⟩ := Catalog.textField_eq_ok_iff.1 hg
    exact hg
  simp only [List.mem_cons, List.not_mem_nil, or_false] at hf
  rcases hf with rfl | rfl | rfl | rfl
  · exact htext ha.loadDataset
  · exact htext ha.parmlibDatasetName
  · exact htext ha.deviceId
  · exact htext ha.iodfId

/-! ## Section 3: Walks and snapshots -/

namespace Plan

/-- Storage that clips what it hands back leads to errors, and never to other values.  A walk along
a path of a catalog ends where it does in whole storage, with a beginning of the bytes there; or it
fails as in whole storage; or it misses a link that the bytes end before.  A snapshot by the plan
of a catalog is that of whole storage; where there is none, a walk has failed or a field ends past
the bytes that were handed back. -/
theorem capture_clipped (hclips : clipped.Clips whole) (hbounded : whole.Bounded) (root : UInt64)
    (c : Catalog) :
    (∀ name links terminal path, c.path name links terminal = .ok path →
      (∀ there, (path.walk clipped root).outcome = .ok there →
        ∃ bytes, (path.walk whole root).outcome = .ok ⟨there.block, there.address, bytes⟩ ∧
          there.bytes <+: bytes) ∧
      ∀ e, (path.walk clipped root).outcome = .error e →
        (path.walk whole root).outcome = .error e ∨ path.CutShort clipped root e) ∧
    ∀ plan, ofCatalog c = .ok plan →
      (∀ s, (plan.capture clipped root).outcome = .ok s →
        (plan.capture whole root).outcome = .ok s) ∧
      ∀ e, (plan.capture clipped root).outcome = .error e →
        (∃ field cause, e = .traversal field cause) ∨
        ∃ field block name offset width available,
          e = .extraction field (.outOfRange block name offset width available) := by
  constructor
  · intro name links terminal path hpath
    have hwide : AddressWide path.steps :=
      fun step hstep => (Catalog.link_of_path hpath hstep).2.2
    exact ⟨fun there hok => Path.walk_eq_ok_of_clips hwide hclips hok,
      fun e herror => Path.cutShort_of_clips hpath hclips hbounded herror⟩
  · intro plan hplan
    obtain ⟨a, ha, rfl⟩ := ofCatalog_eq_ok_iff.1 hplan
    have hipaWide : AddressWide a.plan.ipaPath.steps :=
      fun step hstep => (ha.ipaPath_fits step hstep).width
    have hextensionWide : AddressWide a.plan.extensionPath.steps :=
      fun step hstep => (ha.extensionPath_fits step hstep).width
    constructor
    · intro s hs
      obtain ⟨here, there, hipa, hload, hparmlib, hdevice, hextension, hiodf⟩ :=
        capture_eq_ok_iff.1 hs
      obtain ⟨bytes, hipa', hbegins⟩ := Path.walk_eq_ok_of_clips hipaWide hclips hipa
      obtain ⟨bytes', hextension', hbegins'⟩ :=
        Path.walk_eq_ok_of_clips hextensionWide hclips hextension
      have hhere : here.Begins ⟨here.block, here.address, bytes⟩ := ⟨rfl, rfl, hbegins⟩
      have hthere : there.Begins ⟨there.block, there.address, bytes'⟩ := ⟨rfl, rfl, hbegins'⟩
      exact capture_eq_ok_iff.2 ⟨_, _, hipa', hhere.extract hload, hhere.extract hparmlib,
        hhere.extract hdevice, hextension', hthere.extract hiodf⟩
    · intro e he
      rcases cases_of_capture_eq_error he with hwalk | ⟨here, f, hf, field, fault, hfault, rfl⟩
      · exact Or.inl hwalk
      · -- the fields are text, so they are extracted wherever they are there
        rcases LocatedBlock.extract_eq_error_iff.1 hfault with ⟨hkind, -⟩ | ⟨-, -, rfl⟩
        · rw [ha.isText hf] at hkind
          cases hkind
        · exact Or.inr ⟨field, _, _, _, _, _, rfl⟩

/-- Of storage that hands back 20 bytes at most, the link to the vector table is read, and the link
out of that table is cut off. -/
theorem capture_clipped_overlappedImage :
    ∃ path bytes, (Zos.catalog .ebcdic).path "cvt" [("PSA", "PSACVT")] "CVT" = .ok path ∧
      (path.walk (overlappedImage 4).space 0).outcome = .ok ⟨Zos.cvt, 4, bytes⟩ ∧
      List.replicate 15 0 ++ [4, 0, 0, 0, 0] <+: bytes ∧
      (Anatomy.zos .ebcdic).plan.ipaPath.CutShort ((overlappedImage 4).space.clipped 20) 0
        (.brokenLink 1 "CVT" "CVTECVT" (.unmapped 144 4)) := by
  have hpath : (Zos.catalog .ebcdic).path "cvt" [("PSA", "PSACVT")] "CVT" =
      .ok ⟨"cvt", [⟨Zos.psa, ⟨"PSACVT", 16, 4, .link⟩⟩], Zos.cvt⟩ := rfl
  have hipaPath : (Zos.catalog .ebcdic).path "ipa" ipaLinks "IPA" =
      .ok (Anatomy.zos .ebcdic).plan.ipaPath := rfl
  have hruns :
      (Path.walk ⟨"cvt", [⟨Zos.psa, ⟨"PSACVT", 16, 4, .link⟩⟩], Zos.cvt⟩
        ((overlappedImage 4).space.clipped 20) 0).outcome =
        .ok ⟨Zos.cvt, 4, List.replicate 15 0 ++ [4, 0, 0, 0, 0]⟩ ∧
      ((Anatomy.zos .ebcdic).plan.ipaPath.walk
        ((overlappedImage 4).space.clipped 20) 0).outcome =
        .error (.brokenLink 1 "CVT" "CVTECVT" (.unmapped 144 4)) ∧
      ((Anatomy.zos .ebcdic).plan.ipaPath.walk (overlappedImage 4).space 0).outcome ≠
        .error (.brokenLink 1 "CVT" "CVTECVT" (.unmapped 144 4)) := by
    decide +kernel
  obtain ⟨hcvt, hipa, hwhole⟩ := hruns
  obtain ⟨hwalks, -⟩ := capture_clipped
    (AddressSpace.clips_clipped (overlappedImage 4).space 20)
    (reachable_overlappedImage 4).orderly.bounded_space 0 (Zos.catalog .ebcdic)
  obtain ⟨bytes, hwalk, hbegins⟩ := (hwalks _ _ _ _ hpath).1 _ hcvt
  refine ⟨_, bytes, hpath, hwalk, hbegins, ?_⟩
  -- the whole walk goes on where the clipped one has stopped
  exact ((hwalks _ _ _ _ hipaPath).2 _ hipa).resolve_left hwhole

end Plan

end IplReport
