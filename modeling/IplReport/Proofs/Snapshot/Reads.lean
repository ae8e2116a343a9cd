import IplReport.Proofs.Chain.Reads
import IplReport.Proofs.Snapshot.Capture

/-!
# What a snapshot reads

Taking a snapshot walks twice, and taking a field out of a block that was read reads nothing more.
So the reads are those of the first walk and, only if that walk and the three fields at its end
succeeded, those of the second.

Main statement:
- `Plan.reads_checked`: which reads are attempted, on a walk and for a snapshot.
-/

namespace IplReport

/-! ## Section 1: Traced computations -/

namespace Traced

variable {ε α β : Type} {t : Traced ε α} {next : α → Traced ε β} {e : ε}

theorem reads_bind_of_error (h : t.outcome = .error e) : (t >>= next).reads = t.reads := by
  change (Traced.bind t next).reads = _
  simp [Traced.bind, h]

/-- A sequence succeeds exactly if its first part does and what follows succeeds with that value. -/
theorem outcome_bind_eq_ok_iff {b : β} :
    (t >>= next).outcome = .ok b ↔ ∃ a, t.outcome = .ok a ∧ (next a).outcome = .ok b := by
  rw [outcome_bind]
  exact bind_eq_ok_iff

theorem outcome_bind_eq_error_iff :
    (t >>= next).outcome = .error e ↔
      t.outcome = .error e ∨ ∃ a, t.outcome = .ok a ∧ (next a).outcome = .error e := by
  rw [outcome_bind]
  exact bind_eq_error_iff

/-- What follows adds no reads if it has none. -/
theorem reads_bind_of_silent (h : ∀ a, (next a).reads = []) : (t >>= next).reads = t.reads := by
  change (Traced.bind t next).reads = _
  cases ht : t.outcome <;> simp [Traced.bind, ht, h]

end Traced

/-! ## Section 2: Following a plan -/

namespace Plan

variable {plan : Plan} {space : AddressSpace} {root : UInt64} {here : LocatedBlock}
  {f : Field} {v : FieldValue} {path : Path} {field : SnapshotField} {cause : WalkError}
  {fault : ExtractionError}

@[simp] theorem reads_locate :
    (locate path space root field).reads = (path.walk space root).reads := rfl

@[simp] theorem reads_extract : (extract here f field).reads = [] := rfl

theorem locate_eq_ok_iff :
    (locate path space root field).outcome = .ok here ↔
      (path.walk space root).outcome = .ok here := by
  rw [locate, Traced.outcome_mapError, mapError_eq_ok_iff]

theorem extract_eq_ok_iff :
    (extract here f field).outcome = .ok v ↔ here.extract f = .ok v := by
  rw [extract, Traced.outcome_ofExcept, mapError_eq_ok_iff]

theorem locate_eq_error_iff {e : SnapshotError} :
    (locate path space root field).outcome = .error e ↔
      ∃ cause, (path.walk space root).outcome = .error cause ∧ e = .traversal field cause := by
  rw [locate, Traced.outcome_mapError, mapError_eq_error_iff]

theorem extract_eq_error_iff {e : SnapshotError} :
    (extract here f field).outcome = .error e ↔
      ∃ fault, here.extract f = .error fault ∧ e = .extraction field fault := by
  rw [extract, Traced.outcome_ofExcept, mapError_eq_error_iff]

/-- The first walk of a plan comes to its end, and the three fields are there. -/
def ReadsIpa (plan : Plan) (space : AddressSpace) (root : UInt64) : Prop :=
  ∃ here load parmlib device, (plan.ipaPath.walk space root).outcome = .ok here ∧
    here.extract plan.loadDataset = .ok load ∧
    here.extract plan.parmlibDatasetName = .ok parmlib ∧
    here.extract plan.deviceId = .ok device

/-- The second walk is taken after the first one has given its fields. -/
theorem reads_capture_of_readsIpa (h : plan.ReadsIpa space root) :
    (plan.capture space root).reads =
      (plan.ipaPath.walk space root).reads ++ (plan.extensionPath.walk space root).reads := by
  obtain ⟨here, load, parmlib, device, hipa, hload, hparmlib, hdevice⟩ := h
  -- the last field is taken out of a block, and then there is only the result
  have hlast : ∀ extension,
      (do
        let iodfId ← extract extension plan.iodfId .iodfId
        return (⟨load, parmlib, device, iodfId⟩ : Snapshot)).reads = [] :=
    fun extension => Traced.reads_bind_of_silent fun _ => rfl
  rw [capture, Traced.reads_bind_of_ok (locate_eq_ok_iff.2 hipa),
    Traced.reads_bind_of_ok (extract_eq_ok_iff.2 hload),
    Traced.reads_bind_of_ok (extract_eq_ok_iff.2 hparmlib),
    Traced.reads_bind_of_ok (extract_eq_ok_iff.2 hdevice), Traced.reads_bind_of_silent hlast]
  simp

/-- The second walk is not taken if the first one, or a field at its end, has failed. -/
theorem reads_capture_of_not_readsIpa (h : ¬plan.ReadsIpa space root) :
    (plan.capture space root).reads = (plan.ipaPath.walk space root).reads := by
  rw [capture]
  -- the first failure ends it
  cases hipa : (plan.ipaPath.walk space root).outcome with
  | error cause => exact Traced.reads_bind_of_error (locate_eq_error_iff.2 ⟨_, hipa, rfl⟩)
  | ok here =>
    rw [Traced.reads_bind_of_ok (locate_eq_ok_iff.2 hipa)]
    cases hload : here.extract plan.loadDataset with
    | error fault =>
      rw [Traced.reads_bind_of_error (extract_eq_error_iff.2 ⟨_, hload, rfl⟩)]
      simp
    | ok load =>
      rw [Traced.reads_bind_of_ok (extract_eq_ok_iff.2 hload)]
      cases hparmlib : here.extract plan.parmlibDatasetName with
      | error fault =>
        rw [Traced.reads_bind_of_error (extract_eq_error_iff.2 ⟨_, hparmlib, rfl⟩)]
        simp
      | ok parmlib =>
        rw [Traced.reads_bind_of_ok (extract_eq_ok_iff.2 hparmlib)]
        cases hdevice : here.extract plan.deviceId with
        | error fault =>
          rw [Traced.reads_bind_of_error (extract_eq_error_iff.2 ⟨_, hdevice, rfl⟩)]
          simp
        | ok device =>
          exact absurd ⟨here, load, parmlib, device, hipa, hload, hparmlib, hdevice⟩ h

/-- A snapshot is taken exactly if both walks reach their ends and the fields are there. -/
theorem capture_eq_ok_iff {s : Snapshot} :
    (plan.capture space root).outcome = .ok s ↔
      ∃ here there, (plan.ipaPath.walk space root).outcome = .ok here ∧
        here.extract plan.loadDataset = .ok s.loadDataset ∧
        here.extract plan.parmlibDatasetName = .ok s.parmlibDatasetName ∧
        here.extract plan.deviceId = .ok s.deviceId ∧
        (plan.extensionPath.walk space root).outcome = .ok there ∧
        there.extract plan.iodfId = .ok s.iodfId := by
  constructor
  · intro h
    obtain ⟨here, hipa, h⟩ := Traced.outcome_bind_eq_ok_iff.1 h
    obtain ⟨load, hload, h⟩ := Traced.outcome_bind_eq_ok_iff.1 h
    obtain ⟨parmlib, hparmlib, h⟩ := Traced.outcome_bind_eq_ok_iff.1 h
    obtain ⟨device, hdevice, h⟩ := Traced.outcome_bind_eq_ok_iff.1 h
    obtain ⟨there, hextension, h⟩ := Traced.outcome_bind_eq_ok_iff.1 h
    obtain ⟨iodf, hiodf, h⟩ := Traced.outcome_bind_eq_ok_iff.1 h
    cases h
    exact ⟨here, there, locate_eq_ok_iff.1 hipa, extract_eq_ok_iff.1 hload,
      extract_eq_ok_iff.1 hparmlib, extract_eq_ok_iff.1 hdevice, locate_eq_ok_iff.1 hextension,
      extract_eq_ok_iff.1 hiodf⟩
  · rintro ⟨here, there, hipa, hload, hparmlib, hdevice, hextension, hiodf⟩
    exact capture_of_ok hipa hload hparmlib hdevice hextension hiodf

/-- Where there is no snapshot, a walk or the extraction of one of the four fields has failed. -/
theorem cases_of_capture_eq_error {e : SnapshotError}
    (h : (plan.capture space root).outcome = .error e) :
    (∃ field cause, e = .traversal field cause) ∨
      ∃ here : LocatedBlock, ∃ f ∈ [plan.loadDataset, plan.parmlibDatasetName, plan.deviceId,
        plan.iodfId], ∃ field fault, here.extract f = .error fault ∧ e = .extraction field fault := by
  -- the parts in the order in which they come
  rcases Traced.outcome_bind_eq_error_iff.1 h with hipa | ⟨here, -, h⟩
  · obtain ⟨cause, -, rfl⟩ := locate_eq_error_iff.1 hipa
    exact Or.inl ⟨_, cause, rfl⟩
  rcases Traced.outcome_bind_eq_error_iff.1 h with hload | ⟨load, -, h⟩
  · exact Or.inr ⟨here, _, by simp, _, extract_eq_error_iff.1 hload⟩
  rcases Traced.outcome_bind_eq_error_iff.1 h with hparmlib | ⟨parmlib, -, h⟩
  · exact Or.inr ⟨here, plan.parmlibDatasetName, by simp, _, extract_eq_error_iff.1 hparmlib⟩
  rcases Traced.outcome_bind_eq_error_iff.1 h with hdevice | ⟨device, -, h⟩
  · exact Or.inr ⟨here, plan.deviceId, by simp, _, extract_eq_error_iff.1 hdevice⟩
  rcases Traced.outcome_bind_eq_error_iff.1 h with hextension | ⟨there, -, h⟩
  · obtain ⟨cause, -, rfl⟩ := locate_eq_error_iff.1 hextension
    exact Or.inl ⟨_, cause, rfl⟩
  rcases Traced.outcome_bind_eq_error_iff.1 h with hiodf | ⟨iodf, -, h⟩
  · exact Or.inr ⟨there, plan.iodfId, by simp, _, extract_eq_error_iff.1 hiodf⟩
  cases h

theorem walks_of_capture_eq_ok {s : Snapshot} (h : (plan.capture space root).outcome = .ok s) :
    plan.ReadsIpa space root ∧
      ∃ there, (plan.extensionPath.walk space root).outcome = .ok there := by
  obtain ⟨here, there, hipa, hload, hparmlib, hdevice, hextension, -⟩ := capture_eq_ok_iff.1 h
  exact ⟨⟨here, _, _, _, hipa, hload, hparmlib, hdevice⟩, there, hextension⟩

end Plan

/-! ## Section 3: Reads of a snapshot -/

section Reads

variable {a : Anatomy} {space : AddressSpace} {root : UInt64}

/-- Every read on a walk is as large as the block that is due. -/
theorem Path.ChecksReads.size_eq {path : Path} (h : path.ChecksReads space root) {k : Nat}
    {access : Access} (hk : (path.walk space root).reads[k]? = some access) :
    access.2 = (path.nthBlock k).size := by
  cases k with
  | zero =>
    rw [h.first, Option.some_inj] at hk
    rw [← hk, ← path.root_eq_nthBlock]
  | succ k =>
    obtain ⟨-, -, -, -, -, -, hsize⟩ := (h.next k access.1 access.2).1 hk
    exact hsize

/-- Two walks whose paths start with the same step and lead to the same block attempt the same
second read. -/
theorem Anatomy.second_read (a : Anatomy) {access : Access}
    (h : (a.plan.ipaPath.walk space root).reads[1]? = some access) :
    (a.plan.extensionPath.walk space root).reads[1]? = some access := by
  have hipa := a.plan.ipaPath.checksReads space root
  have hextension := a.plan.extensionPath.checksReads space root
  obtain ⟨_, earlier, bytes, hearlier, hwarranted⟩ := (hipa.next 0 access.1 access.2).1 h
  -- the first step of both paths is the same, and so is the block that it leads to
  apply (hextension.next 0 access.1 access.2).2
  refine ⟨Nat.zero_lt_succ _, earlier, bytes, ?_, hwarranted⟩
  rw [hextension.first, ← hearlier, hipa.first]
  rfl

/-- For a snapshot seven blocks are read, two of them twice. -/
theorem Anatomy.reads_of_capture_eq_ok (a : Anatomy) {s : Snapshot}
    (h : (a.plan.capture space root).outcome = .ok s) :
    ∃ cvt ecvt ipa extension, (a.plan.capture space root).reads =
      [(root, a.psa.size), (cvt, a.cvt.size), (ecvt, a.ecvt.size), (ipa, a.ipa.size),
        (root, a.psa.size), (cvt, a.cvt.size), (extension, a.extension.size)] := by
  obtain ⟨hreadsIpa, there, hthere⟩ := Plan.walks_of_capture_eq_ok h
  obtain ⟨here, _, _, _, hhere, -⟩ := id hreadsIpa
  have hipa := a.plan.ipaPath.checksReads space root
  have hextension := a.plan.extensionPath.checksReads space root
  -- four reads on the first walk and three on the second
  obtain ⟨psa, ⟨cvt, n⟩, ⟨ecvt, n'⟩, ⟨ipa, n''⟩, hfour⟩ :=
    List.length_eq_four.1 (hipa.onSuccess here hhere)
  obtain ⟨psa', cvt', ⟨extension, m⟩, hthree⟩ :=
    List.length_eq_three.1 (hextension.onSuccess there hthere)
  have hpsa := hipa.first
  have hpsa' := hextension.first
  rw [hfour, List.getElem?_cons_zero, Option.some_inj] at hpsa
  rw [hthree, List.getElem?_cons_zero, Option.some_inj] at hpsa'
  have hcvt : n = a.cvt.size := hipa.size_eq (k := 1) (by rw [hfour]; rfl)
  have hecvt : n' = a.ecvt.size := hipa.size_eq (k := 2) (by rw [hfour]; rfl)
  have hipaSize : n'' = a.ipa.size := hipa.size_eq (k := 3) (by rw [hfour]; rfl)
  have hextensionSize : m = a.extension.size := hextension.size_eq (k := 2) (by rw [hthree]; rfl)
  have hcvt' : (cvt, n) = cvt' := by
    have hsame : (a.plan.extensionPath.walk space root).reads[1]? = some (cvt, n) :=
      a.second_read (by rw [hfour]; rfl)
    simpa [hthree] using hsame.symm
  subst hpsa hpsa' hcvt' hcvt hecvt hipaSize hextensionSize
  refine ⟨cvt, ecvt, ipa, extension, ?_⟩
  rw [Plan.reads_capture_of_readsIpa hreadsIpa, hfour, hthree]
  rfl

end Reads

namespace Plan

/-- What is read, in any storage and from any root.  A walk along any path reads the root block and
then only blocks that a checked link leads to.  For a snapshot by the plan of any catalog the
second walk is added to the first one only after the first has given its three fields; that makes
seven reads at most, and exactly those of the seven blocks that are due if there is a snapshot. -/
theorem reads_checked (space : AddressSpace) (root : UInt64) :
    (∀ path : Path, path.ChecksReads space root) ∧
    ∀ c plan, ofCatalog c = .ok plan →
      (plan.ReadsIpa space root → (plan.capture space root).reads =
        (plan.ipaPath.walk space root).reads ++ (plan.extensionPath.walk space root).reads) ∧
      (¬plan.ReadsIpa space root →
        (plan.capture space root).reads = (plan.ipaPath.walk space root).reads) ∧
      (plan.capture space root).reads.length ≤ 7 ∧
      ∃ a : Anatomy, a.Of c ∧ plan = a.plan ∧
        ∀ s, (plan.capture space root).outcome = .ok s →
          ∃ cvt ecvt ipa extension, (plan.capture space root).reads =
            [(root, a.psa.size), (cvt, a.cvt.size), (ecvt, a.ecvt.size), (ipa, a.ipa.size),
              (root, a.psa.size), (cvt, a.cvt.size), (extension, a.extension.size)] := by
  refine ⟨fun path => path.checksReads space root, fun c plan hplan => ?_⟩
  obtain ⟨a, ha, rfl⟩ := ofCatalog_eq_ok_iff.1 hplan
  refine ⟨reads_capture_of_readsIpa, reads_capture_of_not_readsIpa, ?_, a, ha, rfl,
    fun s hs => a.reads_of_capture_eq_ok hs⟩
  -- four reads at most on the first walk, and three on the second
  have hipa : (a.plan.ipaPath.walk space root).reads.length ≤ 4 :=
    (a.plan.ipaPath.checksReads space root).atMost
  have hextension : (a.plan.extensionPath.walk space root).reads.length ≤ 3 :=
    (a.plan.extensionPath.checksReads space root).atMost
  by_cases h : a.plan.ReadsIpa space root
  · rw [reads_capture_of_readsIpa h, List.length_append]
    omega
  · rw [reads_capture_of_not_readsIpa h]
    omega

/-- In storage where every link leads back to the block at 4 there are seven reads for a snapshot.
From the root 8 of `Path.zeroTable`, where the first link is null, there is one. -/
theorem reads_checked_overlappedImage :
    ∃ plan, ofCatalog (Zos.catalog .ebcdic) = .ok plan ∧
      (∃ s, (plan.capture (overlappedImage 4).space 0).outcome = .ok s) ∧
      (plan.capture (overlappedImage 4).space 0).reads.length = 7 ∧
      (plan.ipaPath.walk Path.zeroTable 8).reads.length = 1 := by
  have hplan := Anatomy.ofCatalog_zos .ebcdic
  have hsome : ((Anatomy.zos .ebcdic).plan.capture (overlappedImage 4).space 0).outcome.isOk =
      true := by decide +kernel
  have hnull : ((Anatomy.zos .ebcdic).plan.ipaPath.walk Path.zeroTable 8).outcome =
      .error (.brokenLink 0 "PSA" "PSACVT" .null) := by decide +kernel
  cases hs : ((Anatomy.zos .ebcdic).plan.capture (overlappedImage 4).space 0).outcome with
  | error e => simp [hs, Except.isOk, Except.toBool] at hsome
  | ok s =>
    obtain ⟨-, -, -, a, -, -, hseven⟩ := (reads_checked (overlappedImage 4).space 0).2 _ _ hplan
    obtain ⟨cvt, ecvt, ipa, extension, hreads⟩ := hseven s hs
    refine ⟨_, hplan, ⟨s, hs⟩, by rw [hreads]; rfl, ?_⟩
    -- a null link is not a read that was refused
    have hchecks := (reads_checked Path.zeroTable 8).1 (Anatomy.zos .ebcdic).plan.ipaPath
    rcases hchecks.onFailure _ hnull with ⟨h, -⟩ | ⟨i, _, _, fault, h, hlength⟩
    · cases h
    · cases h
      rcases hlength with hone | ⟨-, address, size, h, -⟩
      · exact hone
      · cases h

end Plan

end IplReport
