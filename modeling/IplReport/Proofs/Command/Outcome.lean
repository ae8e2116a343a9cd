import IplReport.Command.Run
import IplReport.Proofs.Memory.Image
import IplReport.Proofs.Settings.Files
import IplReport.Proofs.Settings.Plans
import IplReport.Proofs.Snapshot.Capture
import IplReport.Proofs.Text.Json

/-!
# How a command ends

A command goes through its stages in a fixed order: settings, catalog, plan, dump and snapshot.  It
prints the report if all of them succeed; else it tells why the first one failed that did, to an
operator and, if asked to, to a program as well.  What it tells of a text that holds no settings is
up to the reader of documents, and all of this is so whatever the wording is.

Main statements:
- `Command.Invocation.Reports` and `Command.Invocation.FailsWith`: the two ways to end;
- `Command.run_outcome`: what a command leaves behind in each of them.
-/

namespace IplReport

/-! ## Section 1: Stages -/

namespace Command.Invocation

variable {i : Invocation} {wording : DecodeWording} {files : FileView}

/-- The settings are those that the settings file holds, or the defaults if none is named. -/
inductive Configured (i : Invocation) (files : FileView) : Settings → Prop where
  | usual : i.config = none → Configured i files ⟨.amode31, 0, .ebcdic, []⟩
  | file {path : String} {settings : Settings} : i.config = some path →
      Settings.LoadedFrom files path settings → Configured i files settings

/-- A settings file is named that holds no settings. -/
inductive Misconfigured (i : Invocation) (wording : DecodeWording) (files : FileView) :
    SettingsError → Prop where
  | file {path : String} {cause : SettingsError} : i.config = some path →
      Settings.LoadFault wording files path cause → Misconfigured i wording files cause

/-- There are settings, and a plan for the catalog that they describe. -/
structure Planned (i : Invocation) (files : FileView) (settings : Settings) (plan : Plan) :
    Prop where
  configured : i.Configured files settings
  planned : ∃ catalog, settings.catalog = .ok catalog ∧ Plan.ofCatalog catalog = .ok plan

/-- The image of a dump that starts at a base, with the root where it is asked for. -/
def image (i : Invocation) (settings : Settings) (bytes : Bytes) : Image :=
  ⟨settings.mode, [⟨i.base, bytes⟩], some (i.root.getD settings.rootAddress)⟩

/-- The dump can be read and ends within the limit of the mode. -/
structure Loaded (i : Invocation) (files : FileView) (settings : Settings) (plan : Plan)
    (bytes : Bytes) : Prop extends i.Planned files settings plan where
  read : files i.dump = .ok bytes
  fits : i.base.toNat + bytes.length ≤ settings.mode.limit.toNat

/-- All stages succeed, the last of them with a snapshot. -/
def Reports (i : Invocation) (files : FileView) (s : Snapshot) : Prop :=
  ∃ settings plan bytes, i.Loaded files settings plan bytes ∧
    plan.captureImage (i.image settings bytes) = .ok s

/-- Some stage fails, after all those before it have succeeded.  There is no failure of a plan. -/
inductive FailsWith (i : Invocation) (wording : DecodeWording) (files : FileView) :
    Failure → Prop where
  | settings {cause : SettingsError} : i.Misconfigured wording files cause →
      FailsWith i wording files (.settings cause)
  | layout {settings : Settings} {cause : LayoutError} : i.Configured files settings →
      settings.catalog = .error cause → FailsWith i wording files (.layout cause)
  | unreadable {settings : Settings} {plan : Plan} {reason : FileError} :
      i.Planned files settings plan → files i.dump = .error reason →
      FailsWith i wording files (.storage (.unreadable i.dump reason))
  | beyondLimit {settings : Settings} {plan : Plan} {bytes : Bytes} :
      i.Planned files settings plan → files i.dump = .ok bytes →
      settings.mode.limit.toNat < i.base.toNat + bytes.length →
      FailsWith i wording files (.storage (.beyondLimit i.base bytes.length settings.mode.limit))
  | snapshot {settings : Settings} {plan : Plan} {bytes : Bytes} {cause : SnapshotError} :
      i.Loaded files settings plan bytes →
      plan.captureImage (i.image settings bytes) = .error cause →
      FailsWith i wording files (.snapshot cause)

end Command.Invocation

/-! ## Section 2: Each stage by itself -/

namespace Image

variable {files : FileView} {path : String} {base : UInt64} {mode : AddressingMode} {bytes : Bytes}

/-- In an empty image nothing is in the way of a dump. -/
theorem map_empty (mode : AddressingMode) (base : UInt64) (bytes : Bytes) :
    (empty mode).map base bytes =
      if mode.limit.toNat < base.toNat + bytes.length then
        .error (.beyondLimit base bytes.length mode.limit)
      else .ok ⟨mode, [⟨base, bytes⟩], none⟩ := rfl

theorem ofDump_eq_ok_iff {image : Image} :
    ofDump files path base mode = .ok image ↔
      ∃ bytes, files path = .ok bytes ∧ base.toNat + bytes.length ≤ mode.limit.toNat ∧
        image = ⟨mode, [⟨base, bytes⟩], none⟩ := by
  rw [ofDump, bind_eq_ok_iff]
  refine exists_congr fun bytes => and_congr mapError_eq_ok_iff ?_
  rw [map_empty]
  split_ifs with hlimit
  · simp [Nat.not_le.2 hlimit]
  · simp [Nat.not_lt.1 hlimit, eq_comm]

/-- A dump cannot be read, or its end is past the limit. -/
theorem ofDump_eq_error_iff {fault : StorageError} :
    ofDump files path base mode = .error fault ↔
      (∃ reason, files path = .error reason ∧ fault = .unreadable path reason) ∨
      ∃ bytes, files path = .ok bytes ∧ mode.limit.toNat < base.toNat + bytes.length ∧
        fault = .beyondLimit base bytes.length mode.limit := by
  rw [ofDump, bind_eq_error_iff]
  refine or_congr mapError_eq_error_iff
    (exists_congr fun bytes => and_congr mapError_eq_ok_iff ?_)
  rw [map_empty]
  split_ifs with hlimit
  · simp [hlimit, eq_comm]
  · simp [hlimit]

end Image

namespace Command.Invocation

variable {i : Invocation} {wording : DecodeWording} {files : FileView} {settings : Settings}
  {catalog : Catalog} {plan : Plan} {bytes : Bytes} {s : Snapshot} {failure : Failure}
  {cause : SnapshotError}

theorem settings_eq_ok_iff :
    i.settings wording files = .ok settings ↔ i.Configured files settings := by
  rw [Invocation.settings]
  constructor
  · intro h
    split at h
    case h_1 path hconfig => exact .file hconfig (Settings.ofFile_eq_ok_iff.1 h)
    case h_2 hconfig =>
      cases h
      exact .usual hconfig
  · intro h
    cases h with
    | usual hconfig => rw [hconfig]
    | file hconfig hloaded =>
      rw [hconfig]
      exact Settings.ofFile_eq_ok_iff.2 hloaded

theorem settings_eq_error_iff {cause : SettingsError} :
    i.settings wording files = .error cause ↔ i.Misconfigured wording files cause := by
  rw [Invocation.settings]
  constructor
  · intro h
    split at h
    case h_1 path hconfig => exact .file hconfig (Settings.ofFile_eq_error_iff.1 h)
    case h_2 => cases h
  · rintro ⟨hconfig, hfault⟩
    rw [hconfig]
    exact Settings.ofFile_eq_error_iff.2 hfault

/-- With a settings file of the usual shape, the settings are what its values say. -/
theorem configured_iff {path text : String} {document : List (String × Toml.Value)}
    (hconfig : i.config = some path) (hfile : files path = .ok (textBytes text))
    (hparse : Toml.parse? text = some document)
    (hshaped : Settings.Shaped fun key => document.lookup key) :
    i.Configured files settings ↔
      Settings.Changed (fun key => document.lookup key) ⟨.amode31, 0, .ebcdic, []⟩ settings := by
  rw [← Settings.loadedFrom_iff hfile hparse hshaped]
  constructor
  · intro h
    -- a file is named, so the defaults are not what is asked for
    cases h with
    | usual hnone =>
      rw [hconfig] at hnone
      cases hnone
    | file hconfig' hloaded =>
      rw [hconfig, Option.some_inj] at hconfig'
      rw [hconfig']
      exact hloaded
  · exact .file hconfig

/-- A dump within the limit is mapped as operations would map it. -/
theorem orderly_image (h : i.base.toNat + bytes.length ≤ settings.mode.limit.toNat) :
    (i.image settings bytes).Orderly :=
  ⟨List.pairwise_singleton _ _, by simpa [image, Region.stop] using h⟩

/-- A snapshot fails at the first field of one of its two blocks, as fields can always be read. -/
theorem field_of_captureImage (hplan : Plan.ofCatalog catalog = .ok plan)
    (hloaded : i.Loaded files settings plan bytes)
    (h : plan.captureImage (i.image settings bytes) = .error cause) :
    cause.field = .loadDataset ∨ cause.field = .iodfId := by
  obtain ⟨a, ha, rfl⟩ := Plan.ofCatalog_eq_ok_iff.1 hplan
  have hfailure := (Anatomy.captureImage_eq_error_iff ha (orderly_image hloaded.fits)).1 h
  cases hfailure with
  | cvtExtension => exact Or.inr rfl
  | _ => exact Or.inl rfl

theorem snapshot_eq_ok_iff : i.snapshot wording files = .ok s ↔ i.Reports files s := by
  simp only [snapshot, bind_eq_ok_iff, mapError_eq_ok_iff, settings_eq_ok_iff,
    Image.ofDump_eq_ok_iff]
  constructor
  · rintro ⟨settings, hsettings, catalog, hcatalog, plan, hplan, _, ⟨bytes, hread, hfits, rfl⟩, h⟩
    exact ⟨settings, plan, bytes, ⟨⟨hsettings, catalog, hcatalog, hplan⟩, hread, hfits⟩, h⟩
  · rintro ⟨settings, plan, bytes, ⟨⟨hsettings, catalog, hcatalog, hplan⟩, hread, hfits⟩, h⟩
    exact ⟨settings, hsettings, catalog, hcatalog, plan, hplan, _, ⟨bytes, hread, hfits, rfl⟩, h⟩

theorem snapshot_eq_error_iff :
    i.snapshot wording files = .error failure ↔ i.FailsWith wording files failure := by
  simp only [snapshot, bind_eq_error_iff, mapError_eq_error_iff, mapError_eq_ok_iff,
    settings_eq_ok_iff, settings_eq_error_iff, Image.ofDump_eq_ok_iff, Image.ofDump_eq_error_iff]
  constructor
  -- stage by stage: it has failed, or it has succeeded and the next one follows
  · rintro (⟨cause, hsettings, rfl⟩ | ⟨settings, hsettings, h⟩)
    · exact .settings hsettings
    rcases h with ⟨cause, hcatalog, rfl⟩ | ⟨catalog, hcatalog, h⟩
    · exact .layout hsettings hcatalog
    -- the plan cannot fail
    obtain ⟨plan, hplan⟩ := Settings.exists_plan hcatalog
    rcases h with ⟨cause, hnone, rfl⟩ | ⟨_, hplan', h⟩
    · rw [hplan] at hnone
      cases hnone
    have hplanned : i.Planned files settings _ := ⟨hsettings, catalog, hcatalog, hplan'⟩
    rcases h with ⟨_, ⟨reason, hread, rfl⟩ | ⟨bytes, hread, hlimit, rfl⟩, rfl⟩ |
      ⟨_, ⟨bytes, hread, hfits, rfl⟩, cause, h, rfl⟩
    · exact .unreadable hplanned hread
    · exact .beyondLimit hplanned hread hlimit
    · exact .snapshot ⟨hplanned, hread, hfits⟩ h
  · intro h
    cases h with
    | settings hsettings => exact Or.inl ⟨_, hsettings, rfl⟩
    | layout hsettings hcatalog => exact Or.inr ⟨_, hsettings, Or.inl ⟨_, hcatalog, rfl⟩⟩
    | unreadable hplanned hread =>
      obtain ⟨hsettings, catalog, hcatalog, hplan⟩ := hplanned
      exact Or.inr ⟨_, hsettings, Or.inr ⟨catalog, hcatalog, Or.inr ⟨_, hplan,
        Or.inl ⟨_, Or.inl ⟨_, hread, rfl⟩, rfl⟩⟩⟩⟩
    | beyondLimit hplanned hread hlimit =>
      obtain ⟨hsettings, catalog, hcatalog, hplan⟩ := hplanned
      exact Or.inr ⟨_, hsettings, Or.inr ⟨catalog, hcatalog, Or.inr ⟨_, hplan,
        Or.inl ⟨_, Or.inr ⟨_, hread, hlimit, rfl⟩, rfl⟩⟩⟩⟩
    | snapshot hloaded h =>
      obtain ⟨⟨hsettings, catalog, hcatalog, hplan⟩, hread, hfits⟩ := hloaded
      exact Or.inr ⟨_, hsettings, Or.inr ⟨catalog, hcatalog, Or.inr ⟨_, hplan,
        Or.inr ⟨_, ⟨_, hread, hfits, rfl⟩, _, h, rfl⟩⟩⟩⟩

/-- A command either reports or fails, and in one way only. -/
theorem existsUnique_failsWith (h : ¬∃ s, i.Reports files s) :
    ∃! failure, i.FailsWith wording files failure := by
  cases hsnapshot : i.snapshot wording files with
  | ok s => exact absurd ⟨s, snapshot_eq_ok_iff.1 hsnapshot⟩ h
  | error failure =>
    refine ⟨failure, snapshot_eq_error_iff.1 hsnapshot, fun other hother => ?_⟩
    have hother := snapshot_eq_error_iff.2 hother
    rw [hsnapshot, Except.error.injEq] at hother
    exact hother.symm

end Command.Invocation

/-! ## Section 3: What is left behind -/

namespace Command

variable {arguments : List String} {i : Invocation} {wording : DecodeWording} {files : FileView}
  {s : Snapshot} {failure : Failure}

theorem run_of_reports (h : Invocation.ofArguments arguments = .ok i) (hs : i.Reports files s) :
    run wording arguments files = .ofSnapshot i.format s := by
  simp only [run, h, Invocation.snapshot_eq_ok_iff.2 hs]

theorem run_of_failsWith (h : Invocation.ofArguments arguments = .ok i)
    (hfailure : i.FailsWith wording files failure) :
    run wording arguments files = .ofFailure i.format failure := by
  simp only [run, h, Invocation.snapshot_eq_error_iff.2 hfailure]

theorem code_eq_zero_iff (h : Invocation.ofArguments arguments = .ok i) :
    (run wording arguments files).code = 0 ↔ ∃ s, i.Reports files s := by
  constructor
  · intro hcode
    by_contra hnone
    obtain ⟨failure, hfailure, -⟩ := @Invocation.existsUnique_failsWith i wording files hnone
    rw [run_of_failsWith h hfailure] at hcode
    have hcode : (1 : UInt8) = 0 := hcode
    exact absurd hcode (by decide)
  · rintro ⟨s, hs⟩
    rw [run_of_reports h hs]
    rfl

/-- What a program reads in the line that tells it of a failure: the message, and for a failure of
the snapshot one of two fields. -/
structure Failure.ToldBy (failure : Failure) (line : String) : Prop where
  oneLine : '\n' ∉ line.toList
  members : ∃ field, Json.readObject line = some (("error", failure.message) :: field) ∧
    ((∃ cause, failure = .snapshot cause) →
      field = [("field", "load-dataset")] ∨ field = [("field", "iodf-id")]) ∧
    ((¬∃ cause, failure = .snapshot cause) → field = [])

theorem exists_toldBy (hfailure : i.FailsWith wording files failure) :
    ∃ line, (Outcome.ofFailure .json failure).stdout = line ++ "\n" ∧ failure.ToldBy line := by
  refine ⟨_, rfl, Json.newline_notMem_compactObject _, _, Json.readObject_compactObject _, ?_, ?_⟩
  -- there is a field exactly if it is the snapshot that has failed
  · rintro ⟨cause, rfl⟩
    cases hfailure with
    | snapshot hloaded hcapture =>
      obtain ⟨catalog, -, hplan⟩ := hloaded.planned
      rcases Invocation.field_of_captureImage hplan hloaded hcapture with hfield | hfield
      · exact Or.inl (by simp [Failure.field?, hfield, SnapshotField.name])
      · exact Or.inr (by simp [Failure.field?, hfield, SnapshotField.name])
  · intro hnone
    cases failure with
    | snapshot cause => exact absurd ⟨cause, rfl⟩ hnone
    | _ => rfl

/-- How a command ends whose arguments are accepted, whatever its files are and however texts
without settings are reported on.  The code is 0 exactly if all stages succeed, and what is printed
is the report.  If not, one failure is the first, and the code is 1; its message is printed as a
diagnostic, and that is all unless the format is JSON.  Then there is also a line for a program,
which reads the same message in it.  A catalog that settings describe always has a plan, and
settings from a file of the usual shape are what its values say. -/
theorem run_outcome (h : Invocation.ofArguments arguments = .ok i) (wording : DecodeWording)
    (files : FileView) :
    ((run wording arguments files).code = 0 ↔ ∃ s, i.Reports files s) ∧
    (∀ s, i.Reports files s → (run wording arguments files).stdout =
      s.render i.format ++ if i.format = .json then "\n" else "") ∧
    ((¬∃ s, i.Reports files s) → ∃! failure, i.FailsWith wording files failure) ∧
    (∀ failure, i.FailsWith wording files failure →
      (run wording arguments files).code = 1 ∧
      (run wording arguments files).stderr = "Error: " ++ failure.message ++ "\n" ∧
      (i.format = .text → (run wording arguments files).stdout = "") ∧
      (i.format = .json → ∃ line,
        (run wording arguments files).stdout = line ++ "\n" ∧ failure.ToldBy line)) ∧
    (∀ settings : Settings, ∀ catalog, settings.catalog = .ok catalog →
      ∃ plan, Plan.ofCatalog catalog = .ok plan) ∧
    ∀ path text document, i.config = some path → files path = .ok (textBytes text) →
      Toml.parse? text = some document → (Settings.Shaped fun key => document.lookup key) →
      ∀ settings, i.Configured files settings ↔
        Settings.Changed (fun key => document.lookup key) ⟨.amode31, 0, .ebcdic, []⟩ settings := by
  refine ⟨code_eq_zero_iff h, fun s hs => ?_, Invocation.existsUnique_failsWith,
    fun failure hfailure => ?_, fun _ _ => Settings.exists_plan,
    fun path text document hconfig hfile hparse hshaped settings =>
      Invocation.configured_iff hconfig hfile hparse hshaped⟩
  · rw [run_of_reports h hs]
    cases i.format <;> rfl
  · rw [run_of_failsWith h hfailure]
    -- code and diagnostic are the same in both formats
    refine ⟨rfl, rfl, fun hformat => by rw [hformat]; rfl, fun hformat => ?_⟩
    rw [hformat]
    exact exists_toldBy hfailure

/-- One dump, in which all control blocks overlap, a settings file, and no other file. -/
def oneDump : FileView
  | "d" => .ok ((Plan.overlappedImage 4).regions.flatMap Region.bytes)
  | "c" => .ok (textBytes "[storage]\nroot_address = 0")
  | _ => .error .notFound

/-- There is a report of the dump with this settings file.  For a name with a quote and a backslash,
of which there is no dump, a program is told just this name. -/
theorem run_outcome_quoted :
    Invocation.ofArguments ["d", "-c", "c"] = .ok ⟨"d", 0, none, some "c", .text⟩ ∧
      (∃ s, Invocation.Reports ⟨"d", 0, none, some "c", .text⟩ oneDump s) ∧
      Invocation.ofArguments ["A\"\\", "--format", "json"] =
        .ok ⟨"A\"\\", 0, none, none, .json⟩ ∧
      ∃ line, (run .brief ["A\"\\", "--format", "json"] oneDump).stdout = line ++ "\n" ∧
        Json.readObject line = some [("error",
          "cannot read storage dump A\"\\: No such file or directory (os error 2)")] := by
  have hplain : Invocation.ofArguments ["d", "-c", "c"] = .ok ⟨"d", 0, none, some "c", .text⟩ := by
    decide +kernel
  have hquoted : Invocation.ofArguments ["A\"\\", "--format", "json"] =
      .ok ⟨"A\"\\", 0, none, none, .json⟩ := by decide +kernel
  obtain ⟨hreports, -⟩ := run_outcome hplain .brief oneDump
  obtain ⟨-, -, -, hfails, -⟩ := run_outcome hquoted .brief oneDump
  -- no settings file is named, the catalog has a plan, and there is no such dump
  have hmissing : Invocation.FailsWith ⟨"A\"\\", 0, none, none, .json⟩ .brief oneDump
      (.storage (.unreadable "A\"\\" .notFound)) :=
    Invocation.snapshot_eq_error_iff.1 (by decide +kernel)
  obtain ⟨-, -, -, hjson⟩ := hfails _ hmissing
  obtain ⟨line, hline, htold⟩ := hjson rfl
  obtain ⟨field, hread, -, hfield⟩ := htold.members
  rw [hfield (by simp)] at hread
  exact ⟨hplain, hreports.1 (by decide +kernel), hquoted, line, hline, hread⟩

end Command

end IplReport
