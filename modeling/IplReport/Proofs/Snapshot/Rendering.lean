import IplReport.Proofs.FieldValue.Extraction
import IplReport.Proofs.Snapshot.Reads
import IplReport.Proofs.Text.Json
import IplReport.Snapshot.Render

/-!
# Snapshots are rendered whatever is in storage

Storage may hold any bytes, those of newlines, quotes and backslashes among them.  No control
character gets into the text of a field, though, and quotes and backslashes are escaped in JSON.  So
the two lines for an operator stay two lines, and a program reads back what is in the snapshot.

Main statements:
- `FieldValue.Shows.tidy`: what is never in the text of a value;
- `Snapshot.readObject_render`: what is read back from the JSON object of any snapshot;
- `Plan.render_capture`: both renderings of a snapshot that has been taken.
-/

namespace IplReport

/-! ## Section 1: Texts of values -/

/-- A text without control characters that does not end in a space. -/
structure Tidy (text : String) : Prop where
  printable : ∀ c ∈ text.toList, ¬(c.toNat < 0x20 ∨ 0x7f ≤ c.toNat ∧ c.toNat < 0xa0)
  solid : text.toList.getLast? ≠ some ' '

theorem Tidy.newline_notMem {text : String} (h : Tidy text) : '\n' ∉ text.toList :=
  fun hmem => h.printable _ hmem (by decide)

section Values

variable {encoding : TextEncoding} {here : LocatedBlock} {f : Field} {window : Bytes}
  {v : FieldValue} {byte : UInt8}

theorem isControl_shownChar (encoding : TextEncoding) (byte : UInt8) :
    isControl (shownChar encoding byte) = false := by
  unfold shownChar
  dsimp only
  split_ifs with hcontrol
  · rfl
  · exact Bool.eq_false_iff.2 hcontrol

/-- Only the blank is shown as a space. -/
theorem eq_blank_of_shownChar (h : shownChar encoding byte = ' ') : byte = encoding.blank := by
  unfold shownChar at h
  dsimp only at h
  split_ifs at h
  · exact absurd h (by decide)
  · rw [← encoding.encodeChar_decodeByte byte, h, ← encoding.decodeByte_blank,
      TextEncoding.encodeChar_decodeByte]

/-- The text of a value has points for control characters, and its fill has been cut off. -/
theorem FieldValue.Shows.tidy (h : v.Shows f encoding window) : Tidy v.text := by
  constructor
  · intro c hc
    rw [h.text_eq, String.toList_ofList] at hc
    obtain ⟨byte, -, rfl⟩ := List.mem_map.1 hc
    simpa [isControl] using isControl_shownChar encoding byte
  · intro hlast
    rw [h.text_eq, String.toList_ofList, List.getLast?_map, Option.map_eq_some_iff] at hlast
    obtain ⟨byte, hbyte, hspace⟩ := hlast
    exact (h.raw.solid byte hbyte).2 (eq_blank_of_shownChar hspace)

theorem LocatedBlock.tidy_of_extract (h : here.extract f = .ok v) : Tidy v.text := by
  obtain ⟨_, _, -, -, hshows⟩ := extract_eq_ok_iff.1 h
  exact hshows.tidy

end Values

/-! ## Section 2: Renderings of any snapshot -/

namespace Snapshot

variable {s s' : Snapshot}

/-- The members of the JSON object, one for each field. -/
def members (s : Snapshot) : List Json.Member :=
  SnapshotField.all.map fun field => (field.key, (s.value field).text)

theorem render_json (s : Snapshot) : s.render .json = Json.prettyObject s.members := rfl

/-- What is read back from the JSON object are the texts of the four fields. -/
theorem readObject_render (s : Snapshot) : Json.readObject (s.render .json) = some s.members := by
  rw [render_json, Json.readObject_prettyObject]

theorem members_eq_iff :
    s.members = s'.members ↔ ∀ field, (s.value field).text = (s'.value field).text := by
  have hall : ∀ field, field ∈ SnapshotField.all := by
    intro field
    cases field <;> simp [SnapshotField.all]
  rw [members, members, List.map_inj_left]
  simp [hall]

/-- Snapshots have the same JSON object exactly if the texts of their fields are the same. -/
theorem render_json_eq_iff :
    s.render .json = s'.render .json ↔ ∀ field, (s.value field).text = (s'.value field).text := by
  rw [← members_eq_iff]
  constructor
  · intro h
    have hread := s.readObject_render
    rw [h, s'.readObject_render] at hread
    exact (Option.some.inj hread).symm
  · intro h
    rw [render_json, render_json, h]

/-- The JSON object of a snapshot is six lines, whatever its texts are. -/
theorem lines_render_json (s : Snapshot) :
    ∃ lines : List String, lines.length = 6 ∧ (∀ line ∈ lines, '\n' ∉ line.toList) ∧
      s.render .json = "\n".intercalate lines := by
  have hmembers : s.members ≠ [] := by simp [members, SnapshotField.all]
  -- an opening line, four members and a closing line
  refine ⟨_, ?_, ?_, Json.prettyObject_eq_intercalate hmembers⟩
  · rw [List.length_append, List.length_cons, Json.length_memberLines]
    rfl
  · intro line hline
    rcases List.mem_append.1 hline with hline | hline
    · rcases List.mem_cons.1 hline with rfl | hline
      · decide
      · exact Json.newline_notMem_of_mem_memberLines hline
    · obtain rfl := List.mem_singleton.1 hline
      decide

/-- The first of the two lines for an operator. -/
def summary (s : Snapshot) : String :=
  "USED LOAD" ++ s.loadDataset.text ++ " IN " ++ s.parmlibDatasetName.text ++ " ON " ++
    s.deviceId.text

theorem toList_summary (s : Snapshot) :
    s.summary.toList = "USED LOAD".toList ++ s.loadDataset.text.toList ++ " IN ".toList ++
      s.parmlibDatasetName.text.toList ++ " ON ".toList ++ s.deviceId.text.toList := by
  show ("USED LOAD" ++ s.loadDataset.text ++ " IN " ++ s.parmlibDatasetName.text ++ " ON " ++
    s.deviceId.text).toList = _
  simp only [String.toList_append]

theorem render_text (s : Snapshot) :
    s.render .text = s.summary ++ "\n" ++ ("IODF " ++ s.iodfId.text ++ "\n") := rfl

theorem newline_notMem_summary (h : ∀ field, Tidy (s.value field).text) :
    '\n' ∉ s.summary.toList := by
  have hload : '\n' ∉ s.loadDataset.text.toList := (h .loadDataset).newline_notMem
  have hparmlib : '\n' ∉ s.parmlibDatasetName.text.toList := (h .parmlibDatasetName).newline_notMem
  have hdevice : '\n' ∉ s.deviceId.text.toList := (h .deviceId).newline_notMem
  simp [toList_summary, hload, hparmlib, hdevice]

/-- There is one newline after each of the two lines for an operator. -/
theorem count_newline_render_text (h : ∀ field, Tidy (s.value field).text) :
    (s.render .text).toList.count '\n' = 2 := by
  have hiodf : s.iodfId.text.toList.count '\n' = 0 :=
    List.count_eq_zero_of_not_mem (h .iodfId).newline_notMem
  have hsummary := List.count_eq_zero_of_not_mem (newline_notMem_summary h)
  rw [render_text]
  simp only [String.toList_append, List.count_append, hsummary, hiodf]
  rfl

end Snapshot

/-! ## Section 3: Renderings of snapshots that have been taken -/

namespace Plan

variable {plan : Plan} {space : AddressSpace} {root : UInt64} {s : Snapshot}

theorem tidy_of_capture (h : (plan.capture space root).outcome = .ok s) :
    ∀ field, Tidy (s.value field).text := by
  obtain ⟨_, _, -, hload, hparmlib, hdevice, -, hiodf⟩ := capture_eq_ok_iff.1 h
  intro field
  cases field with
  | loadDataset => exact LocatedBlock.tidy_of_extract hload
  | parmlibDatasetName => exact LocatedBlock.tidy_of_extract hparmlib
  | deviceId => exact LocatedBlock.tidy_of_extract hdevice
  | iodfId => exact LocatedBlock.tidy_of_extract hiodf

/-- How snapshots are rendered, whatever storage they were taken from, and by whatever plan: it may
be that of any catalog.  The text of a field has no control character and does not end in a space.
The operator sees two lines: there are two newlines, one before the line of the I/O definition file
and one at the end.  The JSON object is six lines, and what is read back from it are four members in
a fixed order, which have the texts of the fields exactly.  So two snapshots, wherever the other one
is from, have the same JSON object exactly if the texts of their fields are the same. -/
theorem render_capture (h : (plan.capture space root).outcome = .ok s) :
    (∀ field, (∀ c ∈ (s.value field).text.toList,
        ¬(c.toNat < 0x20 ∨ 0x7f ≤ c.toNat ∧ c.toNat < 0xa0)) ∧
      (s.value field).text.toList.getLast? ≠ some ' ') ∧
    (∃ first, s.render .text = first ++ "\n" ++ ("IODF " ++ s.iodfId.text ++ "\n") ∧
      '\n' ∉ first.toList ∧ (s.render .text).toList.count '\n' = 2) ∧
    (∃ lines : List String, lines.length = 6 ∧ (∀ line ∈ lines, '\n' ∉ line.toList) ∧
      s.render .json = "\n".intercalate lines) ∧
    Json.readObject (s.render .json) = some [("load_dataset", s.loadDataset.text),
      ("parmlib_dataset_name", s.parmlibDatasetName.text), ("device_id", s.deviceId.text),
      ("iodf_id", s.iodfId.text)] ∧
    ∀ s' : Snapshot, s.render .json = s'.render .json ↔
      ∀ field, (s.value field).text = (s'.value field).text := by
  have htidy := tidy_of_capture h
  refine ⟨fun field => ⟨(htidy field).printable, (htidy field).solid⟩, ?_, s.lines_render_json,
    s.readObject_render, fun s' => Snapshot.render_json_eq_iff⟩
  exact ⟨s.summary, s.render_text, Snapshot.newline_notMem_summary htidy,
    Snapshot.count_newline_render_text htidy⟩

/-- An image with newlines, quotes and backslashes in the bytes of the fields. -/
def unquotedImage : Image :=
  [.write 10 [0x25, 0x40], .write 24 [0x7f, 0x25], .write 52 [0xe0, 0x40, 0x7f, 0x40, 0x00]].foldl
    Image.apply (overlappedImage 4)

/-- Newlines are shown as points, and a blank at the end is cut off.  The quotes and the backslash
are there, and they are read back from JSON. -/
theorem render_capture_unquotedImage :
    ∃ plan s, Plan.ofCatalog (Zos.catalog .ebcdic) = .ok plan ∧
      (plan.capture unquotedImage.space 0).outcome = .ok s ∧
      s.render .text = "USED LOAD\". IN \\ \" ON \nIODF .\n" ∧
      Json.readObject (s.render .json) = some [("load_dataset", "\"."),
        ("parmlib_dataset_name", "\\ \""), ("device_id", ""), ("iodf_id", ".")] := by
  have htexts : ((Anatomy.zos .ebcdic).plan.capture unquotedImage.space 0).outcome.toOption.map
      (fun s => SnapshotField.all.map fun field => (s.value field).text) =
      some ["\".", "\\ \"", "", "."] := by decide +kernel
  cases hs : ((Anatomy.zos .ebcdic).plan.capture unquotedImage.space 0).outcome with
  | error fault => simp [hs, Except.toOption] at htexts
  | ok s =>
    obtain ⟨-, -, -, hread, -⟩ := render_capture hs
    simp only [hs, Except.toOption, Option.map_some, Option.some.injEq, SnapshotField.all,
      List.map_cons, List.map_nil, Snapshot.value, List.cons.injEq, and_true] at htexts
    obtain ⟨hload, hparmlib, hdevice, hiodf⟩ := htexts
    refine ⟨_, s, Anatomy.ofCatalog_zos .ebcdic, hs, ?_, ?_⟩
    -- the texts are known, but not the bytes that they are shown for
    · rw [← String.toList_inj, Snapshot.render_text, hiodf, String.toList_append,
        String.toList_append, s.toList_summary, hload, hparmlib, hdevice]
      rfl
    · rw [hread, hload, hparmlib, hdevice, hiodf]

end Plan

end IplReport
