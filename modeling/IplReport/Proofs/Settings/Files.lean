import IplReport.Proofs.Settings.Documents

/-!
# Settings from a file

There are three steps from a file to settings.  Its bytes are to be a text in UTF-8, the text a
document, and the document is to hold settings.  Each step can fail, and so can the read before
them; what is then reported on the text is worded by the reader of documents.

Main statements:
- `Settings.ofFile_eq_ok_iff`: which settings a file holds;
- `Settings.ofFile_eq_error_iff`: why a file holds none, step by step.
-/

namespace IplReport

/-! ## Section 1: Texts -/

/-- The bytes of a text in UTF-8. -/
def textBytes (text : String) : Bytes :=
  text.toUTF8.data.toList

section Texts

variable {bytes : Bytes} {files : FileView} {path text : String} {reason : FileError}

theorem fromUTF8?_eq_some_iff :
    String.fromUTF8? ⟨bytes.toArray⟩ = some text ↔ bytes = textBytes text := by
  constructor
  · intro h
    -- a text is its bytes together with the proof that they are in UTF-8
    by_cases hvalid : ByteArray.IsValidUTF8 ⟨bytes.toArray⟩
    · have htext : String.fromUTF8? ⟨bytes.toArray⟩ = some (.fromUTF8 _ hvalid) := dif_pos hvalid
      rw [htext, Option.some_inj] at h
      rw [← h]
      rfl
    · have hnone : String.fromUTF8? ⟨bytes.toArray⟩ = none := dif_neg hvalid
      rw [hnone] at h
      cases h
  · rintro rfl
    exact dif_pos text.isValidUTF8

theorem readText_eq_ok_iff : files.readText path = .ok text ↔ files path = .ok (textBytes text) := by
  rw [FileView.readText, bind_eq_ok_iff]
  constructor
  · rintro ⟨bytes, hread, h⟩
    split at h
    case h_1 hsome =>
      cases h
      rw [hread, fromUTF8?_eq_some_iff.1 hsome]
    case h_2 => cases h
  · intro hread
    refine ⟨_, hread, ?_⟩
    rw [fromUTF8?_eq_some_iff.2 rfl]
    rfl

theorem readText_eq_error_iff :
    files.readText path = .error reason ↔
      files path = .error reason ∨
      ∃ bytes, files path = .ok bytes ∧ (∀ text, bytes ≠ textBytes text) ∧ reason = .notUtf8 := by
  rw [FileView.readText, bind_eq_error_iff]
  -- an error of the read is passed on, so the question is what becomes of bytes
  refine or_congr_right (exists_congr fun bytes => and_congr_right fun _ => ?_)
  constructor
  · intro h
    split at h
    case h_1 => cases h
    case h_2 hnone =>
      cases h
      refine ⟨fun text htext => ?_, rfl⟩
      rw [fromUTF8?_eq_some_iff.2 htext] at hnone
      cases hnone
  · rintro ⟨hnone, rfl⟩
    split
    case h_1 text hsome => exact absurd (fromUTF8?_eq_some_iff.1 hsome) (hnone text)
    case h_2 => rfl

end Texts

/-! ## Section 2: Settings -/

namespace Settings

variable {wording : DecodeWording} {files : FileView} {path text : String} {s : Settings}
  {cause : SettingsError} {document : List (String × Toml.Value)}

/-- A file holds settings: its bytes are a text, the text is a document, and that holds them. -/
def LoadedFrom (files : FileView) (path : String) (s : Settings) : Prop :=
  ∃ text document, files path = .ok (textBytes text) ∧ Toml.parse? text = some document ∧
    ofDocument document = .ok s

/-- Why a file holds no settings: the first step that fails. -/
inductive LoadFault (wording : DecodeWording) (files : FileView) (path : String) :
    SettingsError → Prop where
  /-- There are no bytes. -/
  | unreadable {reason : FileError} : files path = .error reason →
      LoadFault wording files path (.unreadable path reason)
  /-- There are bytes, but those of no text. -/
  | notUtf8 {bytes : Bytes} : files path = .ok bytes → (∀ text, bytes ≠ textBytes text) →
      LoadFault wording files path (.unreadable path .notUtf8)
  /-- There is a text, but it is no document. -/
  | notADocument {text : String} : files path = .ok (textBytes text) → Toml.parse? text = none →
      LoadFault wording files path (.notADocument (wording.notADocument text))
  /-- There is a document, but it holds no settings. -/
  | misfit {text : String} {document : List (String × Toml.Value)} {reason : DecodeError} :
      files path = .ok (textBytes text) → Toml.parse? text = some document →
      ofDocument document = .error reason →
      LoadFault wording files path (.misfit reason (wording.misfit text reason.message))

theorem ofText_eq_ok_iff :
    ofText wording text = .ok s ↔
      ∃ document, Toml.parse? text = some document ∧ ofDocument document = .ok s := by
  rw [ofText]
  cases hparse : Toml.parse? text with
  | none => simp
  | some document => simp [mapError_eq_ok_iff]

theorem ofText_eq_error_iff :
    ofText wording text = .error cause ↔
      Toml.parse? text = none ∧ cause = .notADocument (wording.notADocument text) ∨
      ∃ document reason, Toml.parse? text = some document ∧ ofDocument document = .error reason ∧
        cause = .misfit reason (wording.misfit text reason.message) := by
  rw [ofText]
  cases hparse : Toml.parse? text with
  | none => simp [eq_comm]
  | some document => simp [mapError_eq_error_iff]

/-- Settings are loaded exactly from a file that holds them. -/
theorem ofFile_eq_ok_iff : ofFile wording files path = .ok s ↔ LoadedFrom files path s := by
  simp only [ofFile, bind_eq_ok_iff, mapError_eq_ok_iff, readText_eq_ok_iff, ofText_eq_ok_iff]
  constructor
  · rintro ⟨text, hfile, document, hparse, hdecoded⟩
    exact ⟨text, document, hfile, hparse, hdecoded⟩
  · rintro ⟨text, document, hfile, hparse, hdecoded⟩
    exact ⟨text, hfile, document, hparse, hdecoded⟩

/-- Loading fails exactly with the fault of the first step that does. -/
theorem ofFile_eq_error_iff :
    ofFile wording files path = .error cause ↔ LoadFault wording files path cause := by
  simp only [ofFile, bind_eq_error_iff, mapError_eq_error_iff, mapError_eq_ok_iff,
    readText_eq_ok_iff, readText_eq_error_iff, ofText_eq_error_iff]
  -- four ways to fail, in the order of the steps
  constructor
  · rintro (⟨_, hread | ⟨bytes, hread, hnone, rfl⟩, rfl⟩ |
      ⟨text, hfile, ⟨hparse, rfl⟩ | ⟨document, reason, hparse, hdecoded, rfl⟩⟩)
    · exact .unreadable hread
    · exact .notUtf8 hread hnone
    · exact .notADocument hfile hparse
    · exact .misfit hfile hparse hdecoded
  · intro h
    cases h with
    | unreadable hread => exact Or.inl ⟨_, Or.inl hread, rfl⟩
    | notUtf8 hread hnone => exact Or.inl ⟨_, Or.inr ⟨_, hread, hnone, rfl⟩, rfl⟩
    | notADocument hfile hparse => exact Or.inr ⟨_, hfile, Or.inl ⟨hparse, rfl⟩⟩
    | misfit hfile hparse hdecoded =>
      exact Or.inr ⟨_, hfile, Or.inr ⟨_, _, hparse, hdecoded, rfl⟩⟩

/-- Of a document of the usual shape, the settings that a file holds are what its values say. -/
theorem loadedFrom_iff (hfile : files path = .ok (textBytes text))
    (hparse : Toml.parse? text = some document) (hshaped : Shaped fun key => document.lookup key) :
    LoadedFrom files path s ↔
      Changed (fun key => document.lookup key) ⟨.amode31, 0, .ebcdic, []⟩ s := by
  rw [← @ofDocument_eq_ok_iff document s (Toml.wellFormed_of_parse? hparse) hshaped]
  constructor
  · rintro ⟨text', document', hfile', hparse', hdecoded⟩
    -- the bytes are those of one text only
    rw [hfile, Except.ok.injEq] at hfile'
    have htext := fromUTF8?_eq_some_iff.2 hfile'
    rw [fromUTF8?_eq_some_iff.2 rfl, Option.some_inj] at htext
    subst htext
    rw [hparse, Option.some_inj] at hparse'
    rw [hparse']
    exact hdecoded
  · exact fun hdecoded => ⟨text, document, hfile, hparse, hdecoded⟩

end Settings

end IplReport
