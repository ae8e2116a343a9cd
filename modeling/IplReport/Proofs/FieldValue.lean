import IplReport.FieldValue
import IplReport.Proofs.Text.Encoding
import Mathlib.Data.List.DropRight

/-!
# What the value of a field says

The value of a text field is described without the functions that make it: its bytes are those
of the field up to the fill at the end, and its text has one shown character for each of them.

Main statements:
- `trimFill_eq_iff`: which bytes are left when the fill at the end is cut off;
- `LocatedBlock.extract_eq_ok_iff`: which value is extracted, and when there is one.
-/

namespace IplReport

variable {encoding : TextEncoding} {bytes raw fill window : Bytes} {f : Field} {v : FieldValue}
  {here : LocatedBlock}

/-! ## Section 1: Fill -/

/-- `raw` is what comes before the fill at the end of `bytes`: only blanks and zeros follow it, and
it does not itself end in one. -/
structure TrimsTo (encoding : TextEncoding) (bytes raw : Bytes) : Prop where
  fill : ∃ fill, bytes = raw ++ fill ∧ ∀ byte ∈ fill, byte = 0 ∨ byte = encoding.blank
  solid : ∀ byte ∈ raw.getLast?, byte ≠ 0 ∧ byte ≠ encoding.blank

theorem trimsTo_trimFill (encoding : TextEncoding) (bytes : Bytes) :
    TrimsTo encoding bytes (trimFill encoding bytes) where
  fill := ⟨bytes.rtakeWhile encoding.isFill, List.rdropWhile_append_rtakeWhile.symm,
    fun _ hbyte => TextEncoding.isFill_iff.1 (List.mem_rtakeWhile_imp hbyte)⟩
  solid := by
    intro byte hbyte
    obtain ⟨hne, rfl⟩ := List.mem_getLast?_eq_getLast hbyte
    have hlast := List.rdropWhile_last_not encoding.isFill bytes hne
    exact TextEncoding.isFill_eq_false_iff.1 (Bool.eq_false_iff.2 hlast)

/-- Cutting off the fill leaves the one string that the fill follows. -/
theorem trimFill_eq_iff : trimFill encoding bytes = raw ↔ TrimsTo encoding bytes raw := by
  constructor
  · rintro rfl
    exact trimsTo_trimFill encoding bytes
  · rintro ⟨⟨fill, rfl, hfill⟩, hsolid⟩
    -- seen from the end, all of the fill is dropped first
    have hdrop : (fill.reverse ++ raw.reverse).dropWhile encoding.isFill =
        raw.reverse.dropWhile encoding.isFill :=
      List.dropWhile_append_of_pos fun byte hbyte =>
        TextEncoding.isFill_iff.2 (hfill byte (List.mem_reverse.1 hbyte))
    rw [trimFill, List.reverse_append, hdrop]
    -- nothing more is dropped, since the last byte of `raw` is not fill
    cases raw using List.reverseRecOn with
    | nil => rfl
    | append_singleton init last =>
      have hlast : encoding.isFill last = false :=
        TextEncoding.isFill_eq_false_iff.2 (hsolid last (by simp))
      simp [hlast]

/-! ## Section 2: Values -/

/-- What the value of a field says, if the bytes of the field are `window`: its text has a character
for each byte before the fill, the one that the byte stands for or a point for a control
character. -/
structure FieldValue.Shows (v : FieldValue) (f : Field) (encoding : TextEncoding)
    (window : Bytes) : Prop where
  name : v.name = f.name
  width : v.width = f.width
  raw : TrimsTo encoding window v.raw
  text : v.text = String.ofList (v.raw.map fun byte =>
    if isControl (encoding.decodeByte byte) then '.' else encoding.decodeByte byte)

theorem FieldValue.shows_ofWindow (f : Field) (encoding : TextEncoding) (window : Bytes) :
    (ofWindow f encoding window).Shows f encoding window :=
  ⟨rfl, rfl, trimsTo_trimFill encoding window, rfl⟩

theorem FieldValue.Shows.text_eq (h : v.Shows f encoding window) :
    v.text = String.ofList (v.raw.map (shownChar encoding)) := h.text

/-- The value that is made of the bytes of a field is the one that shows them. -/
theorem FieldValue.shows_iff : v.Shows f encoding window ↔ .ofWindow f encoding window = v := by
  constructor
  · rintro ⟨hname, hwidth, hraw, htext⟩
    obtain ⟨name, width, raw, text⟩ := v
    dsimp only at hname hwidth hraw htext
    have htrim := trimFill_eq_iff.2 hraw
    subst hname hwidth htrim htext
    rfl
  · rintro rfl
    exact shows_ofWindow f encoding window

/-- A value is extracted exactly from text whose bytes were read, and shows these bytes. -/
theorem LocatedBlock.extract_eq_ok_iff :
    here.extract f = .ok v ↔ ∃ encoding window, f.kind = .text encoding ∧
      here.window? f = some window ∧ v.Shows f encoding window := by
  simp only [FieldValue.shows_iff]
  unfold extract
  cases hkind : f.kind with
  | padding => simp
  | link => simp
  | text encoding =>
    cases hwindow : here.window? f with
    | none => simp
    | some window => simp

/-- Text that ends past the bytes of its block is not extracted, and neither is anything else. -/
theorem LocatedBlock.extract_eq_error_iff {fault : ExtractionError} :
    here.extract f = .error fault ↔
      f.isText = false ∧ fault = .notPrintable here.block.name f.name ∨
      f.isText = true ∧ here.bytes.length < f.stop ∧
        fault = .outOfRange here.block.name f.name f.offset f.width here.bytes.length := by
  -- the kind of the field is looked at first, then its bytes
  have hmissing : here.window? f = none ↔ here.bytes.length < f.stop := by
    simp [window?, Bytes.window?, Field.stop]
  rw [← hmissing]
  unfold extract Field.isText
  cases hkind : f.kind with
  | padding => simp [FieldKind.encoding?, eq_comm]
  | link => simp [FieldKind.encoding?, eq_comm]
  | text encoding =>
    cases hwindow : here.window? f with
    | none => simp [FieldKind.encoding?, eq_comm]
    | some window => simp [FieldKind.encoding?]

end IplReport
