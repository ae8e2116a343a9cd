import IplReport.Proofs.FieldValue
import IplReport.Proofs.Memory.Bytes
import IplReport.Proofs.Text.Encoding

/-!
# Text that is stored and extracted again

Text is stored in a field one byte per character, with fill behind it up to the width of the field.
What is extracted afterwards is the text, whatever blanks and zeros the fill is made of, as long as
nothing in the text is taken for fill or shown as something else.

Main statements:
- `trimsTo_encode_append`: cutting off the fill in the bytes is cutting off the spaces in the text;
- `storedText_eq_self`: which texts come back as they are;
- `LocatedBlock.extract_store`: what is extracted from a field that text has been stored in.
-/

namespace IplReport

variable {encoding : TextEncoding} {text : String} {fill : Bytes} {c : Char}

/-! ## Section 1: Stored characters -/

namespace TextEncoding

theorem encodeChar_storedChar (encoding : TextEncoding) (c : Char) :
    encoding.encodeChar (storedChar c) = encoding.encodeChar c := by
  rw [← encoding.decodeByte_encodeChar c, encodeChar_decodeByte]

/-- A space is no control character, so storing a character does not make it one. -/
theorem isControl_storedChar (h : isControl c = false) : isControl (storedChar c) = false := by
  rw [storedChar]
  split_ifs
  · exact h
  · rfl

theorem shownChar_encodeChar (h : isControl c = false) :
    shownChar encoding (encoding.encodeChar c) = storedChar c := by
  have hstored : ¬isControl (storedChar c) = true := by
    rw [isControl_storedChar h]
    exact Bool.false_ne_true
  rw [shownChar, decodeByte_encodeChar]
  exact if_neg hstored

/-- Of the characters that are no control characters, those are stored as fill that are there as a
space afterwards. -/
theorem isFill_encodeChar_of_printable (h : isControl c = false) :
    encoding.isFill (encoding.encodeChar c) = (storedChar c == ' ') := by
  have hnul : storedChar c ≠ '\x00' := by
    intro hzero
    have hcontrol := isControl_storedChar h
    rw [hzero] at hcontrol
    exact absurd hcontrol (by decide)
  rw [Bool.eq_iff_iff, isFill_encodeChar, beq_iff_eq]
  exact or_iff_right hnul

end TextEncoding

/-! ## Section 2: Stored text -/

open TextEncoding

/-- The text that is there after a text has been stored.  Characters above U+00FF have become
spaces, and spaces at the end are not told from the fill behind them. -/
def storedText (text : String) : String :=
  String.ofList ((text.toList.map storedChar).rdropWhile (· == ' '))

/-- Behind the text that is there afterwards, only spaces have been stored. -/
theorem storedText_append (text : String) :
    ∃ spaces, (storedText text).toList ++ spaces = text.toList.map storedChar ∧
      ∀ c ∈ spaces, c = ' ' := by
  refine ⟨(text.toList.map storedChar).rtakeWhile (· == ' '), ?_, ?_⟩
  · rw [storedText, String.toList_ofList, List.rdropWhile_append_rtakeWhile]
  · intro c hc
    have hspace := List.mem_rtakeWhile_imp hc
    exact beq_iff_eq.1 hspace

theorem getLast?_storedText_ne (text : String) :
    (storedText text).toList.getLast? ≠ some ' ' := by
  intro hspace
  rw [storedText, String.toList_ofList] at hspace
  obtain ⟨hne, hlast⟩ := List.mem_getLast?_eq_getLast hspace
  exact List.rdropWhile_last_not _ _ hne (beq_iff_eq.2 hlast.symm)

/-- Text of characters up to U+00FF that does not end in a space comes back as it is. -/
theorem storedText_eq_self (hlatin1 : ∀ c ∈ text.toList, c.toNat < 256)
    (hlast : text.toList.getLast? ≠ some ' ') : storedText text = text := by
  have hsame : text.toList.map storedChar = text.toList := by
    rw [List.map_congr_left fun c hc => storedChar_of_lt (hlatin1 c hc), List.map_id']
  rw [storedText, hsame, List.rdropWhile_eq_self_iff.2, String.ofList_toList]
  intro hne hspace
  rw [List.getLast?_eq_getLast_of_ne_nil hne, beq_iff_eq.1 hspace] at hlast
  exact hlast rfl

theorem exists_of_mem_storedText (h : c ∈ (storedText text).toList) :
    ∃ d ∈ text.toList, storedChar d = c := by
  obtain ⟨spaces, hspaces, -⟩ := storedText_append text
  have hmem : c ∈ text.toList.map storedChar := hspaces ▸ List.mem_append_left spaces h
  exact List.mem_map.1 hmem

/-- Cutting off the spaces in a text, and nothing else, cuts off the fill in its bytes. -/
theorem trimsTo_encode_append (hprintable : ∀ c ∈ text.toList, isControl c = false)
    (hfill : ∀ byte ∈ fill, byte = 0 ∨ byte = encoding.blank) :
    TrimsTo encoding (encoding.encode text ++ fill) (encoding.encode (storedText text)) := by
  constructor
  · obtain ⟨spaces, hspaces, hspace⟩ := storedText_append text
    -- the characters that are there afterwards are stored as the text is
    have hencode : encoding.encode (storedText text) ++ spaces.map encoding.encodeChar =
        encoding.encode text := by
      rw [encode, ← List.map_append, hspaces, List.map_map, encode]
      exact List.map_congr_left fun c _ => encoding.encodeChar_storedChar c
    refine ⟨spaces.map encoding.encodeChar ++ fill, ?_, ?_⟩
    · rw [← List.append_assoc, hencode]
    · intro byte hbyte
      rcases List.mem_append.1 hbyte with hbyte | hbyte
      · obtain ⟨c, hc, rfl⟩ := List.mem_map.1 hbyte
        rw [← isFill_iff, isFill_encodeChar, hspace c hc]
        exact Or.inr rfl
      · exact hfill byte hbyte
  · intro byte hbyte
    rw [encode, List.getLast?_map] at hbyte
    obtain ⟨c, hc, rfl⟩ := Option.map_eq_some_iff.1 hbyte
    obtain ⟨d, hd, rfl⟩ := exists_of_mem_storedText (List.mem_of_getLast? hc)
    have hne : storedChar d ≠ ' ' := by
      intro hspace
      exact getLast?_storedText_ne text (hspace ▸ hc)
    rw [← isFill_eq_false_iff, encodeChar_storedChar,
      isFill_encodeChar_of_printable (hprintable d hd)]
    exact beq_eq_false_iff_ne.2 hne

/-- The characters that are shown for the bytes of a stored text are its own. -/
theorem map_shownChar_encode (hprintable : ∀ c ∈ text.toList, isControl c = false) :
    String.ofList ((encoding.encode (storedText text)).map (shownChar encoding)) =
      storedText text := by
  have hshown : ∀ c ∈ (storedText text).toList,
      shownChar encoding (encoding.encodeChar c) = c := by
    intro c hc
    obtain ⟨d, hd, rfl⟩ := exists_of_mem_storedText hc
    rw [encodeChar_storedChar, shownChar_encodeChar (hprintable d hd)]
  have hsame : (storedText text).toList.map (shownChar encoding ∘ encoding.encodeChar) =
      (storedText text).toList := (List.map_congr_left hshown).trans (List.map_id' _)
  rw [encode, List.map_map, hsame, String.ofList_toList]

/-- A field that holds a text and fill shows the text that is there afterwards. -/
theorem FieldValue.shows_storedText (f : Field)
    (hprintable : ∀ c ∈ text.toList, isControl c = false)
    (hfill : ∀ byte ∈ fill, byte = 0 ∨ byte = encoding.blank) :
    Shows ⟨f.name, f.width, encoding.encode (storedText text), storedText text⟩ f encoding
      (encoding.encode text ++ fill) where
  name := rfl
  width := rfl
  raw := by
    dsimp only
    exact trimsTo_encode_append hprintable hfill
  text := by
    dsimp only
    exact (map_shownChar_encode hprintable).symm

/-! ## Section 3: Storing and extracting -/

namespace LocatedBlock

variable {here : LocatedBlock} {f : Field}

/-- The block with other bytes in a field. -/
def store (here : LocatedBlock) (f : Field) (patch : Bytes) : LocatedBlock :=
  { here with bytes := here.bytes.overlay f.offset.toNat patch }

/-- What is extracted after text has been stored in a field, whatever the other bytes of the block
are.  The text may have any characters but control characters.  It comes back with spaces for those
above U+00FF and without the spaces at its end, and with one byte for each character that is left.
Text of characters up to U+00FF that does not end in a space comes back as it is. -/
theorem extract_store (hkind : f.kind = .text encoding) (hfits : f.stop ≤ here.bytes.length)
    (hprintable : ∀ c ∈ text.toList, isControl c = false)
    (hfill : ∀ byte ∈ fill, byte = 0 ∨ byte = encoding.blank)
    (hwidth : text.length + fill.length = f.width.toNat) :
    (here.store f (encoding.encode text ++ fill)).extract f =
      .ok ⟨f.name, f.width, encoding.encode (storedText text), storedText text⟩ ∧
    (encoding.encode (storedText text)).length = (storedText text).length ∧
    ((∀ c ∈ text.toList, c.toNat < 256) → text.toList.getLast? ≠ some ' ' →
      storedText text = text) := by
  -- text and fill are as wide as the field, so the field holds them and nothing else
  have hpatch : (encoding.encode text ++ fill).length = f.width.toNat := by
    rw [List.length_append, encoding.length_encode, hwidth]
  have hwindow : (here.store f (encoding.encode text ++ fill)).window? f =
      some (encoding.encode text ++ fill) := by
    rw [window?, store, ← hpatch]
    exact Bytes.window?_overlay (by rw [hpatch]; exact hfits)
  have hshows := FieldValue.shows_storedText f hprintable hfill
  exact ⟨extract_eq_ok_iff.2 ⟨encoding, _, hkind, hwindow, hshows⟩, encoding.length_encode _,
    storedText_eq_self⟩

/-- A text with two characters above U+00FF, one of them at its end, and a text that comes back as
it is, each with mixed fill behind it and other bytes around it. -/
theorem extract_store_lambdas :
    (store ⟨⟨"B", 8, []⟩, 0, List.replicate 12 0xc5⟩ ⟨"T", 3, 8, .text .ebcdic⟩
        (TextEncoding.encode .ebcdic "A\u03bb B\u03bb" ++ [0x00, 0x40, 0x00])).extract
      ⟨"T", 3, 8, .text .ebcdic⟩ = .ok ⟨"T", 8, [0xc1, 0x40, 0x40, 0xc2], "A  B"⟩ ∧
    (store ⟨⟨"B", 8, []⟩, 0, List.replicate 12 0xc5⟩ ⟨"T", 3, 8, .text .ascii⟩
        (TextEncoding.encode .ascii "\u00e9 B" ++ [0x00, 0x20, 0x00, 0x20, 0x20])).extract
      ⟨"T", 3, 8, .text .ascii⟩ = .ok ⟨"T", 8, [0xe9, 0x20, 0x42], "\u00e9 B"⟩ := by
  have hstored : storedText "A\u03bb B\u03bb" = "A  B" := by decide +kernel
  have hbytes : TextEncoding.encode .ebcdic "A  B" = [0xc1, 0x40, 0x40, 0xc2] := by decide +kernel
  have hebcdic := @extract_store .ebcdic "A\u03bb B\u03bb" [0x00, 0x40, 0x00]
    ⟨⟨"B", 8, []⟩, 0, List.replicate 12 0xc5⟩ ⟨"T", 3, 8, .text .ebcdic⟩ rfl (by decide)
    (by simp [isControl]) (by decide +kernel) (by decide)
  have hascii := @extract_store .ascii "\u00e9 B" [0x00, 0x20, 0x00, 0x20, 0x20]
    ⟨⟨"B", 8, []⟩, 0, List.replicate 12 0xc5⟩ ⟨"T", 3, 8, .text .ascii⟩ rfl (by decide)
    (by simp [isControl]) (by decide +kernel) (by decide)
  obtain ⟨hextract, -⟩ := hebcdic
  obtain ⟨hextract', -, hsame⟩ := hascii
  rw [hstored, hbytes] at hextract
  rw [hsame (by simp) (by decide)] at hextract'
  exact ⟨hextract, hextract'⟩

end LocatedBlock

end IplReport
