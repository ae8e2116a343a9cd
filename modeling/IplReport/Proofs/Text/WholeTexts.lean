import IplReport.Proofs.Text.Encoding
import Mathlib.Data.Set.Function

/-!
# Whole texts back and forth

Texts of Latin-1 characters and byte strings stand for each other, character by character, and all
other texts lose nothing but the characters above U+00FF.  Encoding looks a code up in the code
page.  It may as well use a table of the places of all codes, which is filled in by going through
the code page once: no code is there twice, so no place is overwritten, and none is missing.

Main statements:
- `getElem?_codePlaces`: the table of places tells what looking up does;
- `decode_encode`: what a text is after it has been encoded;
- `encode_back_and_forth`: bytes and texts in both directions.
-/

namespace IplReport

/-! ## Section 1: A table of places -/

section Places

variable {codes table : List UInt8} {code : UInt8} {start : Nat}

/-- Enters the places of codes in a table, the first of them being number `start`.  The place of a
code is entered at the index that the code is. -/
def enterPlaces (start : Nat) (table : List UInt8) : List UInt8 → List UInt8
  | [] => table
  | code :: rest => enterPlaces (start + 1) (table.set code.toNat (UInt8.ofNat start)) rest

/-- The places of the codes in the code page, entered in a table of zeros. -/
def codePlaces : List UInt8 :=
  enterPlaces 0 (List.replicate 256 0) codePage037

theorem getElem?_enterPlaces_of_notMem (h : code ∉ codes) :
    (enterPlaces start table codes)[code.toNat]? = table[code.toNat]? := by
  induction codes generalizing start table with
  | nil => rfl
  | cons other rest ih =>
    rw [List.mem_cons, not_or] at h
    obtain ⟨hne, hrest⟩ := h
    have hindex : other.toNat ≠ code.toNat := fun heq => hne (UInt8.toNat_inj.1 heq).symm
    rw [enterPlaces, ih hrest, List.getElem?_set_ne hindex]

/-- Where no code occurs twice, the place that is entered for a code stays. -/
theorem getElem?_enterPlaces (hdistinct : codes.Nodup) (hmem : code ∈ codes)
    (hlength : code.toNat < table.length) :
    (enterPlaces start table codes)[code.toNat]? =
      some (UInt8.ofNat (start + codes.idxOf code)) := by
  induction codes generalizing start table with
  | nil => cases hmem
  | cons other rest ih =>
    obtain ⟨hother, hrest⟩ := List.nodup_cons.1 hdistinct
    rw [enterPlaces]
    by_cases heq : other = code
    · -- the place has just been entered, and the rest of the codes leave it alone
      subst heq
      rw [getElem?_enterPlaces_of_notMem hother, List.getElem?_set_self hlength,
        List.idxOf_cons_self, Nat.add_zero]
    · have hmem : code ∈ rest := (List.mem_cons.1 hmem).resolve_left (Ne.symm heq)
      rw [ih hrest hmem (by rwa [List.length_set]), List.idxOf_cons_ne _ heq, Nat.succ_eq_add_one,
        Nat.add_assoc, Nat.add_comm 1]

/-- No code is in the code page twice, since a byte can be told from the code that it stands for. -/
theorem nodup_codePage037 : codePage037.Nodup := by
  rw [List.nodup_iff_injective_getElem]
  intro i j hcodes
  have hbyte : ∀ i : Fin codePage037.length, (UInt8.ofNat i).toNat = i := fun i =>
    UInt8.toNat_ofNat_of_lt' (Nat.lt_of_lt_of_eq i.isLt length_codePage037)
  have hcode : ∀ i : Fin codePage037.length,
      TextEncoding.ebcdic.toLatin1 (UInt8.ofNat i) = codePage037[(i : Nat)] := by
    intro i
    rw [TextEncoding.toLatin1, hbyte, List.getD_eq_getElem]
  -- equal codes are looked up as equal bytes, and these are the positions
  have hbytes : UInt8.ofNat i = UInt8.ofNat j := by
    have hcodes : codePage037[(i : Nat)] = codePage037[(j : Nat)] := hcodes
    rw [← TextEncoding.ebcdic.ofLatin1_toLatin1 (UInt8.ofNat i), hcode, hcodes, ← hcode,
      TextEncoding.ofLatin1_toLatin1]
  rw [Fin.ext_iff, ← hbyte i, hbytes, hbyte]

/-- For every code, the table has the byte that is found by looking the code up. -/
theorem getElem?_codePlaces (code : UInt8) :
    codePlaces[code.toNat]? = some (TextEncoding.ebcdic.ofLatin1 code) := by
  have hlength : code.toNat < (List.replicate 256 (0 : UInt8)).length := by
    rw [List.length_replicate]
    exact code.toNat_lt
  rw [codePlaces, getElem?_enterPlaces nodup_codePage037 (mem_codePage037 code) hlength,
    Nat.zero_add]
  rfl

end Places

/-! ## Section 2: Texts -/

namespace TextEncoding

variable {encoding : TextEncoding} {text : String}

/-- A text has no characters above U+00FF. -/
def IsLatin1 (text : String) : Prop :=
  ∀ c ∈ text.toList, c.toNat < 256

theorem isLatin1_decode (encoding : TextEncoding) (bytes : List UInt8) :
    IsLatin1 (encoding.decode bytes) := by
  intro c hc
  rw [decode, String.toList_ofList] at hc
  obtain ⟨byte, -, rfl⟩ := List.mem_map.1 hc
  exact (encoding.toLatin1 byte).toNat_lt

theorem encode_decode (encoding : TextEncoding) (bytes : List UInt8) :
    encoding.encode (encoding.decode bytes) = bytes := by
  rw [encode, decode, String.toList_ofList, List.map_map]
  exact (List.map_congr_left fun byte _ => encoding.encodeChar_decodeByte byte).trans
    (List.map_id' bytes)

/-- After encoding, each character is there as the one that it is stored as. -/
theorem decode_encode (encoding : TextEncoding) (text : String) :
    encoding.decode (encoding.encode text) = String.ofList (text.toList.map storedChar) := by
  rw [encode, decode, List.map_map]
  exact congrArg String.ofList
    (List.map_congr_left fun c _ => encoding.decodeByte_encodeChar c)

theorem decode_encode_of_isLatin1 (h : IsLatin1 text) :
    encoding.decode (encoding.encode text) = text := by
  rw [decode_encode, List.map_congr_left fun c hc => storedChar_of_lt (h c hc), List.map_id',
    String.ofList_toList]

/-- Bytes and texts, in both encodings.  A byte string is there again after it has been decoded and
encoded, and so is a text of Latin-1 characters after it has been encoded and decoded.  Any text is
encoded as one byte for each of its characters, and afterwards it has a space in the place of each
character above U+00FF.  So Latin-1 texts and byte strings correspond one to one.  The bytes of all
codes are those of a table that is filled in by going through the code page once. -/
theorem encode_back_and_forth (encoding : TextEncoding) :
    (∀ bytes, encoding.encode (encoding.decode bytes) = bytes) ∧
    (∀ text, IsLatin1 text → encoding.decode (encoding.encode text) = text) ∧
    (∀ text : String, (encoding.encode text).length = text.length ∧
      encoding.decode (encoding.encode text) =
        String.ofList (text.toList.map fun c => if c.toNat < 256 then c else ' ')) ∧
    Set.BijOn encoding.encode {text | IsLatin1 text} Set.univ ∧
    ∀ code : UInt8, codePlaces[code.toNat]? = some (ebcdic.ofLatin1 code) := by
  have hinverse : Set.InvOn encoding.decode encoding.encode {text | IsLatin1 text} Set.univ :=
    ⟨fun _ htext => decode_encode_of_isLatin1 htext, fun bytes _ => encoding.encode_decode bytes⟩
  refine ⟨encoding.encode_decode, fun _ => decode_encode_of_isLatin1, fun text => ?_, ?_,
    getElem?_codePlaces⟩
  · exact ⟨encoding.length_encode text, encoding.decode_encode text⟩
  · exact hinverse.bijOn (fun _ _ => Set.mem_univ _) fun bytes _ => encoding.isLatin1_decode bytes

/-- A text of two Latin-1 characters, one of which is a control character, and a text with a
character that is lost. -/
theorem encode_back_and_forth_nextLine :
    IsLatin1 "\u0085\u00e9" ∧ encode .ebcdic "\u0085\u00e9" = [0x15, 0x51] ∧
      decode .ebcdic [0x15, 0x51] = "\u0085\u00e9" ∧
      decode .ebcdic (encode .ebcdic "\u0085\u03bb\u00e9") = "\u0085 \u00e9" := by
  have hlatin1 : IsLatin1 "\u0085\u00e9" := by
    simp [IsLatin1]
  have hbytes : encode .ebcdic "\u0085\u00e9" = [0x15, 0x51] := by decide +kernel
  obtain ⟨-, hback, hstored, -, -⟩ := encode_back_and_forth .ebcdic
  refine ⟨hlatin1, hbytes, ?_, (hstored _).2.trans (by decide +kernel)⟩
  rw [← hbytes]
  exact hback _ hlatin1

end TextEncoding

end IplReport
