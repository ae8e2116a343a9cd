/-!
# Character encodings of fixed-width text

Text in control blocks is stored one byte per character, in EBCDIC code page 037 or in
Latin-1.  Both encodings are bijections between the 256 bytes and the characters
U+0000 to U+00FF, so decoding loses nothing and encoding loses only characters above U+00FF.
-/

namespace IplReport

/-- How the bytes of a printable field stand for characters. -/
inductive TextEncoding where
  /-- EBCDIC code page 037. -/
  | ebcdic
  /-- ASCII, extended to Latin-1. -/
  | ascii
  deriving DecidableEq, Repr

/-! ## Section 1: The code page -/

/-- Code page 037: the Latin-1 code of each EBCDIC byte, in byte order. -/
def codePage037 : List UInt8 := [
  0x00, 0x01, 0x02, 0x03, 0x9c, 0x09, 0x86, 0x7f, 0x97, 0x8d, 0x8e, 0x0b, 0x0c, 0x0d, 0x0e, 0x0f,
  0x10, 0x11, 0x12, 0x13, 0x9d, 0x85, 0x08, 0x87, 0x18, 0x19, 0x92, 0x8f, 0x1c, 0x1d, 0x1e, 0x1f,
  0x80, 0x81, 0x82, 0x83, 0x84, 0x0a, 0x17, 0x1b, 0x88, 0x89, 0x8a, 0x8b, 0x8c, 0x05, 0x06, 0x07,
  0x90, 0x91, 0x16, 0x93, 0x94, 0x95, 0x96, 0x04, 0x98, 0x99, 0x9a, 0x9b, 0x14, 0x15, 0x9e, 0x1a,
  0x20, 0xa0, 0xe2, 0xe4, 0xe0, 0xe1, 0xe3, 0xe5, 0xe7, 0xf1, 0xa2, 0x2e, 0x3c, 0x28, 0x2b, 0x7c,
  0x26, 0xe9, 0xea, 0xeb, 0xe8, 0xed, 0xee, 0xef, 0xec, 0xdf, 0x21, 0x24, 0x2a, 0x29, 0x3b, 0xac,
  0x2d, 0x2f, 0xc2, 0xc4, 0xc0, 0xc1, 0xc3, 0xc5, 0xc7, 0xd1, 0xa6, 0x2c, 0x25, 0x5f, 0x3e, 0x3f,
  0xf8, 0xc9, 0xca, 0xcb, 0xc8, 0xcd, 0xce, 0xcf, 0xcc, 0x60, 0x3a, 0x23, 0x40, 0x27, 0x3d, 0x22,
  0xd8, 0x61, 0x62, 0x63, 0x64, 0x65, 0x66, 0x67, 0x68, 0x69, 0xab, 0xbb, 0xf0, 0xfd, 0xfe, 0xb1,
  0xb0, 0x6a, 0x6b, 0x6c, 0x6d, 0x6e, 0x6f, 0x70, 0x71, 0x72, 0xaa, 0xba, 0xe6, 0xb8, 0xc6, 0xa4,
  0xb5, 0x7e, 0x73, 0x74, 0x75, 0x76, 0x77, 0x78, 0x79, 0x7a, 0xa1, 0xbf, 0xd0, 0xdd, 0xde, 0xae,
  0x5e, 0xa3, 0xa5, 0xb7, 0xa9, 0xa7, 0xb6, 0xbc, 0xbd, 0xbe, 0x5b, 0x5d, 0xaf, 0xa8, 0xb4, 0xd7,
  0x7b, 0x41, 0x42, 0x43, 0x44, 0x45, 0x46, 0x47, 0x48, 0x49, 0xad, 0xf4, 0xf6, 0xf2, 0xf3, 0xf5,
  0x7d, 0x4a, 0x4b, 0x4c, 0x4d, 0x4e, 0x4f, 0x50, 0x51, 0x52, 0xb9, 0xfb, 0xfc, 0xf9, 0xfa, 0xff,
  0x5c, 0xf7, 0x53, 0x54, 0x55, 0x56, 0x57, 0x58, 0x59, 0x5a, 0xb2, 0xd4, 0xd6, 0xd2, 0xd3, 0xd5,
  0x30, 0x31, 0x32, 0x33, 0x34, 0x35, 0x36, 0x37, 0x38, 0x39, 0xb3, 0xdb, 0xdc, 0xd9, 0xda, 0x9f]

namespace TextEncoding

/-- The encoding that goes by a given name in settings; names are lower case. -/
def ofName? : String → Option TextEncoding
  | "ebcdic" => some ebcdic
  | "ascii" => some ascii
  | _ => none

/-! ## Section 2: Fill -/

/-- The byte of a space, which pads fields to their width. -/
def blank : TextEncoding → UInt8
  | ebcdic => 0x40
  | ascii => 0x20

/-- Fill is what may follow the text of a field: blanks and NUL bytes. -/
def isFill (encoding : TextEncoding) (byte : UInt8) : Bool :=
  byte == 0 || byte == encoding.blank

/-! ## Section 3: Decoding and encoding -/

def toLatin1 : TextEncoding → UInt8 → UInt8
  | ebcdic, byte => codePage037.getD byte.toNat 0
  | ascii, byte => byte

/-- The byte of a Latin-1 code: the place of the code in the code page. -/
def ofLatin1 : TextEncoding → UInt8 → UInt8
  | ebcdic, code => UInt8.ofNat (codePage037.idxOf code)
  | ascii, code => code

def decodeByte (encoding : TextEncoding) (byte : UInt8) : Char :=
  Char.ofUInt8 (encoding.toLatin1 byte)

/-- The byte that stands for a character; a blank stands for every character above U+00FF. -/
def encodeChar (encoding : TextEncoding) (c : Char) : UInt8 :=
  if c.toNat < 256 then encoding.ofLatin1 (UInt8.ofNat c.toNat) else encoding.blank

/-- The text that a byte string stands for, one character per byte. -/
def decode (encoding : TextEncoding) (bytes : List UInt8) : String :=
  String.ofList (bytes.map encoding.decodeByte)

/-- The bytes that stand for a text, one byte per character. -/
def encode (encoding : TextEncoding) (text : String) : List UInt8 :=
  text.toList.map encoding.encodeChar

end TextEncoding

/-! ## Section 4: Control characters -/

/-- Control characters are U+0000 to U+001F and U+007F to U+009F. -/
def isControl (c : Char) : Bool :=
  c.toNat < 0x20 || (0x7f ≤ c.toNat && c.toNat < 0xa0)

end IplReport
