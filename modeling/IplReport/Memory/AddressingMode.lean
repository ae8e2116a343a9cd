/-!
# Addressing modes

The addressing mode of a machine bounds the addresses that a link may hold.
-/

namespace IplReport

/-- How many bits of an address count. -/
inductive AddressingMode where
  /-- 24 bits: storage below the line. -/
  | amode24
  /-- 31 bits: storage below the bar. -/
  | amode31
  | amode64
  deriving DecidableEq, Repr

namespace AddressingMode

/-- One past the highest address, or the highest 64-bit number where that does not fit. -/
def limit : AddressingMode → UInt64
  | amode24 => 0x1000000
  | amode31 => 0x80000000
  | amode64 => 0xffffffffffffffff

def ofBits? (bits : Nat) : Option AddressingMode :=
  match bits with
  | 24 => some amode24
  | 31 => some amode31
  | 64 => some amode64
  | _ => none

/-- What is said of a number of address bits that no mode has. -/
def unsupportedMessage (bits : Nat) : String :=
  s!"unsupported addressing mode {bits}; expected 24, 31 or 64"

end AddressingMode

end IplReport
