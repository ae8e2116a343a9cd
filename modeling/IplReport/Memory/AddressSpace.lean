import IplReport.Memory.Bytes

/-!
# Address spaces

An address space answers reads and states a limit for addresses.  Nothing else is asked of it:
a read may be refused, and one that succeeds may even hand back fewer bytes than were asked for.
-/

namespace IplReport

/-- Storage that can be read. -/
structure AddressSpace where
  /-- One past the highest address that a link may hold. -/
  limit : UInt64
  /-- The bytes at an address, as many as asked for, or `none` if they cannot be read. -/
  read : UInt64 → UInt64 → Option Bytes

namespace AddressSpace

def withLimit (space : AddressSpace) (limit : UInt64) : AddressSpace :=
  { space with limit := limit }

/-- The same storage, which hands back no more than `count` bytes of any read. -/
def clipped (space : AddressSpace) (count : Nat) : AddressSpace :=
  { space with read := fun address size => (space.read address size).map (List.take count) }

end AddressSpace

end IplReport
