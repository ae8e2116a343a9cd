import IplReport.Catalog.Basic

/-!
# The z/OS control blocks

The five control blocks that lead from the prefixed save area to what is known about the last
initial program load, cut down to the fields that are read.
-/

namespace IplReport.Zos

/-- The prefixed save area, where every chain starts. -/
def psa : Block :=
  Block.ofSize "PSA" 20 |>.reserved 0 16 |>.link "PSACVT" 16

/-- The communications vector table. -/
def cvt : Block :=
  Block.ofSize "CVT" 332
    |>.reserved 0 140
    |>.link "CVTECVT" 140
    |>.reserved 144 184
    |>.link "CVTEXT2" 328

/-- The extended communications vector table. -/
def ecvt : Block :=
  Block.ofSize "ECVT" 396 |>.reserved 0 392 |>.link "ECVTIPA" 392

/-- The initialization parameter area. -/
def ipa (encoding : TextEncoding) : Block :=
  Block.ofSize "IPA" 96
    |>.reserved 0 20
    |>.text "IPALOADS" 20 2 encoding
    |>.reserved 22 26
    |>.text "IPALPDSN" 48 44 encoding
    |>.text "IPALPDDV" 92 4 encoding

/-- The second extension of the communications vector table. -/
def cvtExtension2 (encoding : TextEncoding) : Block :=
  Block.ofSize "CVTEXT2" 8 |>.reserved 0 6 |>.text "IODF_ID" 6 2 encoding

/-- The five control blocks, their text in a given encoding. -/
def blocks (encoding : TextEncoding) : List Block :=
  [psa, cvt, ecvt, ipa encoding, cvtExtension2 encoding]

/-- The five control blocks are sound. -/
theorem checkBlocks_blocks (encoding : TextEncoding) : checkBlocks (blocks encoding) = .ok () := by
  cases encoding <;> rfl

def catalog (encoding : TextEncoding) : Catalog :=
  ⟨blocks encoding, checkBlocks_blocks encoding⟩

end IplReport.Zos
