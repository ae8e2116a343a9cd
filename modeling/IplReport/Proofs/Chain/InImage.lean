import IplReport.Proofs.Chain.Trail
import IplReport.Proofs.Memory.Image

/-!
# Links in a memory image

A walk looks for a link in the bytes it has read of a block.  In a memory image the link can as
well be read by itself, at its own address, and where a block is sound this is always possible.
So a step of a walk is described here by reads of the image alone.

Main statements:
- `Image.Orderly.fieldHolds_iff`: a field read by itself is a window of its block;
- `Image.leadsTo_iff` and `Image.breaks_iff`: links lead on or break as the image says;
- `Image.links_or_fails`: one of the two is the case, and the link is never missing.
-/

namespace IplReport

namespace Image

/-! ## Section 1: Fields at their own address -/

/-- The image holds `window` where the field `f` of a block at `address` is.  The place of the
field is the exact sum of the two, which no address need be. -/
def FieldHolds (image : Image) (address : UInt64) (f : Field) (window : Bytes) : Prop :=
  ∃ position : UInt64, position.toNat = address.toNat + f.offset.toNat ∧
    image.read position f.width = some window

/-- The link of a block at `address` holds the address `value`, in big-endian order. -/
def LinkHolds (image : Image) (address : UInt64) (link : Field) (value : UInt64) : Prop :=
  ∃ word, image.FieldHolds address link word ∧ word.bigEndian = value.toNat

/-- The image can supply as many bytes at `address` as the block declares. -/
def Supplies (image : Image) (b : Block) (address : UInt64) : Prop :=
  ∃ bytes, image.read address b.size = some bytes

variable {image : Image} {b : Block} {f : Field} {address : UInt64}
  {bytes window : Bytes}

/-- A field that ends inside a block that was read is a window of the block. -/
theorem Orderly.fieldHolds_iff (h : image.Orderly) (hread : image.read address b.size = some bytes)
    (hstop : f.stop ≤ b.size.toNat) :
    image.FieldHolds address f window ↔
      bytes.window? f.offset.toNat f.width.toNat = some window := by
  rw [Field.stop] at hstop
  -- the block ends at or below the limit, so that the place of the field is an address
  have hlimit := h.le_limit_of_read hread
  have hbound := image.mode.limit.toNat_lt
  have hposition : (UInt64.ofNat (address.toNat + f.offset.toNat)).toNat =
      address.toNat + f.offset.toNat := UInt64.toNat_ofNat_of_lt' (by rw [UInt64.size]; omega)
  constructor
  · rintro ⟨position, hplace, hfield⟩
    rwa [h.read_of_read hread hplace hstop] at hfield
  · intro hwindow
    refine ⟨_, hposition, ?_⟩
    rwa [h.read_of_read hread hposition hstop]

theorem Orderly.exists_fieldHolds (h : image.Orderly)
    (hread : image.read address b.size = some bytes) (hstop : f.stop ≤ b.size.toNat) :
    ∃ window, image.FieldHolds address f window := by
  refine ⟨_, (h.fieldHolds_iff hread hstop).2 (Bytes.window?_eq_some_iff.2 ⟨?_, rfl⟩)⟩
  rw [length_of_read hread]
  exact hstop

/-! ## Section 2: Links -/

/-- A link of the block at `here` leads to the block `next` at `there`: it holds that address, which
is not zero, and the image can supply the block there. -/
structure Links (image : Image) (here : UInt64) (link : Field) (there : UInt64) (next : Block) :
    Prop where
  value : image.LinkHolds here link there
  nonzero : there ≠ 0
  supplied : image.Supplies next there

/-- Why a link of the block at `here` does not lead to the block `next`. -/
inductive LinkFails (image : Image) (here : UInt64) (link : Field) (next : Block) :
    LinkFault → Prop where
  /-- The link holds zero. -/
  | null : image.LinkHolds here link 0 → LinkFails image here link next .null
  /-- The block would end past the limit. -/
  | outOfRange {address : UInt64} : image.LinkHolds here link address → address ≠ 0 →
      image.mode.limit.toNat < address.toNat + next.size.toNat →
      LinkFails image here link next (.outOfRange address image.mode.limit)
  /-- The image cannot supply the block, though it would end at or below the limit. -/
  | unmapped {address : UInt64} : image.LinkHolds here link address → address ≠ 0 →
      address.toNat + next.size.toNat ≤ image.mode.limit.toNat →
      image.read address next.size = none →
      LinkFails image here link next (.unmapped address next.size)

end Image

/-- The link of a step ends inside its block and is as wide as an address. -/
structure Step.Fits (step : Step) : Prop where
  stop : step.link.stop ≤ step.block.size.toNat
  width : step.link.width.toNat = 4 ∨ step.link.width.toNat = 8

theorem addressWide_of_fits {steps : List Step} (h : ∀ step ∈ steps, step.Fits) :
    AddressWide steps :=
  fun step hstep => (h step hstep).width

/-- The link of every step that a catalog makes fits. -/
theorem Catalog.fits_of_step {c : Catalog} {block link : String} {step : Step}
    (h : c.step block link = .ok step) : step.Fits := by
  obtain ⟨hblock, hlink, hwidth⟩ := link_of_step h
  exact ⟨((c.sound hblock).admitted step.link hlink).stop, hwidth⟩

theorem Catalog.fits_of_path {c : Catalog} {name terminal : String}
    {links : List (String × String)} {path : Path} (h : c.path name links terminal = .ok path) :
    ∀ step ∈ path.steps, step.Fits := by
  intro step hstep
  obtain ⟨-, -, hsteps, -⟩ := path_eq_ok_iff.1 h
  obtain ⟨_, -, hmade⟩ := exists_left_of_forall₂ hsteps hstep
  exact fits_of_step hmade

namespace Image

variable {image : Image} {step : Step} {next : Block} {here there value : UInt64}
  {bytes bytes' : Bytes} {fault : LinkFault}

/-- The bytes of a block hold an address in a link exactly if the image holds it there. -/
theorem holdsAddress_iff (h : image.Orderly) (hfits : step.Fits)
    (hread : image.read here step.block.size = some bytes) :
    bytes.HoldsAddress step.link value ↔ image.LinkHolds here step.link value := by
  refine exists_congr fun word => ?_
  rw [h.fieldHolds_iff hread hfits.stop]
  constructor
  · exact fun hword => ⟨hword.1, hword.2.2⟩
  · -- a link is as wide as an address, so its bytes are as many as an address has
    rintro ⟨hword, hvalue⟩
    refine ⟨hword, ?_, hvalue⟩
    rw [Bytes.length_of_window? hword]
    exact hfits.width

/-- Where a link leads from a block that was read.  The block there ends at or below the limit
because it can be read at all. -/
theorem leadsTo_iff (h : image.Orderly) (hfits : step.Fits)
    (hread : image.read here step.block.size = some bytes) :
    LocatedBlock.LeadsTo image.space ⟨step.block, here, bytes⟩ step.link ⟨next, there, bytes'⟩ ↔
      image.LinkHolds here step.link there ∧ there ≠ 0 ∧
        image.read there next.size = some bytes' := by
  rw [← holdsAddress_iff h hfits hread]
  constructor
  · exact fun hleads => ⟨hleads.value, hleads.nonzero, hleads.read⟩
  · exact fun ⟨hvalue, hnonzero, hnext⟩ => ⟨hvalue, hnonzero, h.le_limit_of_read hnext, hnext⟩

/-- How a link breaks out of a block that was read.  The link itself is never missing. -/
theorem breaks_iff (h : image.Orderly) (hfits : step.Fits)
    (hread : image.read here step.block.size = some bytes) :
    LocatedBlock.Breaks image.space ⟨step.block, here, bytes⟩ step.link next fault ↔
      image.LinkFails here step.link next fault := by
  have hvalue : ∀ {value}, bytes.HoldsAddress step.link value ↔
      image.LinkHolds here step.link value := holdsAddress_iff h hfits hread
  constructor
  · intro hbreaks
    cases hbreaks with
    | missing hlength =>
      -- an image hands back all the bytes of a block, and the link ends inside the block
      have hbytes : bytes.length = step.block.size.toNat := length_of_read hread
      have hstop := hfits.stop
      dsimp only at hlength
      omega
    | null hholds => exact .null (hvalue.1 hholds)
    | outOfRange hholds hnonzero hrange => exact .outOfRange (hvalue.1 hholds) hnonzero hrange
    | unmapped hholds hnonzero hrange hnext =>
      exact .unmapped (hvalue.1 hholds) hnonzero hrange hnext
  · intro hfails
    cases hfails with
    | null hholds => exact .null (hvalue.2 hholds)
    | outOfRange hholds hnonzero hrange => exact .outOfRange (hvalue.2 hholds) hnonzero hrange
    | unmapped hholds hnonzero hrange hnext =>
      exact .unmapped (hvalue.2 hholds) hnonzero hrange hnext

/-- A link of a block that the image can supply leads on or fails. -/
theorem links_or_fails (h : image.Orderly) (hfits : step.Fits)
    (hsupplied : image.Supplies step.block here) (next : Block) :
    (∃ there, image.Links here step.link there next) ∨
      ∃ fault, image.LinkFails here step.link next fault := by
  obtain ⟨bytes, hread⟩ := hsupplied
  -- one of the two is the case of the bytes that were read, and so of the image
  rcases LocatedBlock.leads_or_breaks image.space ⟨step.block, here, bytes⟩ next hfits.width with
    ⟨⟨block, there, bytes'⟩, hleads, hblock⟩ | ⟨fault, hbreaks⟩
  · obtain ⟨hvalue, hnonzero, hnext⟩ := (leadsTo_iff h hfits hread).1 hleads
    dsimp only at hblock
    rw [hblock] at hnext
    exact Or.inl ⟨there, hvalue, hnonzero, bytes', hnext⟩
  · exact Or.inr ⟨fault, (breaks_iff h hfits hread).1 hbreaks⟩

/-! ## Section 3: Walks -/

/-- Links lead along steps towards `terminal` from the block at `here` to that at `last`. -/
inductive Way (image : Image) (terminal : Block) : UInt64 → List Step → UInt64 → Prop where
  | nil {here : UInt64} : Way image terminal here [] here
  | cons {here there last : UInt64} {step : Step} {rest : List Step} :
      image.Links here step.link there (startOf terminal rest) →
      Way image terminal there rest last → Way image terminal here (step :: rest) last

/-- Links lead along steps towards `terminal` up to one that fails; the first of the steps has a
given number. -/
inductive Stops (image : Image) (terminal : Block) :
    Nat → UInt64 → List Step → WalkError → Prop where
  | here {index : Nat} {here : UInt64} {step : Step} {rest : List Step} {fault : LinkFault} :
      image.LinkFails here step.link (startOf terminal rest) fault →
      Stops image terminal index here (step :: rest)
        (.brokenLink index step.block.name step.link.name fault)
  | later {index : Nat} {here there : UInt64} {step : Step} {rest : List Step} {e : WalkError} :
      image.Links here step.link there (startOf terminal rest) →
      Stops image terminal (index + 1) there rest e →
      Stops image terminal index here (step :: rest) e

variable {terminal : Block} {steps rest : List Step} {index : Nat} {root last : UInt64}
  {e : WalkError} {path : Path}

/-- Where the image says that the first link leads on, the rest is followed from there. -/
theorem follow_of_links (h : image.Orderly) (hfits : step.Fits)
    (hread : image.read here step.block.size = some bytes)
    (hlinks : image.Links here step.link there (startOf terminal rest)) :
    ∃ bytes', image.read there (startOf terminal rest).size = some bytes' ∧
      (follow image.space terminal index ⟨step.block, here, bytes⟩ (step :: rest)).outcome =
        (follow image.space terminal (index + 1)
          ⟨startOf terminal rest, there, bytes'⟩ rest).outcome := by
  obtain ⟨bytes', hnext⟩ := hlinks.supplied
  refine ⟨bytes', hnext, ?_⟩
  apply follow_of_leadsTo
  · exact (leadsTo_iff h hfits hread).2 ⟨hlinks.value, hlinks.nonzero, hnext⟩
  · rfl

theorem follow_of_way (h : image.Orderly) (hfits : ∀ step ∈ steps, step.Fits)
    (hread : image.read here (startOf terminal steps).size = some bytes)
    (hway : image.Way terminal here steps last) :
    ∃ bytes', image.read last terminal.size = some bytes' ∧
      (follow image.space terminal index ⟨startOf terminal steps, here, bytes⟩ steps).outcome =
        .ok ⟨terminal, last, bytes'⟩ := by
  -- along the way every block has been read, which the next link needs
  induction hway generalizing index bytes with
  | nil => exact ⟨bytes, hread, rfl⟩
  | cons hlinks _ ih =>
    obtain ⟨hfirst, hrest⟩ := List.forall_mem_cons.1 hfits
    obtain ⟨bytes', hnext, hfollow⟩ := follow_of_links h hfirst hread hlinks
    rw [startOf, hfollow]
    exact ih hrest hnext

theorem follow_of_stops (h : image.Orderly) (hfits : ∀ step ∈ steps, step.Fits)
    (hread : image.read here (startOf terminal steps).size = some bytes)
    (hstops : image.Stops terminal index here steps e) :
    (follow image.space terminal index ⟨startOf terminal steps, here, bytes⟩ steps).outcome =
      .error e := by
  -- on where the walk stops; the bytes of the block it is at change with every link
  induction hstops generalizing bytes with
  | here hfails =>
    apply follow_of_breaks
    exact (breaks_iff h (hfits _ List.mem_cons_self) hread).2 hfails
  | later hlinks _ ih =>
    obtain ⟨hfirst, hrest⟩ := List.forall_mem_cons.1 hfits
    obtain ⟨bytes', hnext, hfollow⟩ := follow_of_links h hfirst hread hlinks
    rw [startOf, hfollow]
    exact ih hrest hnext

/-- A walk ends where the links of the image lead, with the bytes that the image has there. -/
theorem walk_of_way (h : image.Orderly) (hfits : ∀ step ∈ path.steps, step.Fits)
    (hroot : image.Supplies path.root root)
    (hway : image.Way path.terminal root path.steps last) :
    ∃ bytes, image.read last path.terminal.size = some bytes ∧
      (path.walk image.space root).outcome = .ok ⟨path.terminal, last, bytes⟩ := by
  obtain ⟨bytes, hread⟩ := hroot
  have hspace : image.space.read root path.root.size = some bytes := hread
  rw [Path.walk_outcome_eq, hspace]
  exact follow_of_way h hfits hread hway

/-- A walk ends in the error that the first link to fail stands for. -/
theorem walk_of_stops (h : image.Orderly) (hfits : ∀ step ∈ path.steps, step.Fits)
    (hroot : image.Supplies path.root root)
    (hstops : image.Stops path.terminal 0 root path.steps e) :
    (path.walk image.space root).outcome = .error e := by
  obtain ⟨bytes, hread⟩ := hroot
  have hspace : image.space.read root path.root.size = some bytes := hread
  rw [Path.walk_outcome_eq, hspace]
  exact follow_of_stops h hfits hread hstops

/-- A walk ends at once where the image cannot supply the root block. -/
theorem walk_of_refused (hroot : image.read root path.root.size = none) :
    (path.walk image.space root).outcome =
      .error (.rootUnavailable path.root.name root path.root.size) := by
  have hspace : image.space.read root path.root.size = none := hroot
  rw [Path.walk_outcome_eq, hspace]

end Image

end IplReport
