import IplReport.Catalog.Zos
import IplReport.Proofs.Block.Conservation
import IplReport.Proofs.Catalog.Contents

/-!
# Which paths a catalog makes

A path is asked for by names: the block and the link of each step, and the block at its end.  The
names are good if the catalog has a block of that name, with a link of that name among its fields.
A path is made if all names are good, and otherwise the first bad one says what is wrong.

Main statements:
- `exists_step_iff` and `step_eq_error_iff`: when a step can be taken, and what is wrong if not;
- `path_eq_error_iff`: what is wrong with a path;
- `path_construction`: which paths are made, and what is known of them.
-/

namespace IplReport

namespace Catalog

variable {c : Catalog} {block link name terminal : String} {s : Step} {path : Path}
  {links : List (String × String)} {e : LayoutError}

/-! ## Section 1: Good names and bad names -/

/-- A block of the catalog is called `block`. -/
def HasBlock (c : Catalog) (block : String) : Prop :=
  ∃ b ∈ c.blocks, b.name = block

/-- A block of the catalog is called `block`, and one of its fields is a link called `link`. -/
def HasLink (c : Catalog) (block link : String) : Prop :=
  ∃ b ∈ c.blocks, b.name = block ∧ ∃ f ∈ b.fields, f.name = link ∧ f.kind = .link

instance : Decidable (c.HasBlock block) :=
  inferInstanceAs (Decidable (∃ b ∈ c.blocks, b.name = block))

instance : Decidable (c.HasLink block link) :=
  inferInstanceAs (Decidable (∃ b ∈ c.blocks, b.name = block ∧
    ∃ f ∈ b.fields, f.name = link ∧ f.kind = .link))

/-- What is wrong with names that are not those of a block and a link.  The name of the block is
looked at first, then that of the field, and the kind of the field comes last. -/
inductive StepFault (c : Catalog) (block link : String) : LayoutError → Prop where
  | unknownBlock (habsent : ¬c.HasBlock block) : StepFault c block link (.unknownBlock block)
  | unknownField {b : Block} (hb : b ∈ c.blocks) (hname : b.name = block)
      (habsent : ∀ f ∈ b.fields, f.name ≠ link) : StepFault c block link (.unknownField block link)
  | notALink {b : Block} {f : Field} (hb : b ∈ c.blocks) (hname : b.name = block)
      (hf : f ∈ b.fields) (hlink : f.name = link) (hkind : f.kind ≠ .link) :
      StepFault c block link (.notALink block link)

/-- A step out of the block and by the link of these names.  The link is as wide as an address and
ends inside the block, the sum being exact. -/
structure StepOf (c : Catalog) (names : String × String) (s : Step) : Prop where
  block_mem : s.block ∈ c.blocks
  block_name : s.block.name = names.1
  link_mem : s.link ∈ s.block.fields
  link_name : s.link.name = names.2
  kind : s.link.kind = .link
  width : s.link.width = 4 ∨ s.link.width = 8
  stop : s.link.offset.toNat + s.link.width.toNat ≤ s.block.size.toNat

theorem exists_block_iff : (∃ b, c.block name = .ok b) ↔ c.HasBlock name := by
  simp only [block_eq_ok_iff, HasBlock]

theorem block_eq_error_iff :
    c.block name = .error e ↔ e = .unknownBlock name ∧ ¬c.HasBlock name := by
  have hnone : c.blocks.find? (fun b => b.name == name) = none ↔ ¬c.HasBlock name := by
    simp [HasBlock]
  rw [← hnone, Catalog.block, block?]
  cases c.blocks.find? fun b => b.name == name <;> simp [eq_comm]

/-! ## Section 2: Steps -/

theorem stepOf_of_step (h : c.step block link = .ok s) : c.StepOf (block, link) s := by
  obtain ⟨hblock, hfield, hkind⟩ := step_eq_ok_iff.1 h
  obtain ⟨hb, hname⟩ := block_eq_ok_iff.1 hblock
  have hsound := c.sound hb
  obtain ⟨hf, hlink⟩ := (Block.field_eq_ok_iff hsound.distinct).1 hfield
  -- what the check of the catalog has found of the field holds of the copy in the step
  obtain ⟨-, hstop, hwidth⟩ := Block.admits_iff.1 (hsound.admitted s.link hf)
  exact ⟨hb, hname, hf, hlink, hkind, hwidth hkind, hstop⟩

/-- A step can be taken exactly if its names are those of a block and of a link in it. -/
theorem exists_step_iff : (∃ s, c.step block link = .ok s) ↔ c.HasLink block link := by
  constructor
  · rintro ⟨s, hs⟩
    have h := stepOf_of_step hs
    exact ⟨s.block, h.block_mem, h.block_name, s.link, h.link_mem, h.link_name, h.kind⟩
  · rintro ⟨b, hb, hname, f, hf, hlink, hkind⟩
    have hfield := (Block.field_eq_ok_iff (c.sound hb).distinct).2 ⟨hf, hlink⟩
    exact ⟨⟨b, f⟩, step_eq_ok_iff.2 ⟨block_eq_ok_iff.2 ⟨hb, hname⟩, hfield, hkind⟩⟩

/-- Otherwise the step is refused for what is wrong with its names. -/
theorem step_eq_error_iff : c.step block link = .error e ↔ c.StepFault block link e := by
  rw [step, bind_eq_error_iff, block_eq_error_iff]
  constructor
  -- three checks, each made after those before it have succeeded
  · rintro (⟨rfl, habsent⟩ | ⟨b, hblock, h⟩)
    · exact .unknownBlock habsent
    obtain ⟨hb, rfl⟩ := block_eq_ok_iff.1 hblock
    rw [bind_eq_error_iff, Block.field_eq_error_iff] at h
    rcases h with ⟨rfl, habsent⟩ | ⟨f, hfield, h⟩
    · exact .unknownField hb rfl habsent
    obtain ⟨hf, rfl⟩ := (Block.field_eq_ok_iff (c.sound hb).distinct).1 hfield
    split_ifs at h with hkind
    · cases h
    · cases h
      exact .notALink hb rfl hf rfl hkind
  · intro hfault
    cases hfault with
    | unknownBlock habsent => exact Or.inl ⟨rfl, habsent⟩
    | unknownField hb hname habsent =>
      refine Or.inr ⟨_, block_eq_ok_iff.2 ⟨hb, hname⟩, bind_eq_error_iff.2 (Or.inl ?_)⟩
      exact Block.field_eq_error_iff.2 ⟨by rw [hname], habsent⟩
    | notALink hb hname hf hlink hkind =>
      refine Or.inr ⟨_, block_eq_ok_iff.2 ⟨hb, hname⟩, bind_eq_error_iff.2 (Or.inr ?_)⟩
      exact ⟨_, (Block.field_eq_ok_iff (c.sound hb).distinct).2 ⟨hf, hlink⟩, if_neg hkind⟩

/-! ## Section 3: Paths -/

theorem exists_path_iff : (∃ path, c.path name links terminal = .ok path) ↔
    links ≠ [] ∧ (∀ l ∈ links, c.HasLink l.1 l.2) ∧ c.HasBlock terminal := by
  simp only [← exists_step_iff, ← exists_block_iff, path_eq_ok_iff, ← mapM_eq_ok_iff]
  rw [← exists_mapM_iff (f := fun l : String × String => c.step l.1 l.2)]
  constructor
  · rintro ⟨path, hlinks, -, hsteps, hterminal⟩
    exact ⟨hlinks, ⟨_, hsteps⟩, _, hterminal⟩
  · rintro ⟨hlinks, ⟨steps, hsteps⟩, b, hterminal⟩
    exact ⟨⟨name, steps, b⟩, hlinks, rfl, hsteps, hterminal⟩

/-- A path without steps is refused for that.  Any other path is refused for its first bad step, or
for the block at its end if all its steps are good. -/
theorem path_eq_error_iff : c.path name links terminal = .error e ↔
    (links = [] ∧ e = .emptyPath name) ∨
    (∃ before l after, links = before ++ l :: after ∧ (∀ l' ∈ before, c.HasLink l'.1 l'.2) ∧
      c.StepFault l.1 l.2 e) ∨
    (links ≠ [] ∧ (∀ l ∈ links, c.HasLink l.1 l.2) ∧ ¬c.HasBlock terminal ∧
      e = .unknownBlock terminal) := by
  rw [Catalog.path]
  cases links with
  | nil => simp [bind, Except.bind, throw, throwThe, MonadExceptOf.throw, eq_comm]
  | cons l rest =>
    rw [if_neg (by simp)]
    -- with a link at hand, it is the steps that can fail first and the terminal after them
    show ((l :: rest).mapM fun l => c.step l.1 l.2) >>= _ = .error e ↔ _
    rw [bind_eq_error_iff, mapM_eq_error_iff]
    simp only [exists_step_iff, step_eq_error_iff]
    constructor
    · rintro (hstep | ⟨steps, hsteps, h⟩)
      · exact Or.inr (Or.inl hstep)
      · have hgood := exists_mapM_iff.1 ⟨steps, hsteps⟩
        simp only [exists_step_iff] at hgood
        rcases bind_eq_error_iff.1 h with hterminal | ⟨_, -, h⟩
        · obtain ⟨rfl, habsent⟩ := block_eq_error_iff.1 hterminal
          exact Or.inr (Or.inr ⟨by simp, hgood, habsent, rfl⟩)
        · cases h
    · rintro (⟨h, -⟩ | hstep | ⟨-, hgood, habsent, rfl⟩)
      · cases h
      · exact Or.inl hstep
      · simp only [← exists_step_iff] at hgood
        obtain ⟨steps, hsteps⟩ := exists_mapM_iff.2 hgood
        have hterminal := block_eq_error_iff.2 ⟨rfl, habsent⟩
        exact Or.inr ⟨steps, hsteps, bind_eq_error_iff.2 (Or.inl hterminal)⟩

theorem steps_of_path (h : c.path name links terminal = .ok path) :
    List.Forall₂ c.StepOf links path.steps := by
  obtain ⟨-, -, hsteps, -⟩ := path_eq_ok_iff.1 h
  exact hsteps.imp fun _ _ hstep => stepOf_of_step hstep

theorem head?_steps_of_path (h : c.path name links terminal = .ok path) :
    path.steps.head?.map Step.block = some path.root := by
  obtain ⟨s, rest, hsteps⟩ := List.exists_cons_of_ne_nil (steps_ne_nil_of_path h)
  rw [Path.root, hsteps]
  rfl

/-- Paths by name.  A path is made exactly if it has a step, if every step names a block of the
catalog and a link that is a field of that block, and if its end names a block of the catalog.  It
then has one step for each pair of names, in order, and it starts at the block of the first step and
ends at the block named last.  Its links are four or eight bytes wide and end inside their blocks.
If a path is not made, what is wrong is that it has no steps, or else what is wrong with the first
bad step, and the block at its end is unknown only where all steps are good. -/
theorem path_construction (c : Catalog) (name : String) (links : List (String × String))
    (terminal : String) :
    ((∃ path, c.path name links terminal = .ok path) ↔
      links ≠ [] ∧ (∀ l ∈ links, c.HasLink l.1 l.2) ∧ c.HasBlock terminal) ∧
    (∀ path, c.path name links terminal = .ok path →
      path.name = name ∧ List.Forall₂ c.StepOf links path.steps ∧
      path.steps.head?.map Step.block = some path.root ∧
      path.terminal ∈ c.blocks ∧ path.terminal.name = terminal) ∧
    ∀ e, c.path name links terminal = .error e ↔
      (links = [] ∧ e = .emptyPath name) ∨
      (∃ before l after, links = before ++ l :: after ∧ (∀ l' ∈ before, c.HasLink l'.1 l'.2) ∧
        c.StepFault l.1 l.2 e) ∨
      (links ≠ [] ∧ (∀ l ∈ links, c.HasLink l.1 l.2) ∧ ¬c.HasBlock terminal ∧
        e = .unknownBlock terminal) := by
  refine ⟨exists_path_iff, fun path h => ?_, fun e => path_eq_error_iff⟩
  obtain ⟨-, hname, -, hterminal⟩ := path_eq_ok_iff.1 h
  exact ⟨hname, steps_of_path h, head?_steps_of_path h, block_eq_ok_iff.1 hterminal⟩

/-- The way to the initialization parameter area is made.  Of three bad steps and a bad end, the
first step is named: what it asks for is there but is text. -/
theorem path_construction_zos :
    (∃ path, (Zos.catalog .ebcdic).path "ipa" [("PSA", "PSACVT"), ("CVT", "CVTECVT"),
        ("ECVT", "ECVTIPA")] "IPA" = .ok path ∧
      path.root.name = "PSA" ∧ path.terminal.name = "IPA" ∧ path.steps.length = 3) ∧
    (Zos.catalog .ebcdic).path "odd" [("PSA", "PSACVT"), ("IPA", "IPALOADS"), ("CVT", "CVTX"),
      ("XYZ", "PSACVT")] "NOPE" = .error (.notALink "IPA" "IPALOADS") := by
  constructor
  · obtain ⟨hmakes, hmade, -⟩ := path_construction (Zos.catalog .ebcdic) "ipa"
      [("PSA", "PSACVT"), ("CVT", "CVTECVT"), ("ECVT", "ECVTIPA")] "IPA"
    obtain ⟨path, hpath⟩ := hmakes.2 ⟨by decide, by decide +kernel, by decide +kernel⟩
    obtain ⟨-, hsteps, hroot, -, hterminal⟩ := hmade path hpath
    refine ⟨path, hpath, ?_, hterminal, hsteps.length_eq.symm⟩
    obtain ⟨s, rest, hfirst, -, hcons⟩ := List.forall₂_cons_left_iff.1 hsteps
    rw [hcons, List.head?_cons, Option.map_some, Option.some.injEq] at hroot
    rw [← hroot, hfirst.block_name]
  · obtain ⟨-, -, hfails⟩ := path_construction (Zos.catalog .ebcdic) "odd" [("PSA", "PSACVT"),
      ("IPA", "IPALOADS"), ("CVT", "CVTX"), ("XYZ", "PSACVT")] "NOPE"
    refine (hfails _).2 (Or.inr (Or.inl ⟨[("PSA", "PSACVT")], ("IPA", "IPALOADS"), _, rfl,
      by decide +kernel, ?_⟩))
    -- the field of the second step exists, so its name is known, but it is text
    have hipa : Zos.ipa .ebcdic ∈ (Zos.catalog .ebcdic).blocks := by decide +kernel
    have htext : ⟨"IPALOADS", 20, 2, .text .ebcdic⟩ ∈ (Zos.ipa .ebcdic).fields := by decide +kernel
    exact .notALink hipa rfl htext rfl (by decide)

end Catalog

end IplReport
