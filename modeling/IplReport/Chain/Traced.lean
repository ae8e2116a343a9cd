import IplReport.Memory.AddressSpace

/-!
# Traced computations

A computation that reads an address space is kept together with the reads it attempted, so
that it can be said of a walk not only where it leads but also what it touched.
-/

namespace IplReport

/-! ## Section 1: Computations -/

/-- An attempted read: the address and the number of bytes. -/
abbrev Access := UInt64 × UInt64

/-- An outcome and the reads that were attempted on the way to it, in order. -/
structure Traced (ε α : Type) where
  /-- The reads, whether they succeeded or not. -/
  reads : List Access
  outcome : Except ε α

namespace Traced

variable {ε ε' α β : Type}

/-- An outcome for which nothing was read. -/
def ofExcept (outcome : Except ε α) : Traced ε α :=
  ⟨[], outcome⟩

/-- Goes on with the value of a computation that succeeded. -/
def bind (t : Traced ε α) (next : α → Traced ε β) : Traced ε β :=
  match t.outcome with
  | .error e => ⟨t.reads, .error e⟩
  | .ok a => ⟨t.reads ++ (next a).reads, (next a).outcome⟩

instance : Monad (Traced ε) where
  pure a := ⟨[], .ok a⟩
  bind := bind

/-- A single read, and the error it ends in where it is refused. -/
def read (space : AddressSpace) (address size : UInt64) (refused : ε) : Traced ε Bytes :=
  ⟨[(address, size)],
    match space.read address size with
    | some bytes => .ok bytes
    | none => .error refused⟩

/-- The same reads, with the error put into other terms. -/
def mapError (f : ε → ε') (t : Traced ε α) : Traced ε' α :=
  ⟨t.reads, t.outcome.mapError f⟩

/-! ## Section 2: Laws -/

@[simp] theorem reads_pure (a : α) : (pure a : Traced ε α).reads = [] := rfl

@[simp] theorem outcome_pure (a : α) : (pure a : Traced ε α).outcome = .ok a := rfl

@[simp] theorem ofExcept_ok (a : α) : (ofExcept (.ok a) : Traced ε α) = pure a := rfl

/-- An error ends a computation, whatever was to follow. -/
@[simp] theorem ofExcept_error_bind (e : ε) (next : α → Traced ε β) :
    (ofExcept (.error e) >>= next) = ofExcept (.error e) := rfl

/-- Reads come in the order in which computations follow each other. -/
theorem reads_bind_of_ok {t : Traced ε α} {a : α} (h : t.outcome = .ok a)
    (next : α → Traced ε β) : (t >>= next).reads = t.reads ++ (next a).reads := by
  change (Traced.bind t next).reads = _
  simp [Traced.bind, h]

/-- After success the outcome is that of what follows. -/
theorem outcome_bind (t : Traced ε α) (next : α → Traced ε β) :
    (t >>= next).outcome = t.outcome.bind fun a => (next a).outcome := by
  change (Traced.bind t next).outcome = _
  cases h : t.outcome <;> simp [Traced.bind, h, Except.bind]

@[simp] theorem outcome_ofExcept (outcome : Except ε α) :
    (ofExcept outcome).outcome = outcome := rfl

@[simp] theorem outcome_mapError (f : ε → ε') (t : Traced ε α) :
    (t.mapError f).outcome = t.outcome.mapError f := rfl

theorem mapError_ofExcept (f : ε → ε') (outcome : Except ε α) :
    (ofExcept outcome).mapError f = ofExcept (outcome.mapError f) := rfl

theorem mapError_read (f : ε → ε') (space : AddressSpace) (address size : UInt64) (refused : ε) :
    (read space address size refused).mapError f = read space address size (f refused) := by
  rw [read, read, mapError]
  cases space.read address size <;> rfl

theorem mapError_bind (f : ε → ε') (t : Traced ε α) (next : α → Traced ε β) :
    (t >>= next).mapError f = t.mapError f >>= fun a => (next a).mapError f := by
  change mapError f (Traced.bind t next) =
    Traced.bind (mapError f t) fun a => (next a).mapError f
  obtain ⟨reads, outcome⟩ := t
  cases outcome <;> rfl

instance : LawfulMonad (Traced ε) := LawfulMonad.mk' _
  (fun t => by
    change Traced.bind t _ = t
    obtain ⟨reads, outcome⟩ := t
    cases outcome <;> simp [Traced.bind])
  (fun a next => by
    change Traced.bind ⟨[], .ok a⟩ next = next a
    simp [Traced.bind])
  (fun t f g => by
    change Traced.bind (Traced.bind t f) g = Traced.bind t fun a => Traced.bind (f a) g
    obtain ⟨reads, outcome⟩ := t
    cases outcome with
    | error e => rfl
    | ok a =>
      cases h : (f a).outcome <;> simp [Traced.bind, h])

end Traced

end IplReport
