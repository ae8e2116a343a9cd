import IplReport.Proofs.Lookup
import IplReport.Text.Numeral
import Mathlib.Algebra.Group.Nat.Defs
import Mathlib.Data.List.Induction
import Mathlib.Tactic.SplitIfs

/-!
# Texts of addresses

An address on a command line is written in decimal or, after a mark, in hexadecimal.  Here it is
said which texts write which number, digits being added at the end one by one.  A reader goes from
the left and has to stop before the number gets too large; it finds the same numbers.

Main statements:
- `readDigits_eq_ok_iff` and `readDigits_eq_tooLarge_iff`: which digits are read, and which are not;
- `readAddress_outcome`: which texts are addresses, and that every address is read back from the
  ways of writing it.
-/

namespace IplReport

/-! ## Section 1: Texts that write a number -/

/-- In a base of sixteen at most, `c` is the digit of value `d`.  Letters may be of either case. -/
def IsDigit (base : Nat) (c : Char) (d : Nat) : Prop :=
  d < base ∧ (c = d.digitChar ∨ c = d.digitChar.toUpper)

/-- Digits, any number of them, and the number that they write. -/
inductive Digits (base : Nat) : List Char → Nat → Prop where
  | nil : Digits base [] 0
  | concat {cs : List Char} {c : Char} {n d : Nat} : Digits base cs n → IsDigit base c d →
      Digits base (cs ++ [c]) (n * base + d)

/-- One or more digits, which may have a plus sign before them. -/
inductive Unsigned (base : Nat) : List Char → Nat → Prop where
  | plain {cs : List Char} {n : Nat} : cs ≠ [] → Digits base cs n → Unsigned base cs n
  | plus {cs : List Char} {n : Nat} : cs ≠ [] → Digits base cs n → Unsigned base ('+' :: cs) n

/-- What an address is written like.  Nothing is said here of how large its number may be. -/
inductive AddressText : List Char → Nat → Prop where
  | decimal {cs : List Char} {n : Nat} : Unsigned 10 cs n → AddressText cs n
  | lowerMark {cs : List Char} {n : Nat} : Unsigned 16 cs n → AddressText ('0' :: 'x' :: cs) n
  | upperMark {cs : List Char} {n : Nat} : Unsigned 16 cs n → AddressText ('0' :: 'X' :: cs) n

/-- The characters begin with a text that writes a number of more than 64 bits. -/
def BeginsTooLarge (Writes : List Char → Nat → Prop) (cs : List Char) : Prop :=
  ∃ before n, before <+: cs ∧ Writes before n ∧ 2 ^ 64 ≤ n

variable {base acc m n d : Nat} {c : Char} {cs ds : List Char}

theorem Digits.isDigit (h : Digits base cs n) : ∀ c ∈ cs, ∃ d, IsDigit base c d := by
  induction h with
  | nil => simp
  | concat _ hc ih => exact List.forall_mem_append.2 ⟨ih, by simpa using ⟨_, hc⟩⟩

/-- The plus sign, the marks and other signs are no digits. -/
theorem IsDigit.mem (hbase : base ≤ 16) (h : IsDigit base c d) :
    c ∈ "0123456789abcdefABCDEF".toList := by
  have hall : ∀ d < 16, d.digitChar ∈ "0123456789abcdefABCDEF".toList ∧
      d.digitChar.toUpper ∈ "0123456789abcdefABCDEF".toList := by decide
  obtain ⟨hd, rfl | rfl⟩ := h
  · exact (hall d (by omega)).1
  · exact (hall d (by omega)).2

/-- The digits of a number write it. -/
theorem digits_toDigits (hbase : 1 < base) (n : Nat) : Digits base (Nat.toDigits base n) n := by
  induction n using Nat.strongRecOn with
  | _ n ih =>
    -- the last digit is the remainder, and those before it write the quotient
    have hlast : IsDigit base (n % base).digitChar (n % base) :=
      ⟨Nat.mod_lt _ (by omega), Or.inl rfl⟩
    rw [Nat.toDigits_eq_if hbase]
    split_ifs with hn
    · rw [Nat.mod_eq_of_lt hn] at hlast
      simpa using Digits.nil.concat hlast
    · have hrest : Digits base (Nat.toDigits base (n / base)) (n / base) :=
        ih _ (Nat.div_lt_self (by omega) hbase)
      have hvalue : n / base * base + n % base = n := Nat.div_add_mod' n base
      simpa only [hvalue] using hrest.concat hlast

/-! ## Section 2: Reading digits -/

/-- A character is given the value of the digit that it is. -/
theorem digitValue?_eq_some_iff (hbase : base ≤ 16) :
    digitValue? base c = some d ↔ IsDigit base c d := by
  have hlower : ∀ d < 16, d.digitChar.toNat = if d < 10 then 48 + d else 87 + d := by decide
  have hupper : ∀ d < 16, d.digitChar.toUpper.toNat = if d < 10 then 48 + d else 55 + d := by
    decide
  have hdecimal : c.isDigit = true ↔ 48 ≤ c.toNat ∧ c.toNat ≤ 57 := Char.isDigit_iff_toNat
  have hsmall : 'a' ≤ c ∧ c ≤ 'z' ↔ 97 ≤ c.toNat ∧ c.toNat ≤ 122 := Iff.rfl
  have hcapital : 'A' ≤ c ∧ c ≤ 'Z' ↔ 65 ≤ c.toNat ∧ c.toNat ≤ 90 := Iff.rfl
  unfold digitValue? IsDigit
  simp only [Option.filter_eq_some_iff, decide_eq_true_eq, ← Char.toNat_inj]
  rw [and_comm, and_congr_right_iff]
  intro hd
  rw [hlower d (by omega), hupper d (by omega)]
  -- digits, small letters and capitals stand together, each of them in the order of their values
  simp only [hdecimal, hsmall, hcapital]
  split_ifs <;> simp <;> omega

/-- The first character is read before the others, and has to be a digit with room for it. -/
theorem readDigits_cons (base acc : Nat) (c : Char) (cs : List Char) :
    readDigits base acc (c :: cs) = match digitValue? base c with
      | none => .error .invalidDigit
      | some d =>
        if acc * base + d < 2 ^ 64 then readDigits base (acc * base + d) cs
        else .error .tooLarge := rfl

theorem readDigits_append :
    readDigits base acc (cs ++ ds) = readDigits base acc cs >>= fun m => readDigits base m ds := by
  induction cs generalizing acc with
  | nil => rfl
  | cons c rest ih =>
    rw [List.cons_append, readDigits_cons, readDigits_cons]
    split
    · rfl
    · split_ifs
      · exact ih
      · rfl

/-- A single digit is read if the number with it fits. -/
theorem readDigits_singleton (hbase : base ≤ 16) (hc : IsDigit base c d) :
    readDigits base acc [c] =
      if acc * base + d < 2 ^ 64 then .ok (acc * base + d) else .error .tooLarge := by
  rw [readDigits_cons, (digitValue?_eq_some_iff hbase).2 hc]
  rfl

theorem isDigit_or_readDigits_singleton (hbase : base ≤ 16) (acc : Nat) (c : Char) :
    (∃ d, IsDigit base c d) ∨ readDigits base acc [c] = .error .invalidDigit := by
  cases hc : digitValue? base c with
  | none => exact Or.inr (by rw [readDigits_cons, hc])
  | some d => exact Or.inl ⟨d, (digitValue?_eq_some_iff hbase).1 hc⟩

/-- Characters are read as a number exactly if they are digits that write it, and it fits. -/
theorem readDigits_eq_ok_iff (hbase : base ≤ 16) :
    readDigits base 0 cs = .ok n ↔ Digits base cs n ∧ n < 2 ^ 64 := by
  constructor
  · intro h
    induction cs using List.reverseRecOn generalizing n with
    | nil =>
      cases h
      exact ⟨.nil, by decide⟩
    | append_singleton cs c ih =>
      obtain ⟨m, hm, hlast⟩ := bind_eq_ok_iff.1 (readDigits_append ▸ h)
      rcases isDigit_or_readDigits_singleton hbase m c with ⟨d, hc⟩ | hc
      · rw [readDigits_singleton hbase hc] at hlast
        split_ifs at hlast with hfits
        cases hlast
        exact ⟨(ih hm).1.concat hc, hfits⟩
      · rw [hc] at hlast
        cases hlast
  · rintro ⟨hdigits, hn⟩
    induction hdigits with
    | nil => rfl
    | @concat cs c m d _ hc ih =>
      -- the number before the last digit is not larger
      have hm : m ≤ m * base := Nat.le_mul_of_pos_right m (Nat.zero_lt_of_lt hc.1)
      rw [readDigits_append, ih (by omega)]
      show readDigits base m [c] = _
      rw [readDigits_singleton hbase hc, if_pos hn]

/-- A number is too large exactly if the characters begin with digits that write such a number;
what comes after these is not looked at. -/
theorem readDigits_eq_tooLarge_iff (hbase : base ≤ 16) :
    readDigits base 0 cs = .error .tooLarge ↔ BeginsTooLarge (Digits base) cs := by
  constructor
  · intro h
    induction cs using List.reverseRecOn with
    | nil => cases h
    | append_singleton cs c ih =>
      rcases bind_eq_error_iff.1 (readDigits_append ▸ h) with hbefore | ⟨m, hm, hlast⟩
      · obtain ⟨before, n, hprefix, hdigits, hn⟩ := ih hbefore
        exact ⟨before, n, hprefix.trans (List.prefix_append cs [c]), hdigits, hn⟩
      · rcases isDigit_or_readDigits_singleton hbase m c with ⟨d, hc⟩ | hc
        · rw [readDigits_singleton hbase hc] at hlast
          split_ifs at hlast with hfits
          have hdigits := ((readDigits_eq_ok_iff hbase).1 hm).1.concat hc
          exact ⟨_, _, List.prefix_rfl, hdigits, Nat.le_of_not_lt hfits⟩
        · rw [hc] at hlast
          cases hlast
  · rintro ⟨before, n, ⟨after, rfl⟩, hdigits, hn⟩
    have hbefore : readDigits base 0 before = .error .tooLarge := by
      induction hdigits with
      | nil => simp at hn
      | @concat cs c m d hcs hc ih =>
        rw [readDigits_append]
        -- the number may be too large before the last digit already
        by_cases hm : m < 2 ^ 64
        · rw [(readDigits_eq_ok_iff hbase).2 ⟨hcs, hm⟩]
          show readDigits base m [c] = _
          rw [readDigits_singleton hbase hc, if_neg (Nat.not_lt.2 hn)]
        · rw [ih (Nat.le_of_not_lt hm)]
          rfl
    rw [readDigits_append, hbefore]
    rfl

/-! ## Section 3: Reading unsigned numbers -/

theorem Unsigned.mem (h : Unsigned base cs n) : ∀ c ∈ cs, c = '+' ∨ ∃ d, IsDigit base c d := by
  cases h with
  | plain _ hdigits => exact fun c hc => Or.inr (hdigits.isDigit c hc)
  | plus _ hdigits =>
    intro c hc
    rcases List.mem_cons.1 hc with rfl | hc
    · exact Or.inl rfl
    · exact Or.inr (hdigits.isDigit c hc)

/-- A plus sign belongs to no digits, so what it stands before are the digits. -/
theorem unsigned_plus_iff (hbase : base ≤ 16) :
    Unsigned base ('+' :: cs) n ↔ cs ≠ [] ∧ Digits base cs n := by
  constructor
  · intro h
    cases h with
    | plain _ hdigits =>
      obtain ⟨d, hplus⟩ := hdigits.isDigit '+' List.mem_cons_self
      exact absurd (hplus.mem hbase) (by decide)
    | plus hne hdigits => exact ⟨hne, hdigits⟩
  · exact fun ⟨hne, hdigits⟩ => .plus hne hdigits

theorem unsigned_iff_of_not_plus (hplus : ∀ ds, cs ≠ '+' :: ds) :
    Unsigned base cs n ↔ cs ≠ [] ∧ Digits base cs n := by
  constructor
  · intro h
    cases h with
    | plain hne hdigits => exact ⟨hne, hdigits⟩
    | plus => exact absurd rfl (hplus _)
  · exact fun ⟨hne, hdigits⟩ => .plain hne hdigits

theorem readUnsigned_eq_ok_iff (hbase : base ≤ 16) :
    readUnsigned base cs = .ok n ↔ Unsigned base cs n ∧ n < 2 ^ 64 := by
  unfold readUnsigned
  split
  case h_1 => simp [unsigned_iff_of_not_plus]
  case h_2 => simp [unsigned_plus_iff hbase]
  case h_3 digits hne =>
    have hne : digits ≠ [] := hne
    rw [readDigits_eq_ok_iff hbase, unsigned_plus_iff hbase]
    simp [hne]
  case h_4 hne _ hplus =>
    have hne : cs ≠ [] := hne
    rw [readDigits_eq_ok_iff hbase, unsigned_iff_of_not_plus hplus]
    simp [hne]

theorem Digits.ne_nil_of_le (h : Digits base cs n) (hn : 2 ^ 64 ≤ n) : cs ≠ [] := by
  rintro rfl
  generalize hcs : ([] : List Char) = cs at h
  cases h with
  | nil => simp at hn
  | concat => simp at hcs

theorem beginsTooLarge_plus_iff (hbase : base ≤ 16) :
    BeginsTooLarge (Unsigned base) ('+' :: cs) ↔ BeginsTooLarge (Digits base) cs := by
  constructor
  · rintro ⟨before, n, hprefix, hnumber, hn⟩
    rcases List.prefix_cons_iff.1 hprefix with rfl | ⟨digits, rfl, hdigits⟩
    · simp [unsigned_iff_of_not_plus] at hnumber
    · exact ⟨digits, n, hdigits, ((unsigned_plus_iff hbase).1 hnumber).2, hn⟩
  · rintro ⟨digits, n, hprefix, hdigits, hn⟩
    exact ⟨'+' :: digits, n, (List.prefix_cons_inj '+').2 hprefix,
      .plus (hdigits.ne_nil_of_le hn) hdigits, hn⟩

theorem beginsTooLarge_iff_of_not_plus (hplus : ∀ ds, cs ≠ '+' :: ds) :
    BeginsTooLarge (Unsigned base) cs ↔ BeginsTooLarge (Digits base) cs := by
  constructor
  · rintro ⟨before, n, hprefix, hnumber, hn⟩
    cases hnumber with
    | plain _ hdigits => exact ⟨before, n, hprefix, hdigits, hn⟩
    | plus =>
      obtain ⟨after, rfl⟩ := hprefix
      exact absurd rfl (hplus _)
  · rintro ⟨digits, n, hprefix, hdigits, hn⟩
    exact ⟨digits, n, hprefix, .plain (hdigits.ne_nil_of_le hn) hdigits, hn⟩

theorem readUnsigned_eq_tooLarge_iff (hbase : base ≤ 16) :
    readUnsigned base cs = .error .tooLarge ↔ BeginsTooLarge (Unsigned base) cs := by
  -- with no digits, or a plus sign alone, there is no number that is too large
  have hnil : ¬BeginsTooLarge (Digits base) [] := by
    rw [← readDigits_eq_tooLarge_iff hbase]
    exact fun h => by cases h
  unfold readUnsigned
  split
  case h_1 => simp [beginsTooLarge_iff_of_not_plus, hnil]
  case h_2 => simp [beginsTooLarge_plus_iff hbase, hnil]
  case h_3 digits hne =>
    rw [readDigits_eq_tooLarge_iff hbase, beginsTooLarge_plus_iff hbase]
  case h_4 hne _ hplus =>
    rw [readDigits_eq_tooLarge_iff hbase, beginsTooLarge_iff_of_not_plus hplus]

theorem readDigits_ne_empty : readDigits base acc cs ≠ .error .empty := by
  induction cs generalizing acc with
  | nil => exact fun h => by cases h
  | cons c rest ih =>
    rw [readDigits_cons]
    split
    · simp
    · split_ifs
      · exact ih
      · simp

theorem readUnsigned_eq_empty_iff : readUnsigned base cs = .error .empty ↔ cs = [] := by
  unfold readUnsigned
  split <;> simp_all [readDigits_ne_empty]

/-! ## Section 4: Reading addresses -/

/-- The base of an address, and what there is after its mark if it has one. -/
def radix : List Char → Nat × List Char
  | '0' :: 'x' :: cs => (16, cs)
  | '0' :: 'X' :: cs => (16, cs)
  | cs => (10, cs)

theorem radix_le (cs : List Char) : (radix cs).1 ≤ 16 := by
  unfold radix
  split <;> simp

theorem readAddress_eq (text : String) :
    readAddress text =
      (readUnsigned (radix text.toList).1 (radix text.toList).2).map UInt64.ofNat := by
  unfold readAddress
  generalize text.toList = cs
  fun_cases radix cs <;> simp_all

/-- Where there is a mark, there is no decimal number but the zero before it. -/
theorem not_beginsTooLarge_of_mark (hc : c = 'x' ∨ c = 'X') :
    ¬BeginsTooLarge (Unsigned 10) ('0' :: c :: cs) := by
  rw [← readUnsigned_eq_tooLarge_iff (by decide)]
  rcases hc with rfl | rfl <;> exact fun h => by cases h

theorem not_unsigned_of_mark (hc : c = 'x' ∨ c = 'X') : ¬Unsigned 10 ('0' :: c :: cs) n := by
  intro h
  by_cases hn : n < 2 ^ 64
  · have hread := (readUnsigned_eq_ok_iff (by decide)).2 ⟨h, hn⟩
    rcases hc with rfl | rfl <;> cases hread
  · exact not_beginsTooLarge_of_mark hc ⟨_, n, List.prefix_rfl, h, Nat.le_of_not_lt hn⟩

theorem addressText_iff : AddressText cs n ↔ Unsigned (radix cs).1 (radix cs).2 n := by
  constructor
  · intro h
    -- a decimal number has no mark, so it is read as one
    cases h with
    | decimal h =>
      fun_cases radix cs with
      | case1 cs => exact absurd h (not_unsigned_of_mark (Or.inl rfl))
      | case2 cs => exact absurd h (not_unsigned_of_mark (Or.inr rfl))
      | case3 => exact h
    | lowerMark h => exact h
    | upperMark h => exact h
  · fun_cases radix cs with
    | case1 cs => exact .lowerMark
    | case2 cs => exact .upperMark
    | case3 => exact .decimal

theorem beginsTooLarge_address_iff :
    BeginsTooLarge AddressText cs ↔ BeginsTooLarge (Unsigned (radix cs).1) (radix cs).2 := by
  constructor
  · rintro ⟨before, n, hprefix, hbefore, hn⟩
    cases hbefore with
    | decimal h =>
      -- a mark comes second and would end a decimal number that is still small
      have hbegins : BeginsTooLarge (Unsigned 10) cs := ⟨before, n, hprefix, h, hn⟩
      fun_cases radix cs with
      | case1 cs => exact absurd hbegins (not_beginsTooLarge_of_mark (Or.inl rfl))
      | case2 cs => exact absurd hbegins (not_beginsTooLarge_of_mark (Or.inr rfl))
      | case3 => exact hbegins
    | lowerMark h =>
      obtain ⟨after, rfl⟩ := hprefix
      exact ⟨_, n, List.prefix_append _ after, h, hn⟩
    | upperMark h =>
      obtain ⟨after, rfl⟩ := hprefix
      exact ⟨_, n, List.prefix_append _ after, h, hn⟩
  · fun_cases radix cs with
    | case1 cs =>
      rintro ⟨before, n, ⟨after, rfl⟩, hbefore, hn⟩
      exact ⟨_, n, List.prefix_append ('0' :: 'x' :: before) after, .lowerMark hbefore, hn⟩
    | case2 cs =>
      rintro ⟨before, n, ⟨after, rfl⟩, hbefore, hn⟩
      exact ⟨_, n, List.prefix_append ('0' :: 'X' :: before) after, .upperMark hbefore, hn⟩
    | case3 =>
      rintro ⟨before, n, hprefix, hbefore, hn⟩
      exact ⟨before, n, hprefix, .decimal hbefore, hn⟩

section Addresses

variable {text : String} {address : UInt64}

theorem readAddress_eq_ok_iff :
    readAddress text = .ok address ↔ AddressText text.toList address.toNat := by
  have hread : ∀ n, readUnsigned (radix text.toList).1 (radix text.toList).2 = .ok n ↔
      AddressText text.toList n ∧ n < 2 ^ 64 := by
    intro n
    rw [readUnsigned_eq_ok_iff (radix_le _), addressText_iff]
  rw [readAddress_eq]
  constructor
  · intro h
    cases hnumber : readUnsigned (radix text.toList).1 (radix text.toList).2 with
    | error e =>
      rw [hnumber] at h
      cases h
    | ok n =>
      rw [hnumber] at h
      cases h
      obtain ⟨htext, hn⟩ := (hread n).1 hnumber
      rwa [UInt64.toNat_ofNat_of_lt' hn]
  · intro h
    rw [(hread _).2 ⟨h, address.toNat_lt⟩]
    simp [Except.map]

theorem readAddress_eq_error_iff {e : NumeralError} :
    readAddress text = .error e ↔
      readUnsigned (radix text.toList).1 (radix text.toList).2 = .error e := by
  rw [readAddress_eq]
  cases readUnsigned (radix text.toList).1 (radix text.toList).2 <;> simp [Except.map]

theorem exists_readAddress_error_iff :
    (∃ e, readAddress text = .error e) ↔ ∀ n, AddressText text.toList n → 2 ^ 64 ≤ n := by
  constructor
  · rintro ⟨e, he⟩ n htext
    by_contra hn
    have hn : n < 2 ^ 64 := Nat.lt_of_not_le hn
    have hok : readAddress text = .ok (UInt64.ofNat n) := by
      rwa [readAddress_eq_ok_iff, UInt64.toNat_ofNat_of_lt' hn]
    rw [he] at hok
    cases hok
  · intro h
    cases hread : readAddress text with
    | error e => exact ⟨e, rfl⟩
    | ok address =>
      have := h _ (readAddress_eq_ok_iff.1 hread)
      have := address.toNat_lt
      omega

/-- After the mark of an address there are no signs but a plus sign, and no second mark. -/
theorem AddressText.mem (h : AddressText cs n) :
    ∀ c ∈ (radix cs).2, c ∈ "0123456789abcdefABCDEF+".toList := by
  intro c hc
  rcases (addressText_iff.1 h).mem c hc with rfl | ⟨d, hd⟩
  · decide
  · exact List.mem_append_left ['+'] (hd.mem (radix_le cs))

theorem readAddress_eq_empty_iff :
    readAddress text = .error .empty ↔ text = "" ∨ text = "0x" ∨ text = "0X" := by
  rw [readAddress_eq_error_iff, readUnsigned_eq_empty_iff]
  simp only [← String.toList_inj]
  generalize text.toList = cs
  fun_cases radix cs with
  | case1 cs => simp
  | case2 cs => simp
  | case3 _ hlower hupper =>
    refine ⟨Or.inl, ?_⟩
    rintro (h | h | h)
    · exact h
    · exact absurd h (hlower [])
    · exact absurd h (hupper [])

/-- An address is read back from its decimal digits. -/
theorem readAddress_toString (address : UInt64) :
    readAddress (toString address.toNat) = .ok address := by
  rw [readAddress_eq_ok_iff, Nat.toString_eq_ofList_toDigits, String.toList_ofList]
  exact .decimal (.plain Nat.toDigits_ne_nil (digits_toDigits (by decide) _))

/-- An address is read back from its hexadecimal digits after the mark. -/
theorem readAddress_hexLower (address : UInt64) :
    readAddress (hexLower address.toNat) = .ok address := by
  have hmark : (hexLower address.toNat).toList = '0' :: 'x' :: Nat.toDigits 16 address.toNat := by
    simp [hexLower, hexDigits]
  rw [readAddress_eq_ok_iff, hmark]
  exact .lowerMark (.plain Nat.toDigits_ne_nil (digits_toDigits (by decide) _))

/-- Which texts are read as addresses.  There is an address exactly if the text writes its number,
in decimal or after a mark; all other texts are refused, those of numbers with more than 64 bits and
those with any other sign in them included.  Nothing is found where there is no digit and no sign,
and a number is too large if the text begins like one of more than 64 bits.  Every address is read
back from its decimal digits, and from its hexadecimal ones. -/
theorem readAddress_outcome :
    (∀ text : String,
      (∀ address, readAddress text = .ok address ↔ AddressText text.toList address.toNat) ∧
      ((∃ e, readAddress text = .error e) ↔ ∀ n, AddressText text.toList n → 2 ^ 64 ≤ n) ∧
      ((∃ c ∈ (radix text.toList).2, c ∉ "0123456789abcdefABCDEF+".toList) →
        ∃ e, readAddress text = .error e) ∧
      (readAddress text = .error .empty ↔ text = "" ∨ text = "0x" ∨ text = "0X") ∧
      (readAddress text = .error .tooLarge ↔ BeginsTooLarge AddressText text.toList)) ∧
    ∀ address : UInt64, readAddress (toString address.toNat) = .ok address ∧
      readAddress (hexLower address.toNat) = .ok address := by
  refine ⟨fun text => ⟨fun address => readAddress_eq_ok_iff, exists_readAddress_error_iff, ?_,
    readAddress_eq_empty_iff, ?_⟩,
    fun address => ⟨readAddress_toString address, readAddress_hexLower address⟩⟩
  -- such a text writes no number at all
  · rintro ⟨c, hc, hsign⟩
    exact exists_readAddress_error_iff.2 fun n htext => absurd (htext.mem c hc) hsign
  · rw [readAddress_eq_error_iff, readUnsigned_eq_tooLarge_iff (radix_le _),
      beginsTooLarge_address_iff]

/-- The highest address with capitals and zeros before it, the number after it, and a text with two
marks. -/
theorem readAddress_outcome_highest :
    AddressText "0X+00ffffFFFFffffFFFF".toList 0xffffffffffffffff ∧
      BeginsTooLarge AddressText "18446744073709551616".toList ∧
      ∃ e, readAddress "0x0X1" = .error e := by
  refine ⟨?_, ?_, ?_⟩
  · exact ((readAddress_outcome.1 _).1 0xffffffffffffffff).1 (by decide)
  · exact (readAddress_outcome.1 _).2.2.2.2.1 (by decide)
  · exact (readAddress_outcome.1 _).2.2.1 ⟨'X', by decide, by decide⟩

end Addresses

end IplReport
