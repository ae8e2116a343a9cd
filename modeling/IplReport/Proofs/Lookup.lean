import Mathlib.Data.List.Forall2
import Mathlib.Data.List.Nodup
import Mathlib.Logic.Function.Basic

/-!
# Looking up by name

Blocks and fields are found by name, and a request that names several of them succeeds if every
single one of its lookups does.  These are the laws of both.
-/

namespace IplReport

/-! ## Section 1: Outcomes -/

section Outcomes

variable {ε α β : Type}

theorem pure_eq_ok_iff {a b : α} : (pure a : Except ε α) = .ok b ↔ b = a :=
  ⟨fun h => (Except.ok.inj h).symm, fun h => h ▸ rfl⟩

/-- A sequence succeeds exactly if its first part does and the rest succeeds with that value. -/
theorem bind_eq_ok_iff {x : Except ε α} {next : α → Except ε β} {b : β} :
    x >>= next = .ok b ↔ ∃ a, x = .ok a ∧ next a = .ok b := by
  cases x with
  | error e => exact iff_of_false (fun h => by cases h) (fun ⟨_, h, _⟩ => by cases h)
  | ok a => exact ⟨fun h => ⟨a, rfl, h⟩, fun ⟨_, ha, h⟩ => by cases ha; exact h⟩

/-- A sequence fails exactly if its first part does, or the rest does with its value. -/
theorem bind_eq_error_iff {x : Except ε α} {next : α → Except ε β} {e : ε} :
    x >>= next = .error e ↔ x = .error e ∨ ∃ a, x = .ok a ∧ next a = .error e := by
  cases x with
  | error e' => simp [bind, Except.bind]
  | ok a => simp [bind, Except.bind]

theorem mapError_eq_ok_iff {ε' : Type} {f : ε → ε'} {x : Except ε α} {a : α} :
    x.mapError f = .ok a ↔ x = .ok a := by
  cases x <;> simp [Except.mapError]

theorem mapError_eq_error_iff {ε' : Type} {f : ε → ε'} {x : Except ε α} {e' : ε'} :
    x.mapError f = .error e' ↔ ∃ e, x = .error e ∧ e' = f e := by
  cases x <;> simp [Except.mapError, eq_comm]

/-- If changes made in turn fail, one of them fails, whatever it was made to. -/
theorem exists_error_of_foldlM {f : β → α → Except ε β} {as : List α} {b : β} {e : ε}
    (h : as.foldlM f b = .error e) : ∃ a ∈ as, ∃ b, f b a = .error e := by
  induction as generalizing b with
  | nil => cases h
  | cons a rest ih =>
    rw [List.foldlM_cons, bind_eq_error_iff] at h
    rcases h with hfirst | ⟨b', -, hrest⟩
    · exact ⟨a, List.mem_cons_self, b, hfirst⟩
    · obtain ⟨a', ha', hfails⟩ := ih hrest
      exact ⟨a', List.mem_cons_of_mem _ ha', hfails⟩

/-- Requests made in turn succeed exactly if each of them does. -/
theorem mapM_eq_ok_iff {f : α → Except ε β} {as : List α} {bs : List β} :
    as.mapM f = .ok bs ↔ List.Forall₂ (fun a b => f a = .ok b) as bs := by
  induction as generalizing bs with
  | nil =>
    rw [List.mapM_nil, List.forall₂_nil_left_iff]
    exact ⟨fun h => by cases h; rfl, fun h => by rw [h]; rfl⟩
  | cons a rest ih =>
    rw [List.mapM_cons, List.forall₂_cons_left_iff, bind_eq_ok_iff]
    constructor
    · rintro ⟨b, hb, h⟩
      obtain ⟨bs', hbs', h⟩ := bind_eq_ok_iff.1 h
      cases h
      exact ⟨b, bs', hb, ih.1 hbs', rfl⟩
    · rintro ⟨b, bs', hb, hbs', rfl⟩
      exact ⟨b, hb, bind_eq_ok_iff.2 ⟨bs', ih.2 hbs', rfl⟩⟩

theorem exists_forall₂_iff {R : α → β → Prop} {as : List α} :
    (∃ bs, List.Forall₂ R as bs) ↔ ∀ a ∈ as, ∃ b, R a b := by
  induction as with
  | nil => simp
  | cons a rest ih =>
    rw [List.forall_mem_cons, ← ih]
    simp only [List.forall₂_cons_left_iff]
    constructor
    · rintro ⟨_, b, bs, hb, hbs, -⟩
      exact ⟨⟨b, hb⟩, bs, hbs⟩
    · rintro ⟨⟨b, hb⟩, bs, hbs⟩
      exact ⟨b :: bs, b, bs, hb, hbs, rfl⟩

/-- Requests made in turn all succeed exactly if each of them can. -/
theorem exists_mapM_iff {f : α → Except ε β} {as : List α} :
    (∃ bs, as.mapM f = .ok bs) ↔ ∀ a ∈ as, ∃ b, f a = .ok b := by
  simp only [mapM_eq_ok_iff]
  exact exists_forall₂_iff

/-- Requests made in turn fail as the first of them does that fails. -/
theorem mapM_eq_error_iff {f : α → Except ε β} {as : List α} {e : ε} :
    as.mapM f = .error e ↔ ∃ before a after, as = before ++ a :: after ∧
      (∀ x ∈ before, ∃ b, f x = .ok b) ∧ f a = .error e := by
  induction as with
  | nil => exact iff_of_false (fun h => by cases h) (by simp)
  | cons a rest ih =>
    rw [List.mapM_cons, bind_eq_error_iff]
    -- the first request fails, or it succeeds and one of the rest fails
    constructor
    · rintro (hfirst | ⟨b, hb, hrest⟩)
      · exact ⟨[], a, rest, rfl, by simp, hfirst⟩
      · have hrest : rest.mapM f = .error e :=
          (bind_eq_error_iff.1 hrest).resolve_right fun ⟨_, _, h⟩ => by cases h
        obtain ⟨before, a', after, rfl, hbefore, hfails⟩ := ih.1 hrest
        exact ⟨a :: before, a', after, rfl, List.forall_mem_cons.2 ⟨⟨b, hb⟩, hbefore⟩, hfails⟩
    · rintro ⟨before, a', after, hcut, hbefore, hfails⟩
      cases before with
      | nil =>
        obtain ⟨rfl, -⟩ := List.cons.inj hcut
        exact Or.inl hfails
      | cons _ before =>
        obtain ⟨rfl, hrest⟩ := List.cons.inj hcut
        obtain ⟨⟨b, hb⟩, hbefore⟩ := List.forall_mem_cons.1 hbefore
        have hrest := ih.2 ⟨before, a', after, hrest, hbefore, hfails⟩
        exact Or.inr ⟨b, hb, bind_eq_error_iff.2 (Or.inl hrest)⟩

theorem exists_right_of_forall₂ {R : α → β → Prop} {as : List α} {bs : List β} {a : α}
    (h : List.Forall₂ R as bs) (ha : a ∈ as) : ∃ b ∈ bs, R a b := by
  obtain ⟨i, hi, rfl⟩ := List.getElem_of_mem ha
  have hi' : i < bs.length := h.length_eq ▸ hi
  exact ⟨bs[i], List.getElem_mem hi', h.get hi hi'⟩

theorem exists_left_of_forall₂ {R : α → β → Prop} {as : List α} {bs : List β} {b : β}
    (h : List.Forall₂ R as bs) (hb : b ∈ bs) : ∃ a ∈ as, R a b :=
  exists_right_of_forall₂ h.flip hb

end Outcomes

/-! ## Section 2: Names -/

/-- Where names are distinct, what is found under a name is whatever has that name. -/
theorem find?_name_eq_some_iff {α β : Type} [BEq β] [LawfulBEq β] {name : α → β} {xs : List α}
    {key : β} {x : α} (hdistinct : (xs.map name).Nodup) :
    xs.find? (fun y => name y == key) = some x ↔ x ∈ xs ∧ name x = key := by
  constructor
  · intro h
    exact ⟨List.mem_of_find?_eq_some h, by simpa using List.find?_some h⟩
  · rintro ⟨hmem, hname⟩
    cases h : xs.find? (fun y => name y == key) with
    | none =>
      have habsent := List.find?_eq_none.1 h x hmem
      simp [hname] at habsent
    | some y =>
      have hy : name y = key := by simpa using List.find?_some h
      -- what is found has the name of `x`, and one name has one bearer
      have hsame := List.inj_on_of_nodup_map hdistinct (List.mem_of_find?_eq_some h) hmem
        (hy.trans hname.symm)
      rw [hsame]

/-! ## Section 3: Keys -/

section Keys

variable {α : Type} {entries entries' : List (String × α)} {key : String} {a : α}

theorem lookup_eq_none_iff_notMem :
    entries.lookup key = none ↔ key ∉ entries.map Prod.fst := by
  rw [List.lookup_eq_none_iff, List.mem_map]
  simp only [bne_iff_ne, ne_eq, not_exists, not_and]
  exact forall₂_congr fun entry _ => by rw [eq_comm]

/-- If no key occurs twice, the value under a key is that of whatever entry has the key. -/
theorem lookup_eq_some_iff_mem (h : (entries.map Prod.fst).Nodup) :
    entries.lookup key = some a ↔ (key, a) ∈ entries := by
  induction entries with
  | nil => simp
  | cons entry rest ih =>
    obtain ⟨k, b⟩ := entry
    obtain ⟨hkey, hrest⟩ := List.nodup_cons.1 h
    rw [List.mem_cons, Prod.mk.injEq]
    by_cases hk : key = k
    · subst hk
      -- the key of the first entry does not occur in the rest
      have hnot : (key, a) ∉ rest := fun hmem => hkey (List.mem_map.2 ⟨_, hmem, rfl⟩)
      simp [hnot, eq_comm]
    · have hne : (key == k) = false := beq_eq_false_iff_ne.2 hk
      simp only [List.lookup_cons, hne, hk, false_and, false_or]
      exact ih hrest

/-- One more entry in front changes what stands under its key, and nothing else. -/
theorem lookup_cons_eq_update :
    (fun k => ((key, a) :: entries).lookup k) =
      Function.update (fun k => entries.lookup k) key (some a) := by
  funext k
  rw [List.lookup_cons]
  by_cases hk : k = key
  · rw [hk, beq_self_eq_true, Function.update_self]
  · rw [beq_eq_false_iff_ne.2 hk, Function.update_of_ne hk]

/-- If no key occurs twice, the order of the entries does not matter. -/
theorem lookup_congr_of_perm (h : (entries.map Prod.fst).Nodup) (hperm : entries.Perm entries') :
    entries.lookup key = entries'.lookup key :=
  Option.ext fun a => by
    rw [lookup_eq_some_iff_mem h, lookup_eq_some_iff_mem ((hperm.map _).nodup_iff.1 h),
      hperm.mem_iff]

/-- Entries under other keys do not matter. -/
theorem lookup_filter_of_mem {keys : List String} (hkey : key ∈ keys) :
    (entries.filter fun entry => entry.1 ∈ keys).lookup key = entries.lookup key := by
  induction entries with
  | nil => rfl
  | cons entry rest ih =>
    obtain ⟨k, a⟩ := entry
    by_cases hk : k ∈ keys
    · rw [List.filter_cons_of_pos (by simpa using hk), List.lookup_cons, List.lookup_cons, ih]
    · have hne : (key == k) = false := beq_eq_false_iff_ne.2 fun h => hk (h ▸ hkey)
      rw [List.filter_cons_of_neg (by simpa using hk), List.lookup_cons, hne, ih]

end Keys

end IplReport
