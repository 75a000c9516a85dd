import ReplicaUpkeep.Order

/-!
# Tables in key order

A finite map held as its entries in strictly ascending key order.  Because the order is part of the
type, two tables with the same lookups are equal, and every listing of keys comes out sorted and
without repetition.  Each operation is pinned by what it does to `get?`; nothing else needs to look
inside the entry list.
-/

namespace ReplicaUpkeep

/-- A finite map from keys to values, in strictly ascending key order. -/
structure Table (κ α : Type) [LT κ] where
  entries : List (κ × α)
  ascending : entries.Pairwise (fun a b => a.1 < b.1)

namespace Table

variable {κ α β : Type} [LT κ]

instance [DecidableEq κ] [DecidableEq α] : DecidableEq (Table κ α) := fun a b =>
  decidable_of_iff (a.entries = b.entries) (by cases a; cases b; simp)

instance [Repr κ] [Repr α] : Repr (Table κ α) where
  reprPrec t p := reprPrec t.entries p

/-- The table without entries. -/
def empty : Table κ α where
  entries := []
  ascending := List.Pairwise.nil

instance : Inhabited (Table κ α) := ⟨empty⟩

instance : EmptyCollection (Table κ α) := ⟨empty⟩

/-- First value stored under a key in a list of entries. -/
def find? [DecidableEq κ] (k : κ) : List (κ × α) → Option α
  | [] => none
  | e :: rest => if e.1 = k then some e.2 else find? k rest

/-- The value stored under a key. -/
def get? [DecidableEq κ] (t : Table κ α) (k : κ) : Option α :=
  find? k t.entries

/-- Is there a value under the key? -/
def contains [DecidableEq κ] (t : Table κ α) (k : κ) : Bool :=
  (t.get? k).isSome

/-- The keys, ascending. -/
def keys (t : Table κ α) : List κ :=
  t.entries.map Prod.fst

/-- The values, in the order of their keys. -/
def values (t : Table κ α) : List α :=
  t.entries.map Prod.snd

/-- How many keys hold a value. -/
def size (t : Table κ α) : Nat :=
  t.entries.length

/-- Does no key hold a value? -/
def isEmpty (t : Table κ α) : Bool :=
  t.entries.isEmpty

/-- Put an entry at its place, replacing the entry of the same key. -/
def place [DecidableEq κ] [DecidableLT κ] (k : κ) (a : α) : List (κ × α) → List (κ × α)
  | [] => [(k, a)]
  | e :: rest =>
    if k < e.1 then (k, a) :: e :: rest
    else if k = e.1 then (k, a) :: rest
    else e :: place k a rest

theorem mem_place [DecidableEq κ] [DecidableLT κ] {k : κ} {a : α} {e : κ × α}
    {l : List (κ × α)} (h : e ∈ place k a l) : e = (k, a) ∨ e ∈ l := by
  induction l with
  | nil => simpa [place] using h
  | cons d rest ih =>
    simp only [place] at h
    split at h
    · simpa using h
    · split at h
      · rcases List.mem_cons.1 h with rfl | hr
        · exact Or.inl rfl
        · exact Or.inr (List.mem_cons_of_mem _ hr)
      · rcases List.mem_cons.1 h with rfl | hr
        · exact Or.inr List.mem_cons_self
        · rcases ih hr with rfl | hm
          · exact Or.inl rfl
          · exact Or.inr (List.mem_cons_of_mem _ hm)

theorem place_ascending [LE κ] [Std.IsLinearOrder κ] [Std.LawfulOrderLT κ] [DecidableEq κ]
    [DecidableLT κ] (k : κ) (a : α) {l : List (κ × α)}
    (h : l.Pairwise (fun a b => a.1 < b.1)) :
    (place k a l).Pairwise (fun a b => a.1 < b.1) := by
  induction l with
  | nil => simp [place]
  | cons d rest ih =>
    rw [List.pairwise_cons] at h
    simp only [place]
    split
    · rename_i hlt
      rw [List.pairwise_cons, List.pairwise_cons]
      refine ⟨fun e he => ?_, h⟩
      rcases List.mem_cons.1 he with rfl | hr
      · exact hlt
      · have := h.1 e hr
        grind
    · split
      · rename_i heq
        rw [List.pairwise_cons]
        exact ⟨fun e he => by have := h.1 e he; grind, h.2⟩
      · rw [List.pairwise_cons]
        refine ⟨fun e he => ?_, ih h.2⟩
        rcases mem_place he with rfl | hr
        · grind
        · exact h.1 e hr

/-- Store a value under a key, replacing what was there. -/
def insert [LE κ] [Std.IsLinearOrder κ] [Std.LawfulOrderLT κ] [DecidableEq κ] [DecidableLT κ]
    (t : Table κ α) (k : κ) (a : α) : Table κ α where
  entries := place k a t.entries
  ascending := place_ascending k a t.ascending

/-- Drop the entries whose key and value fail a test. -/
def filter (t : Table κ α) (p : κ → α → Bool) : Table κ α where
  entries := t.entries.filter (fun e => p e.1 e.2)
  ascending := t.ascending.sublist List.filter_sublist

/-- Drop the entry of a key, if there is one. -/
def erase [DecidableEq κ] (t : Table κ α) (k : κ) : Table κ α :=
  t.filter (fun k' _ => k' ≠ k)

/-- Change every value. -/
def map (t : Table κ α) (f : κ → α → β) : Table κ β where
  entries := t.entries.map (fun e => (e.1, f e.1 e.2))
  ascending := t.ascending.map _ (fun _ _ h => h)

/-- The entry of the least key with the table of the others. -/
def popFirst? (t : Table κ α) : Option ((κ × α) × Table κ α) :=
  match h : t.entries with
  | [] => none
  | e :: rest => some (e, ⟨rest, (List.pairwise_cons.1 (h ▸ t.ascending)).2⟩)

/-- The table of a list of entries; of several entries with one key the last counts. -/
def ofList [LE κ] [Std.IsLinearOrder κ] [Std.LawfulOrderLT κ] [DecidableEq κ] [DecidableLT κ]
    (l : List (κ × α)) : Table κ α :=
  l.foldl (fun t e => t.insert e.1 e.2) empty

/-! ## Lookups after each operation -/

theorem find?_place_self [LE κ] [Std.IsLinearOrder κ] [Std.LawfulOrderLT κ] [DecidableEq κ]
    [DecidableLT κ] (k : κ) (a : α) (l : List (κ × α)) : find? k (place k a l) = some a := by
  induction l with
  | nil => simp [place, find?]
  | cons d rest ih =>
    simp only [place]
    split
    · simp [find?]
    · split
      · simp [find?]
      · rename_i hne
        simp [find?, Ne.symm hne, ih]

theorem find?_place_of_ne [DecidableEq κ] [DecidableLT κ] {k k' : κ} (h : k' ≠ k) (a : α)
    (l : List (κ × α)) : find? k' (place k a l) = find? k' l := by
  induction l with
  | nil => simp [place, find?, Ne.symm h]
  | cons d rest ih =>
    simp only [place]
    split
    · simp [find?, Ne.symm h]
    · split
      · rename_i heq
        subst heq
        simp [find?, Ne.symm h]
      · simp [find?, ih]

@[simp]
theorem get?_empty [DecidableEq κ] (k : κ) : (empty : Table κ α).get? k = none := rfl

theorem get?_insert [LE κ] [Std.IsLinearOrder κ] [Std.LawfulOrderLT κ] [DecidableEq κ]
    [DecidableLT κ] (t : Table κ α) (k k' : κ) (a : α) :
    (t.insert k a).get? k' = if k' = k then some a else t.get? k' := by
  by_cases h : k' = k
  · subst h
    simp [get?, insert, find?_place_self]
  · simp [get?, insert, h, find?_place_of_ne h]

@[simp]
theorem get?_insert_self [LE κ] [Std.IsLinearOrder κ] [Std.LawfulOrderLT κ] [DecidableEq κ]
    [DecidableLT κ] (t : Table κ α) (k : κ) (a : α) : (t.insert k a).get? k = some a := by
  simp [get?_insert]

theorem find?_eq_none_of_lt [LE κ] [Std.IsLinearOrder κ] [Std.LawfulOrderLT κ] [DecidableEq κ]
    {k : κ} {l : List (κ × α)} (h : ∀ e ∈ l, k < e.1) : find? k l = none := by
  induction l with
  | nil => rfl
  | cons d rest ih =>
    have hd : k < d.1 := h d List.mem_cons_self
    have hne : d.1 ≠ k := by grind
    simp [find?, hne, ih (fun e he => h e (List.mem_cons_of_mem _ he))]

theorem find?_filter [LE κ] [Std.IsLinearOrder κ] [Std.LawfulOrderLT κ] [DecidableEq κ]
    (p : κ → α → Bool) (k : κ) {l : List (κ × α)} (h : l.Pairwise (fun a b => a.1 < b.1)) :
    find? k (l.filter (fun e => p e.1 e.2)) = (find? k l).filter (p k) := by
  induction l with
  | nil => rfl
  | cons d rest ih =>
    rw [List.pairwise_cons] at h
    by_cases hk : d.1 = k
    · subst hk
      have hrest : find? d.1 (rest.filter (fun e => p e.1 e.2)) = none :=
        find?_eq_none_of_lt (fun e he => h.1 e (List.mem_filter.1 he).1)
      by_cases hp : p d.1 d.2 = true
      · simp [hp, find?, Option.filter]
      · simp [hp, find?, Option.filter, hrest]
    · by_cases hp : p d.1 d.2 = true
      · simp [hp, find?, hk, ih h.2]
      · simp [hp, find?, hk, ih h.2]

theorem get?_filter [LE κ] [Std.IsLinearOrder κ] [Std.LawfulOrderLT κ] [DecidableEq κ]
    (t : Table κ α) (p : κ → α → Bool) (k : κ) :
    (t.filter p).get? k = (t.get? k).filter (p k) :=
  find?_filter p k t.ascending

theorem get?_erase [LE κ] [Std.IsLinearOrder κ] [Std.LawfulOrderLT κ] [DecidableEq κ]
    (t : Table κ α) (k k' : κ) :
    (t.erase k).get? k' = if k' = k then none else t.get? k' := by
  rw [erase, get?_filter]
  by_cases h : k' = k <;> cases t.get? k' <;> simp [Option.filter, h]

theorem get?_map [DecidableEq κ] (t : Table κ α) (f : κ → α → β) (k : κ) :
    (t.map f).get? k = (t.get? k).map (f k) := by
  simp only [get?, map]
  induction t.entries with
  | nil => rfl
  | cons d rest ih =>
    by_cases h : d.1 = k
    · subst h
      simp [find?]
    · simp [find?, h, ih]

/-- Of entries with distinct keys none is lost. -/
theorem get?_ofList [LE κ] [Std.IsLinearOrder κ] [Std.LawfulOrderLT κ] [DecidableEq κ]
    [DecidableLT κ] {l : List (κ × α)} (h : (l.map Prod.fst).Nodup) (k : κ) (a : α) :
    (ofList l).get? k = some a ↔ (k, a) ∈ l := by
  -- The table grows along the list, so any table may stand at the start.
  have hFrom : ∀ t : Table κ α, (l.foldl (fun t e => t.insert e.1 e.2) t).get? k = some a ↔
      (k, a) ∈ l ∨ k ∉ l.map Prod.fst ∧ t.get? k = some a := by
    induction l with
    | nil => simp
    | cons e rest ih =>
      intro t
      rw [List.map_cons, List.nodup_cons] at h
      rw [List.foldl_cons, ih h.2, get?_insert]
      by_cases hk : k = e.1
      · subst hk
        have hLater : (e.1, a) ∉ rest := fun hMem => h.1 (List.mem_map.2 ⟨_, hMem, rfl⟩)
        simp [h.1, hLater, Prod.ext_iff, eq_comm]
      · simp [hk, Prod.ext_iff]
  rw [ofList, hFrom]
  simp

/-! ## Keys and equality -/

theorem keys_ascending (t : Table κ α) : t.keys.Pairwise (· < ·) :=
  List.pairwise_map.2 t.ascending

theorem keys_nodup [LE κ] [Std.IsLinearOrder κ] [Std.LawfulOrderLT κ] (t : Table κ α) :
    t.keys.Nodup :=
  t.keys_ascending.imp fun hlt heq => by
    rw [heq] at hlt
    exact Std.lt_irrefl hlt

/-- Changing the values leaves the keys. -/
theorem keys_map (t : Table κ α) (f : κ → α → β) : (t.map f).keys = t.keys := by
  rw [keys, keys, map, List.map_map]
  rfl

theorem mem_entries_iff [LE κ] [Std.IsLinearOrder κ] [Std.LawfulOrderLT κ] [DecidableEq κ]
    (t : Table κ α) (k : κ) (a : α) : (k, a) ∈ t.entries ↔ t.get? k = some a := by
  obtain ⟨l, h⟩ := t
  simp only [get?]
  induction l with
  | nil => simp [find?]
  | cons d rest ih =>
    rw [List.pairwise_cons] at h
    rw [List.mem_cons, ih h.2]
    by_cases hk : d.1 = k
    · subst hk
      have hnone := find?_eq_none_of_lt (k := d.1) h.1
      obtain ⟨d₁, d₂⟩ := d
      simp [find?, hnone, eq_comm]
    · simp [find?, hk, Prod.ext_iff, Ne.symm hk]

theorem mem_keys_iff [LE κ] [Std.IsLinearOrder κ] [Std.LawfulOrderLT κ] [DecidableEq κ]
    (t : Table κ α) (k : κ) : k ∈ t.keys ↔ ∃ a, t.get? k = some a := by
  simp only [keys, List.mem_map, Prod.exists, exists_and_right, exists_eq_right, mem_entries_iff]

theorem mem_values_iff [LE κ] [Std.IsLinearOrder κ] [Std.LawfulOrderLT κ] [DecidableEq κ]
    (t : Table κ α) (a : α) : a ∈ t.values ↔ ∃ k, t.get? k = some a := by
  simp [values, ← mem_entries_iff]

/-- A table is empty when no lookup in it succeeds. -/
theorem isEmpty_iff_get? [LE κ] [Std.IsLinearOrder κ] [Std.LawfulOrderLT κ] [DecidableEq κ]
    (t : Table κ α) : t.isEmpty = true ↔ ∀ k, t.get? k = none := by
  rw [isEmpty, List.isEmpty_iff]
  constructor
  · intro h k
    simp [get?, h, find?]
  · intro h
    refine List.eq_nil_iff_forall_not_mem.2 fun e he => ?_
    have hget := (mem_entries_iff t e.1 e.2).1 he
    rw [h e.1] at hget
    cases hget

theorem entries_eq_of_find?_eq [LE κ] [Std.IsLinearOrder κ] [Std.LawfulOrderLT κ] [DecidableEq κ]
    {l m : List (κ × α)} (hl : l.Pairwise (fun a b => a.1 < b.1))
    (hm : m.Pairwise (fun a b => a.1 < b.1)) (h : ∀ k, find? k l = find? k m) : l = m := by
  induction l generalizing m with
  | nil =>
    cases m with
    | nil => rfl
    | cons e rest =>
      have := h e.1
      simp [find?] at this
  | cons d l ih =>
    cases m with
    | nil =>
      have := h d.1
      simp [find?] at this
    | cons e m =>
      rw [List.pairwise_cons] at hl hm
      have hkey : d.1 = e.1 := by
        have hd := h d.1
        have he := h e.1
        have hd' := mem_entries_iff ⟨e :: m, List.pairwise_cons.2 hm⟩ d.1 d.2
        have he' := mem_entries_iff ⟨d :: l, List.pairwise_cons.2 hl⟩ e.1 e.2
        simp only [get?] at hd' he'
        rw [← hd] at hd'
        rw [he] at he'
        have hde : (d.1, d.2) ∈ e :: m := hd'.2 (by simp [find?])
        have hed : (e.1, e.2) ∈ d :: l := he'.2 (by simp [find?])
        rcases List.mem_cons.1 hde with heq | hmem
        · exact congrArg Prod.fst heq
        · rcases List.mem_cons.1 hed with heq | hmem'
          · exact (congrArg Prod.fst heq).symm
          · have h₁ := hm.1 _ hmem
            have h₂ := hl.1 _ hmem'
            simp only at h₁ h₂
            grind
      have hval : d.2 = e.2 := by
        have := h d.1
        simpa [find?, hkey] using this
      have hrest : l = m := by
        refine ih hl.2 hm.2 (fun k => ?_)
        by_cases hk : d.1 = k
        · subst hk
          rw [find?_eq_none_of_lt hl.1, find?_eq_none_of_lt (fun x hx => hkey ▸ hm.1 x hx)]
        · have := h k
          simpa [find?, hk, hkey ▸ hk] using this
      rw [hrest, Prod.ext hkey hval]

/-- A table is its lookups. -/
theorem ext_get? [LE κ] [Std.IsLinearOrder κ] [Std.LawfulOrderLT κ] [DecidableEq κ]
    {t u : Table κ α} (h : ∀ k, t.get? k = u.get? k) : t = u := by
  cases t
  cases u
  congr
  exact entries_eq_of_find?_eq (by assumption) (by assumption) h

/-! ## The entries after an insertion and behind the first -/

/-- An entry is placed behind those of lesser keys and before those of greater ones. -/
theorem place_eq_append [LE κ] [Std.IsLinearOrder κ] [Std.LawfulOrderLT κ] [DecidableEq κ]
    [DecidableLT κ] (k : κ) (a : α) {l : List (κ × α)} (h : l.Pairwise (fun a b => a.1 < b.1)) :
    place k a l = l.filter (fun e => e.1 < k) ++ (k, a) :: l.filter (fun e => k < e.1) := by
  induction l with
  | nil => rfl
  | cons d rest ih =>
    rw [List.pairwise_cons] at h
    -- From the first greater key on, all keys are greater.
    have hBehind : ∀ e ∈ rest, k ≤ d.1 → k < e.1 := by
      intro e he hle
      have := h.1 e he
      grind
    have hNone : k ≤ d.1 → rest.filter (fun e => e.1 < k) = [] := by
      intro hle
      refine List.filter_eq_nil_iff.2 fun e he => ?_
      have := hBehind e he hle
      grind
    have hAll : k ≤ d.1 → rest.filter (fun e => k < e.1) = rest := by
      intro hle
      refine List.filter_eq_self.2 fun e he => ?_
      simpa using hBehind e he hle
    rw [place]
    split
    · rename_i hlt
      have hle : k ≤ d.1 := Std.le_of_lt hlt
      have hNot : ¬ d.1 < k := by grind
      simp [hlt, hNot, hNone hle, hAll hle]
    · rename_i hlt
      split
      · rename_i heq
        subst heq
        have hIrrefl : ¬ d.1 < d.1 := by grind
        simp [hIrrefl, hNone (Std.le_refl _), hAll (Std.le_refl _)]
      · rename_i hne
        have hgt : d.1 < k := by grind
        simp [hgt, hlt, ih h.2]

theorem entries_insert [LE κ] [Std.IsLinearOrder κ] [Std.LawfulOrderLT κ] [DecidableEq κ]
    [DecidableLT κ] (t : Table κ α) (k : κ) (a : α) :
    (t.insert k a).entries =
      t.entries.filter (fun e => e.1 < k) ++ (k, a) :: t.entries.filter (fun e => k < e.1) :=
  place_eq_append k a t.ascending

/-- What is behind the first entry is the table without it. -/
theorem popFirst?_eq_some_iff [LE κ] [Std.IsLinearOrder κ] [Std.LawfulOrderLT κ] [DecidableEq κ]
    (t : Table κ α) (e : κ × α) (rest : Table κ α) :
    t.popFirst? = some (e, rest) ↔ t.entries = e :: rest.entries := by
  obtain ⟨l, h⟩ := t
  cases l with
  | nil => simp [popFirst?]
  | cons d l =>
    obtain ⟨m, hm⟩ := rest
    simp [popFirst?]

theorem popFirst?_eq_none_iff (t : Table κ α) : t.popFirst? = none ↔ t.entries = [] := by
  obtain ⟨l, h⟩ := t
  cases l <;> simp [popFirst?]

theorem eq_erase_of_entries_eq_cons [LE κ] [Std.IsLinearOrder κ] [Std.LawfulOrderLT κ]
    [DecidableEq κ] {t rest : Table κ α} {e : κ × α} (h : t.entries = e :: rest.entries) :
    rest = t.erase e.1 := by
  obtain ⟨l, hl⟩ := t
  obtain ⟨m, hm⟩ := rest
  simp only at h
  subst h
  rw [List.pairwise_cons] at hl
  have hKept : m.filter (fun d => d.1 ≠ e.1) = m := by
    refine List.filter_eq_self.2 fun d hd => ?_
    have := hl.1 d hd
    grind
  simp only [erase, filter, ne_eq, Table.mk.injEq]
  simpa using hKept.symm

end Table

end ReplicaUpkeep
