/-!
# Dictionaries in key order

A finite map from names to values that lists its entries in ascending order of their names, compared
by code points. The order is part of the type, so two dictionaries with the same look-ups are equal.
-/

namespace Folio

universe u v

/-- Entries of a finite map, one for each name, in ascending order of the names. -/
structure Dict (α : Type u) where
  /-- The pairs of name and value. -/
  entries : List (String × α)
  /-- The names ascend strictly. -/
  ascending : entries.Pairwise (fun a b => a.1 < b.1)

namespace Dict

variable {α : Type u} {β : Type v}

/-- The dictionary without entries. -/
def empty : Dict α := ⟨[], .nil⟩

instance : Inhabited (Dict α) := ⟨empty⟩

/-- The value that a list of pairs holds first under a name. -/
def find (name : String) : List (String × α) → Option α
  | [] => none
  | (n, a) :: rest => if n = name then some a else find name rest

/-- The value bound to a name. -/
def get? (d : Dict α) (name : String) : Option α := find name d.entries

/-- Whether a name is bound. -/
def contains (d : Dict α) (name : String) : Bool := (d.get? name).isSome

/-- The bound names in ascending order. -/
def names (d : Dict α) : List String := d.entries.map (·.1)

/-- The bound values in the order of their names. -/
def values (d : Dict α) : List α := d.entries.map (·.2)

/-- The number of bound names. -/
def size (d : Dict α) : Nat := d.entries.length

/-- Whether no name is bound. -/
def isEmpty (d : Dict α) : Bool := d.entries.isEmpty

/-- Puts a pair into an ascending list, in place of an entry of the same name. -/
def place (name : String) (a : α) : List (String × α) → List (String × α)
  | [] => [(name, a)]
  | (n, b) :: rest =>
    if name < n then (name, a) :: (n, b) :: rest
    else if n = name then (name, a) :: rest
    else (n, b) :: place name a rest

/-- Placing a value brings in no entry but its own. -/
theorem mem_place {name : String} {a : α} {l : List (String × α)} {e : String × α}
    (h : e ∈ place name a l) : e = (name, a) ∨ e ∈ l := by
  induction l with
  | nil => simpa [place] using h
  | cons head rest ih =>
    obtain ⟨n, b⟩ := head
    simp only [place] at h
    split at h
    · simpa only [List.mem_cons] using h
    · split at h
      · rcases List.mem_cons.mp h with h | h
        · exact .inl h
        · exact .inr (List.mem_cons_of_mem _ h)
      · rcases List.mem_cons.mp h with h | h
        · exact .inr (h ▸ List.mem_cons_self)
        · exact (ih h).imp_right (List.mem_cons_of_mem _)

private theorem lt_of_not_lt_of_ne {a b : String} (h : ¬a < b) (hne : b ≠ a) : b < a := by
  rcases Decidable.em (b < a) with hlt | hlt
  · exact hlt
  · exact absurd (String.le_antisymm (String.not_lt.mp h) (String.not_lt.mp hlt)) hne

/-- Placing a pair keeps the names ascending. -/
theorem pairwise_place {name : String} {a : α} {l : List (String × α)}
    (h : l.Pairwise (fun a b => a.1 < b.1)) :
    (place name a l).Pairwise (fun a b => a.1 < b.1) := by
  induction l with
  | nil => exact List.pairwise_singleton _ _
  | cons head rest ih =>
    obtain ⟨n, b⟩ := head
    rw [List.pairwise_cons] at h
    simp only [place]
    split
    · rename_i hlt
      refine List.pairwise_cons.mpr ⟨fun e he => ?_, List.pairwise_cons.mpr h⟩
      rcases List.mem_cons.mp he with rfl | he
      · exact hlt
      · exact String.lt_trans hlt (h.1 e he)
    · split
      · rename_i heq
        exact List.pairwise_cons.mpr ⟨fun e he => heq ▸ h.1 e he, h.2⟩
      · rename_i hlt hne
        refine List.pairwise_cons.mpr ⟨fun e he => ?_, ih h.2⟩
        rcases mem_place he with rfl | he
        · exact lt_of_not_lt_of_ne hlt hne
        · exact h.1 e he

/-- Binds a name, in place of what it was bound to. -/
def insert (d : Dict α) (name : String) (a : α) : Dict α :=
  ⟨place name a d.entries, pairwise_place d.ascending⟩

/-- The dictionary of a list of pairs; of two pairs with one name the later counts. -/
def ofList (pairs : List (String × α)) : Dict α :=
  pairs.foldl (fun d pair => d.insert pair.1 pair.2) empty

/-- The entry of each name, changed by a function. -/
def map (f : α → β) (d : Dict α) : Dict β :=
  ⟨d.entries.map fun e => (e.1, f e.2), by
    rw [List.pairwise_map]; exact d.ascending⟩

/-- What is placed under a name is found there. -/
theorem find_place_self (name : String) (a : α) (l : List (String × α)) :
    find name (place name a l) = some a := by
  induction l with
  | nil => simp [place, find]
  | cons head rest ih =>
    obtain ⟨n, b⟩ := head
    simp only [place]
    split
    · simp [find]
    · split
      · simp [find]
      · rename_i hne
        simp [find, hne, ih]

/-- Placing a value leaves all other names alone. -/
theorem find_place_of_ne {name other : String} (h : other ≠ name) (a : α)
    (l : List (String × α)) : find other (place name a l) = find other l := by
  have h' : name ≠ other := fun he => h he.symm
  induction l with
  | nil => simp [place, find, h']
  | cons head rest ih =>
    obtain ⟨n, b⟩ := head
    simp only [place]
    split
    · simp [find, h']
    · split
      · rename_i heq
        subst heq
        simp [find, h']
      · simp only [find, ih]

/-- A look-up after an insertion sees the new value under its name and the old ones elsewhere. -/
theorem get?_insert (d : Dict α) (name other : String) (a : α) :
    (d.insert name a).get? other = if other = name then some a else d.get? other := by
  split
  · rename_i h
    subst h
    exact find_place_self _ _ _
  · rename_i h
    exact find_place_of_ne h _ _

@[simp] theorem get?_empty (name : String) : (empty : Dict α).get? name = none := rfl

/-- A name below all names of a list is not found in it. -/
theorem find_eq_none_of_lt {name : String} {l : List (String × α)}
    (h : ∀ e ∈ l, name < e.1) : find name l = none := by
  induction l with
  | nil => rfl
  | cons head rest ih =>
    obtain ⟨n, b⟩ := head
    have hn : n ≠ name := fun he => by
      have := h (n, b) List.mem_cons_self
      exact String.lt_irrefl n (he ▸ this)
    simp only [find, hn, if_false]
    exact ih fun e he => h e (List.mem_cons_of_mem _ he)

/-- Where names ascend, finding a value under a name is having that entry. -/
theorem find_eq_some_iff {l : List (String × α)} (hl : l.Pairwise (fun a b => a.1 < b.1))
    {name : String} {a : α} : find name l = some a ↔ (name, a) ∈ l := by
  induction l with
  | nil => simp [find]
  | cons head rest ih =>
    obtain ⟨n, b⟩ := head
    rw [List.pairwise_cons] at hl
    simp only [find, List.mem_cons, Prod.mk.injEq]
    split
    · rename_i heq
      subst heq
      constructor
      · rintro h
        exact .inl ⟨rfl, (Option.some.inj h).symm⟩
      · rintro (⟨_, rfl⟩ | h)
        · rfl
        · exact absurd (hl.1 _ h) (String.lt_irrefl n)
    · rename_i hne
      rw [ih hl.2]
      constructor
      · exact .inr
      · rintro (⟨h, _⟩ | h)
        · exact absurd h.symm hne
        · exact h

/-- A name is bound to a value exactly when the pair is an entry. -/
theorem get?_eq_some_iff {d : Dict α} {name : String} {a : α} :
    d.get? name = some a ↔ (name, a) ∈ d.entries :=
  find_eq_some_iff d.ascending

/-- The bound names are those with a value. -/
theorem mem_names_iff {d : Dict α} {name : String} :
    name ∈ d.names ↔ ∃ a, d.get? name = some a := by
  simp only [names, List.mem_map, get?_eq_some_iff]
  constructor
  · rintro ⟨⟨n, a⟩, h, rfl⟩
    exact ⟨a, h⟩
  · rintro ⟨a, h⟩
    exact ⟨(name, a), h, rfl⟩

/-- The bound values are those of some name. -/
theorem mem_values_iff {d : Dict α} {a : α} : a ∈ d.values ↔ ∃ name, d.get? name = some a := by
  simp only [values, List.mem_map, get?_eq_some_iff]
  constructor
  · rintro ⟨⟨n, b⟩, h, rfl⟩
    exact ⟨n, h⟩
  · rintro ⟨name, h⟩
    exact ⟨(name, a), h, rfl⟩

/-- Binding a new name adds its value. -/
theorem mem_values_insert {d : Dict α} {name : String} {a b : α} (hnew : d.get? name = none) :
    b ∈ (d.insert name a).values ↔ b = a ∨ b ∈ d.values := by
  simp only [mem_values_iff, get?_insert]
  constructor
  · rintro ⟨other, hother⟩
    split at hother
    · exact .inl (Option.some.inj hother).symm
    · exact .inr ⟨other, hother⟩
  · rintro (rfl | ⟨other, hother⟩)
    · exact ⟨name, if_pos rfl⟩
    · have hne : other ≠ name := by
        rintro rfl
        rw [hnew] at hother
        cases hother
      exact ⟨other, (if_neg hne).trans hother⟩

/-- The bound names ascend. -/
theorem pairwise_names (d : Dict α) : d.names.Pairwise (· < ·) := by
  rw [names, List.pairwise_map]
  exact d.ascending

/-- No name is bound twice. -/
theorem nodup_names (d : Dict α) : d.names.Nodup := by
  refine d.pairwise_names.imp fun {a b} h heq => ?_
  rw [heq] at h
  exact String.lt_irrefl _ h

private theorem entries_eq_of_find {l m : List (String × α)}
    (hl : l.Pairwise (fun a b => a.1 < b.1)) (hm : m.Pairwise (fun a b => a.1 < b.1))
    (h : ∀ name, find name l = find name m) : l = m := by
  induction l generalizing m with
  | nil =>
    cases m with
    | nil => rfl
    | cons e rest => simpa [find] using h e.1
  | cons e rest ih =>
    cases m with
    | nil => simpa [find] using h e.1
    | cons e' rest' =>
      have hmem : e ∈ e' :: rest' := by
        rw [← Prod.eta e, ← find_eq_some_iff hm, ← h, find_eq_some_iff hl]
        exact List.mem_cons_self
      have hmem' : e' ∈ e :: rest := by
        rw [← Prod.eta e', ← find_eq_some_iff hl, h, find_eq_some_iff hm]
        exact List.mem_cons_self
      have hl' := List.pairwise_cons.mp hl
      have hm' := List.pairwise_cons.mp hm
      have he : e = e' := by
        rcases List.mem_cons.mp hmem with he | he
        · exact he
        · rcases List.mem_cons.mp hmem' with he' | he'
          · exact he'.symm
          · exact absurd (hl'.1 _ he') (String.lt_asymm (hm'.1 _ he))
      subst he
      refine congrArg _ (ih hl'.2 hm'.2 fun name => ?_)
      have hn := h name
      simp only [find] at hn
      by_cases heq : e.1 = name
      · rw [← heq, find_eq_none_of_lt hl'.1, find_eq_none_of_lt hm'.1]
      · simpa only [heq, if_false] using hn

/-- Dictionaries with the same look-ups are equal. -/
theorem ext_get? {d e : Dict α} (h : ∀ name, d.get? name = e.get? name) : d = e := by
  obtain ⟨l, hl⟩ := d
  obtain ⟨m, hm⟩ := e
  have := entries_eq_of_find hl hm h
  subst this
  rfl

/-- Only the empty dictionary has no entries. -/
theorem isEmpty_iff {d : Dict α} : d.isEmpty = true ↔ d = empty := by
  obtain ⟨_ | ⟨e, l⟩, hl⟩ := d
  · exact ⟨fun _ => rfl, fun _ => rfl⟩
  · exact ⟨nofun, nofun⟩

/-- Behind lesser names a pair is placed at the end. -/
theorem place_eq_append {name : String} {a : α} {l : List (String × α)}
    (h : ∀ e ∈ l, e.1 < name) : place name a l = l ++ [(name, a)] := by
  induction l with
  | nil => rfl
  | cons head rest ih =>
    obtain ⟨hhead, hrest⟩ := List.forall_mem_cons.mp h
    have hlt : ¬name < head.1 := String.lt_asymm hhead
    have hne : head.1 ≠ name := fun heq => String.lt_irrefl _ (heq ▸ hhead)
    simp only [place, hlt, hne, if_false, ih hrest, List.cons_append]

/-- Entries that come in ascending order are put behind those that are there. -/
theorem entries_foldl_insert {l : List (String × α)} {d : Dict α}
    (h : (d.entries ++ l).Pairwise (fun a b => a.1 < b.1)) :
    (l.foldl (fun d pair => d.insert pair.1 pair.2) d).entries = d.entries ++ l := by
  induction l generalizing d with
  | nil => exact (List.append_nil _).symm
  | cons e l ih =>
    have hplace : (d.insert e.1 e.2).entries = d.entries ++ [e] :=
      place_eq_append fun e' he' => (List.pairwise_append.mp h).2.2 e' he' e List.mem_cons_self
    have hl := List.append_assoc d.entries [e] l
    rw [List.foldl_cons, ih (by rwa [hplace, hl]), hplace, hl]
    rfl

/-- A dictionary is the dictionary of its entries. -/
theorem ofList_entries (d : Dict α) : ofList d.entries = d := by
  have hentries : (ofList d.entries).entries = d.entries := entries_foldl_insert d.ascending
  exact ext_get? fun name => congrArg (find name) hentries

end Dict

end Folio
