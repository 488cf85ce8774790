/-!
# Values kept by name

Queues are kept by kernel, configurations and models by configuration, samples
by kernel again. Whatever the answer lists comes in the order of the names, so
the entries are kept in that order and no answer depends on when a name was
first used.

## Main definitions

* `NameMap` — the entries, ordered by name.
* `NameMap.get?`, `NameMap.insert`, `NameMap.erase` — look up, put and remove.

The lemmas say what each operation does to `get?`, and through it to everything
else: `NameMap.ext_get?` says that a map is what can be looked up in it.
-/

namespace KernelDispatch

/-- Values kept by name, in the order of the names. -/
structure NameMap (α : Type) where
  entries : List (String × α) := []
  /-- The names go up, so each of them stands once. -/
  ordered : entries.Pairwise fun a b => a.1 < b.1 := by exact .nil

namespace NameMap

variable {α β : Type}

/-- No names at all. -/
def empty : NameMap α := {}

instance : Inhabited (NameMap α) := ⟨empty⟩

/-- The value of a name in a list of entries. -/
def find? (name : String) : List (String × α) → Option α
  | [] => none
  | (other, value) :: rest => if name = other then some value else find? name rest

/-- The value of a name. -/
def get? (m : NameMap α) (name : String) : Option α := find? name m.entries

/-- Whether a name has a value. -/
def contains (m : NameMap α) (name : String) : Bool := (m.get? name).isSome

/-- Entries with one more, in the place that its name has in the order, or with
a new value for a name that they had. -/
def insertEntry (name : String) (value : α) : List (String × α) → List (String × α)
  | [] => [(name, value)]
  | (other, held) :: rest =>
      if name = other then (name, value) :: rest
      else if name < other then (name, value) :: (other, held) :: rest
      else (other, held) :: insertEntry name value rest

/-! ## The order of the names -/

/-- The new entry is the only one that was not there before. -/
theorem mem_insertEntry {name : String} {value : α} {entry : String × α}
    {entries : List (String × α)} (h : entry ∈ insertEntry name value entries) :
    entry = (name, value) ∨ entry ∈ entries := by
  induction entries with
  | nil => simpa [insertEntry] using h
  | cons first rest ih =>
      obtain ⟨other, held⟩ := first
      unfold insertEntry at h
      split at h
      · simp only [List.mem_cons] at h ⊢
        exact h.imp_right .inr
      · split at h
        · simpa using h
        · simp only [List.mem_cons] at h ⊢
          rcases h with h | h
          · exact .inr (.inl h)
          · exact (ih h).imp_right .inr

theorem lt_of_not_lt_of_ne {a b : String} (hne : a ≠ b) (h : ¬ a < b) : b < a := by
  by_cases hlt : b < a
  · exact hlt
  · exact absurd (String.le_antisymm (String.not_lt.1 hlt) (String.not_lt.1 h)) hne

theorem ordered_insertEntry (name : String) (value : α) {entries : List (String × α)}
    (h : entries.Pairwise fun a b => a.1 < b.1) :
    (insertEntry name value entries).Pairwise fun a b => a.1 < b.1 := by
  induction entries with
  | nil => simp [insertEntry]
  | cons first rest ih =>
      obtain ⟨other, held⟩ := first
      obtain ⟨hfirst, hrest⟩ := List.pairwise_cons.1 h
      unfold insertEntry
      split
      · rename_i heq
        subst heq
        exact List.pairwise_cons.2 ⟨hfirst, hrest⟩
      · rename_i hne
        split
        · rename_i hlt
          refine List.pairwise_cons.2 ⟨?_, h⟩
          intro entry hentry
          rcases List.mem_cons.1 hentry with rfl | hentry
          · exact hlt
          · exact String.lt_trans hlt (hfirst entry hentry)
        · rename_i hlt
          refine List.pairwise_cons.2 ⟨?_, ih hrest⟩
          intro entry hentry
          rcases mem_insertEntry hentry with rfl | hentry
          · exact lt_of_not_lt_of_ne hne hlt
          · exact hfirst entry hentry

/-! ## Operations -/

/-- The map in which a name has a value and all others have what they had. -/
def insert (m : NameMap α) (name : String) (value : α) : NameMap α :=
  ⟨insertEntry name value m.entries, ordered_insertEntry name value m.ordered⟩

/-- The map in which a name has no value and all others have what they had. -/
def erase (m : NameMap α) (name : String) : NameMap α :=
  ⟨m.entries.filter fun entry => entry.1 ≠ name, m.ordered.filter _⟩

/-- The names, in order. -/
def names (m : NameMap α) : List String := m.entries.map Prod.fst

/-- The values, in the order of their names. -/
def values (m : NameMap α) : List α := m.entries.map Prod.snd

/-- The sum of a count over all values. -/
def total (m : NameMap α) (count : α → Nat) : Nat :=
  m.values.foldr (fun value rest => count value + rest) 0

/-- How many names have a value. -/
def size (m : NameMap α) : Nat := m.entries.length

/-- The map with each value put through a function that sees its name. -/
def mapWithName (f : String → α → β) (m : NameMap α) : NameMap β :=
  ⟨m.entries.map fun (name, value) => (name, f name value), m.ordered.map _ fun _ _ h => h⟩

/-- The map with one function applied to every value. -/
def map (f : α → β) (m : NameMap α) : NameMap β := m.mapWithName fun _ => f

/-! ## Looking up -/

theorem find?_insertEntry_self (name : String) (value : α) (entries : List (String × α)) :
    find? name (insertEntry name value entries) = some value := by
  induction entries with
  | nil => simp [insertEntry, find?]
  | cons entry rest ih =>
      obtain ⟨other, held⟩ := entry
      unfold insertEntry
      split
      · simp [find?]
      · split
        · simp [find?]
        · simp_all [find?]

theorem find?_insertEntry_of_ne {name other : String} (value : α)
    (entries : List (String × α)) (h : other ≠ name) :
    find? other (insertEntry name value entries) = find? other entries := by
  induction entries with
  | nil => simp [insertEntry, find?, h]
  | cons entry rest ih =>
      obtain ⟨key, held⟩ := entry
      unfold insertEntry
      split
      · simp_all [find?]
      · split
        · simp [find?, h]
        · simp [find?, ih]

/-- A name has the value that was put under it last. -/
@[simp] theorem get?_insert_self (m : NameMap α) (name : String) (value : α) :
    (m.insert name value).get? name = some value :=
  find?_insertEntry_self name value m.entries

/-- Putting a value under one name leaves the others alone. -/
theorem get?_insert_of_ne (m : NameMap α) {name other : String} (value : α)
    (h : other ≠ name) : (m.insert name value).get? other = m.get? other :=
  find?_insertEntry_of_ne value m.entries h

theorem find?_filter_ne (name other : String) (entries : List (String × α)) :
    find? other (entries.filter fun entry => entry.1 ≠ name) =
      if other = name then none else find? other entries := by
  induction entries with
  | nil => simp [find?]
  | cons entry rest ih =>
      obtain ⟨key, held⟩ := entry
      by_cases hk : key = name <;> by_cases ho : other = key <;> simp_all [find?]

/-- A removed name has no value. -/
@[simp] theorem get?_erase_self (m : NameMap α) (name : String) :
    (m.erase name).get? name = none := by
  simp only [get?, erase, find?_filter_ne, if_pos]

/-- Removing one name leaves the others alone. -/
theorem get?_erase_of_ne (m : NameMap α) {name other : String} (h : other ≠ name) :
    (m.erase name).get? other = m.get? other := by
  simp only [get?, erase, find?_filter_ne, if_neg h]

theorem get?_insert (m : NameMap α) (name other : String) (value : α) :
    (m.insert name value).get? other = if other = name then some value else m.get? other := by
  split
  · rename_i h
    rw [h, get?_insert_self]
  · rename_i h
    rw [get?_insert_of_ne m value h]

theorem find?_map (f : String → α → β) (name : String) (entries : List (String × α)) :
    find? name (entries.map fun entry => (entry.1, f entry.1 entry.2)) =
      (find? name entries).map (f name) := by
  induction entries with
  | nil => rfl
  | cons entry rest ih =>
      obtain ⟨key, held⟩ := entry
      by_cases h : name = key
      · simp [find?, h]
      · simp [find?, h, ih]

@[simp] theorem get?_mapWithName (f : String → α → β) (m : NameMap α) (name : String) :
    (m.mapWithName f).get? name = (m.get? name).map (f name) :=
  find?_map f name m.entries

/-! ## Entries -/

/-- A name that no entry has is not found. -/
theorem find?_eq_none {name : String} {entries : List (String × α)}
    (h : ∀ entry ∈ entries, name ≠ entry.1) : find? name entries = none := by
  induction entries with
  | nil => rfl
  | cons entry rest ih =>
      have hne := h entry List.mem_cons_self
      have hrest := ih fun other hother => h other (List.mem_cons_of_mem _ hother)
      simp [find?, hne, hrest]

theorem find?_tail_eq_none {name : String} {value : α} {rest : List (String × α)}
    (h : ((name, value) :: rest).Pairwise fun a b => a.1 < b.1) : find? name rest = none :=
  find?_eq_none fun entry hentry => String.ne_of_lt ((List.pairwise_cons.1 h).1 entry hentry)

theorem mem_iff_find?_eq_some {name : String} {value : α} {entries : List (String × α)}
    (h : entries.Pairwise fun a b => a.1 < b.1) :
    (name, value) ∈ entries ↔ find? name entries = some value := by
  induction entries with
  | nil => simp [find?]
  | cons entry rest ih =>
      obtain ⟨key, held⟩ := entry
      obtain ⟨hfirst, hrest⟩ := List.pairwise_cons.1 h
      by_cases hname : name = key
      · subst hname
        have hnot : (name, value) ∉ rest := fun hmem =>
          String.lt_irrefl name (hfirst _ hmem)
        simp [find?, hnot, eq_comm]
      · simp [find?, hname, ih hrest]

/-- The entries are what can be looked up. -/
theorem mem_entries_iff {m : NameMap α} {name : String} {value : α} :
    (name, value) ∈ m.entries ↔ m.get? name = some value :=
  mem_iff_find?_eq_some m.ordered

theorem mem_names_iff {m : NameMap α} {name : String} :
    name ∈ m.names ↔ ∃ value, m.get? name = some value := by
  simp only [names, List.mem_map, Prod.exists, mem_entries_iff]
  constructor
  · rintro ⟨_, value, h, rfl⟩
    exact ⟨value, h⟩
  · rintro ⟨value, h⟩
    exact ⟨name, value, h, rfl⟩

theorem all_values_iff {m : NameMap α} {p : α → Bool} :
    m.values.all p = true ↔ ∀ name value, m.get? name = some value → p value = true := by
  simp only [values, List.all_map, List.all_eq_true, Function.comp, Prod.forall, mem_entries_iff]

theorem names_nodup (m : NameMap α) : m.names.Nodup :=
  List.pairwise_map.2 (m.ordered.imp fun h => String.ne_of_lt h)

theorem entries_ext {entries entries' : List (String × α)}
    (h : entries.Pairwise fun a b => a.1 < b.1) (h' : entries'.Pairwise fun a b => a.1 < b.1)
    (hget : ∀ name, find? name entries = find? name entries') : entries = entries' := by
  induction entries generalizing entries' with
  | nil =>
      cases entries' with
      | nil => rfl
      | cons entry rest => simpa [find?] using hget entry.1
  | cons entry rest ih =>
      obtain ⟨key, held⟩ := entry
      cases entries' with
      | nil => simpa [find?] using hget key
      | cons entry' rest' =>
          obtain ⟨key', held'⟩ := entry'
          obtain ⟨hfirst, hrest⟩ := List.pairwise_cons.1 h
          obtain ⟨hfirst', hrest'⟩ := List.pairwise_cons.1 h'
          -- each key is found on the other side, and neither can be below the other
          have hmem : (key, held) ∈ (key', held') :: rest' :=
            (mem_iff_find?_eq_some h').2 (by rw [← hget]; simp [find?])
          have hmem' : (key', held') ∈ (key, held) :: rest :=
            (mem_iff_find?_eq_some h).2 (by rw [hget]; simp [find?])
          have hkey : key = key' := by
            rcases List.mem_cons.1 hmem with heq | hin
            · exact congrArg Prod.fst heq
            · rcases List.mem_cons.1 hmem' with heq | hin'
              · exact (congrArg Prod.fst heq).symm
              · exact absurd (hfirst' _ hin) (String.lt_asymm (hfirst _ hin'))
          subst hkey
          have hheld : held = held' := by simpa [find?] using hget key
          subst hheld
          congr 1
          apply ih hrest hrest'
          intro name
          by_cases hname : name = key
          · subst hname
            rw [find?_tail_eq_none h, find?_tail_eq_none h']
          · simpa [find?, hname] using hget name

/-- Maps that answer alike are alike. -/
theorem ext_get? {m m' : NameMap α} (h : ∀ name, m.get? name = m'.get? name) : m = m' := by
  obtain ⟨entries, ordered⟩ := m
  obtain ⟨entries', ordered'⟩ := m'
  have heq : entries = entries' := entries_ext ordered ordered' h
  subst heq
  rfl

/-- The value put under a name last is the one that counts. -/
theorem insert_insert (m : NameMap α) (name : String) (value value' : α) :
    (m.insert name value).insert name value' = m.insert name value' := by
  apply ext_get?
  intro other
  simp only [get?_insert]
  split <;> rfl

end NameMap

end KernelDispatch
