import KernelDispatch.NameMap
import Mathlib.Algebra.GroupWithZero.Nat

/-!
# Totals over named values

A total adds up one number for each value. When one name changes, the total
changes by what that name counted for before and counts for now, so a balance
between totals can be followed through one operation at a time.

## Main results

* `NameMap.total_insert`, `NameMap.total_erase` — what becomes of a total.
* `NameMap.total_eq_zero` — nothing counts.
-/

namespace KernelDispatch

namespace NameMap

variable {α β : Type}

/-- What a count makes of the value of a name, if it has one. -/
def share (m : NameMap α) (name : String) (count : α → Nat) : Nat :=
  ((m.get? name).map count).getD 0

theorem total_eq_sum (m : NameMap α) (count : α → Nat) :
    m.total count = (m.entries.map fun entry => count entry.2).sum := by
  unfold total values
  induction m.entries with
  | nil => rfl
  | cons entry rest ih => simp [ih]

@[simp] theorem total_empty (count : α → Nat) : (empty : NameMap α).total count = 0 := rfl

theorem sum_insertEntry (name : String) (value : α) (count : α → Nat)
    {entries : List (String × α)} (h : entries.Pairwise fun a b => a.1 < b.1) :
    ((insertEntry name value entries).map fun entry => count entry.2).sum +
        ((find? name entries).map count).getD 0 =
      (entries.map fun entry => count entry.2).sum + count value := by
  induction entries with
  | nil => simp [insertEntry, find?]
  | cons entry rest ih =>
      obtain ⟨key, held⟩ := entry
      obtain ⟨hfirst, hrest⟩ := List.pairwise_cons.1 h
      unfold insertEntry
      split
      · rename_i heq
        simp only [heq, find?, if_pos, List.map_cons, List.sum_cons, Option.map_some,
          Option.getD_some]
        omega
      · rename_i hne
        split
        · rename_i hlt
          have hnone : find? name rest = none := by
            refine find?_eq_none fun entry hentry => ?_
            exact String.ne_of_lt (String.lt_trans hlt (hfirst entry hentry))
          simp only [find?, if_neg hne, hnone, List.map_cons, List.sum_cons, Option.map_none,
            Option.getD_none]
          omega
        · have := ih hrest
          simp only [find?, if_neg hne, List.map_cons, List.sum_cons]
          omega

/-- A sum over all values, with one value put in the place of another. -/
theorem total_insert (m : NameMap α) (name : String) (value : α) (count : α → Nat) :
    (m.insert name value).total count + m.share name count = m.total count + count value := by
  rw [total_eq_sum, total_eq_sum]
  exact sum_insertEntry name value count m.ordered

theorem sum_filter_ne (name : String) (count : α → Nat) {entries : List (String × α)}
    (h : entries.Pairwise fun a b => a.1 < b.1) :
    ((entries.filter fun entry => entry.1 ≠ name).map fun entry => count entry.2).sum +
        ((find? name entries).map count).getD 0 =
      (entries.map fun entry => count entry.2).sum := by
  induction entries with
  | nil => simp [find?]
  | cons entry rest ih =>
      obtain ⟨key, held⟩ := entry
      have hrest := ih (List.pairwise_cons.1 h).2
      by_cases hkey : key = name
      · subst hkey
        rw [find?_tail_eq_none h] at hrest
        simp only [find?, if_pos, ne_eq, not_true_eq_false, decide_false, Bool.false_eq_true,
          not_false_eq_true, List.filter_cons_of_neg, List.map_cons, List.sum_cons,
          Option.map_some, Option.getD_some]
        simp only [Option.map_none, Option.getD_none, ne_eq] at hrest
        omega
      · have hne : name ≠ key := fun heq => hkey heq.symm
        simp only [find?, if_neg hne, ne_eq, hkey, not_false_eq_true, decide_true,
          List.filter_cons_of_pos, List.map_cons, List.sum_cons]
        simp only [ne_eq] at hrest
        omega

/-- A sum over all values is what one name adds to it and what the others do. -/
theorem total_erase (m : NameMap α) (name : String) (count : α → Nat) :
    (m.erase name).total count + m.share name count = m.total count := by
  rw [total_eq_sum, total_eq_sum]
  exact sum_filter_ne name count m.ordered

/-- A sum stays as it is where no value counts for more or less than before. -/
theorem total_mapWithName {f : String → α → β} (m : NameMap α) {count : α → Nat}
    {count' : β → Nat} (h : ∀ name value, count' (f name value) = count value) :
    (m.mapWithName f).total count' = m.total count := by
  rw [total_eq_sum, total_eq_sum, mapWithName, List.map_map]
  congr 1
  apply List.map_congr_left
  intro entry _
  exact h entry.1 entry.2

theorem total_add (m : NameMap α) (count count' : α → Nat) :
    (m.total fun value => count value + count' value) = m.total count + m.total count' := by
  rw [total_eq_sum, total_eq_sum, total_eq_sum]
  induction m.entries with
  | nil => rfl
  | cons entry rest ih =>
      simp only [List.map_cons, List.sum_cons, ih]
      omega

theorem names_map (f : α → β) (m : NameMap α) : (m.map f).names = m.names := by
  simp [map, mapWithName, names, Function.comp_def]

theorem values_map (f : α → β) (m : NameMap α) : (m.map f).values = m.values.map f := by
  simp [map, mapWithName, values, Function.comp_def]

theorem size_eq_total (m : NameMap α) : m.size = m.total fun _ => 1 := by
  rw [total_eq_sum, size]
  induction m.entries with
  | nil => rfl
  | cons entry rest ih =>
      rw [List.length_cons, List.map_cons, List.sum_cons, ih, Nat.add_comm]

theorem total_eq_zero {m : NameMap α} {count : α → Nat}
    (h : ∀ name value, m.get? name = some value → count value = 0) : m.total count = 0 := by
  rw [total_eq_sum]
  refine List.sum_eq_zero_iff_forall_eq_nat.2 ?_
  intro n hn
  obtain ⟨entry, hentry, rfl⟩ := List.mem_map.1 hn
  exact h entry.1 entry.2 (mem_entries_iff.1 hentry)

end NameMap

end KernelDispatch
