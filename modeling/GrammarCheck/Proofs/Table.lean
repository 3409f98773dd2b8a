import GrammarCheck.Table
import Mathlib.Data.List.Nodup

/-! Tables as sets of entries: a table is known by what its look-ups answer, and one that is filled from
entries under distinct names answers with these. -/
namespace GrammarCheck.Table
variable {α : Type}

theorem nodup_keys (table : Table α) : table.keys.Nodup :=
  List.pairwise_map.mpr (table.ascending.imp fun less => Std.ne_of_lt less)

theorem nodup_entries (table : Table α) : table.entries.Nodup := List.Nodup.of_map Prod.fst table.nodup_keys

theorem eq_of_get? {table other : Table α}
    (alike : ∀ name value, table.get? name = some value ↔ other.get? name = some value) : table = other := by
  have members : ∀ entry, entry ∈ table.entries ↔ entry ∈ other.entries := fun ⟨name, value⟩ => by
    rw [← get?_eq_some, ← get?_eq_some]
    exact alike name value
  have listed : table.entries.Perm other.entries :=
    (List.perm_ext_iff_of_nodup table.nodup_entries other.nodup_entries).mpr members
  have same : table.entries = other.entries :=
    List.Perm.eq_of_pairwise (fun _ _ _ _ less more => absurd less (String.lt_asymm more)) table.ascending
      other.ascending listed
  cases table
  cases other
  congr

/-- The table of the entries. Of several under one name the last counts. -/
def ofEntries (entries : List (String × α)) : Table α :=
  entries.foldl (fun table entry => table.insert entry.1 entry.2) empty

theorem get?_foldl_insert {entries : List (String × α)} (once : (entries.map Prod.fst).Nodup) (table : Table α)
    (name : String) (value : α) :
    (entries.foldl (fun table entry => table.insert entry.1 entry.2) table).get? name = some value ↔
      (name, value) ∈ entries ∨ name ∉ entries.map Prod.fst ∧ table.get? name = some value := by
  induction entries generalizing table with
  | nil => simp
  | cons entry entries ih =>
    obtain ⟨key, given⟩ := entry
    obtain ⟨fresh, once⟩ := List.nodup_cons.mp once
    rw [List.foldl_cons, ih once, get?_insert, List.mem_cons, List.map_cons, List.mem_cons]
    by_cases same : key = name
    · subst same
      have absent : (key, value) ∉ entries := fun inside => fresh (List.mem_map.mpr ⟨_, inside, rfl⟩)
      simp [fresh, absent, eq_comm]
    · simp [same, Ne.symm same]

theorem mem_of_get?_foldl_insert {entries : List (String × α)} {table : Table α} {name : String} {value : α}
    (found : (entries.foldl (fun table entry => table.insert entry.1 entry.2) table).get? name = some value) :
    (name, value) ∈ entries ∨ table.get? name = some value := by
  induction entries generalizing table with
  | nil => exact .inr found
  | cons entry entries ih =>
    rcases ih found with inside | before
    · exact .inl (.tail _ inside)
    · rw [get?_insert] at before
      split at before
      · next same =>
        cases same
        cases before
        exact .inl (.head _)
      · exact .inr before

/-- Whatever the names are, all that a table of entries answers with is from an entry. -/
theorem mem_of_get?_ofEntries {entries : List (String × α)} {name : String} {value : α}
    (found : (ofEntries entries).get? name = some value) : (name, value) ∈ entries :=
  (mem_of_get?_foldl_insert found).resolve_right (by simp [get?, find?, empty])

theorem get?_ofEntries {entries : List (String × α)} (once : (entries.map Prod.fst).Nodup) (name : String) (value : α) :
    (ofEntries entries).get? name = some value ↔ (name, value) ∈ entries := by
  rw [ofEntries, get?_foldl_insert once]
  simp [get?, find?, empty]

end GrammarCheck.Table
