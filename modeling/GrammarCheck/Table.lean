/-! Values by name. The entries ascend by name, so two tables that answer alike are equal, whatever
order they were filled in. Main statements: what inserting does to a look-up, and that a look-up finds
the entries and nothing else. -/
namespace GrammarCheck

structure Table (α : Type) where
  entries : List (String × α)
  ascending : entries.Pairwise (fun a b => a.1 < b.1)

namespace Table
variable {α : Type}

def empty : Table α := ⟨[], .nil⟩

def isEmpty (table : Table α) : Bool := table.entries.isEmpty

def keys (table : Table α) : List String := table.entries.map (·.1)

def values (table : Table α) : List α := table.entries.map (·.2)

def find? (entries : List (String × α)) (name : String) : Option α :=
  (entries.find? (·.1 == name)).map (·.2)

def get? (table : Table α) (name : String) : Option α := find? table.entries name

def insertEntry (name : String) (value : α) : List (String × α) → List (String × α)
  | [] => [(name, value)]
  | first :: rest =>
    if name < first.1 then (name, value) :: first :: rest
    else if name = first.1 then (name, value) :: rest
    else first :: insertEntry name value rest

theorem key_insertEntry {name key : String} {value : α} {entries : List (String × α)}
    (member : key ∈ (insertEntry name value entries).map (·.1)) :
    key = name ∨ key ∈ entries.map (·.1) := by
  fun_induction insertEntry name value entries with
  | case1 => simpa using member
  | case2 => simpa using member
  | case3 rest first _ same => simp only [List.map_cons, List.mem_cons] at member ⊢; exact member.imp_right .inr
  | case4 rest first _ _ ih =>
    simp only [List.map_cons, List.mem_cons] at member ⊢
    rcases member with rfl | member
    · exact .inr (.inl rfl)
    · exact (ih member).imp_right .inr

theorem ascending_insertEntry (name : String) (value : α) {entries : List (String × α)}
    (ascending : entries.Pairwise (fun a b => a.1 < b.1)) :
    (insertEntry name value entries).Pairwise (fun a b => a.1 < b.1) := by
  fun_induction insertEntry name value entries with
  | case1 => simp
  | case2 rest first less =>
    refine List.pairwise_cons.mpr ⟨fun other member => ?_, ascending⟩
    rcases List.mem_cons.mp member with rfl | member
    · exact less
    · exact String.lt_trans less ((List.pairwise_cons.mp ascending).1 other member)
  | case3 rest first _ same =>
    subst same
    exact List.pairwise_cons.mpr ⟨fun other => (List.pairwise_cons.mp ascending).1 other,
      (List.pairwise_cons.mp ascending).2⟩
  | case4 rest first notLess different ih =>
    obtain ⟨above, ordered⟩ := List.pairwise_cons.mp ascending
    refine List.pairwise_cons.mpr ⟨fun other member => ?_, ih ordered⟩
    rcases key_insertEntry (List.mem_map_of_mem member) with same | member
    · rw [same]
      exact Std.lt_of_le_of_ne (String.not_lt.mp notLess) (Ne.symm different)
    · obtain ⟨entry, inside, same⟩ := List.mem_map.mp member
      rw [← same]
      exact above entry inside

def insert (table : Table α) (name : String) (value : α) : Table α :=
  ⟨insertEntry name value table.entries, ascending_insertEntry name value table.ascending⟩

theorem get?_insert (table : Table α) (name other : String) (value : α) :
    (table.insert name value).get? other = if name = other then some value else table.get? other := by
  have look (entries : List (String × α)) : find? (insertEntry name value entries) other =
      if name = other then some value else find? entries other := by
    fun_induction insertEntry name value entries <;> grind [find?]
  exact look table.entries

theorem get?_eq_some {table : Table α} {name : String} {value : α} :
    table.get? name = some value ↔ (name, value) ∈ table.entries := by
  obtain ⟨entries, ascending⟩ := table
  show find? entries name = some value ↔ (name, value) ∈ entries
  induction entries with
  | nil => simp [find?]
  | cons first rest ih =>
    obtain ⟨above, ordered⟩ := List.pairwise_cons.mp ascending
    obtain ⟨key, found⟩ := first
    by_cases same : key = name
    · subst same
      have absent : (key, value) ∉ rest := fun inside => String.lt_irrefl key (above _ inside)
      simp [find?, absent, eq_comm]
    · have passed : find? ((key, found) :: rest) name = find? rest name := by simp [find?, same]
      rw [passed, ih ordered]
      simp [Ne.symm same]

theorem mem_keys {table : Table α} {name : String} :
    name ∈ table.keys ↔ ∃ value, table.get? name = some value := by
  simp [keys, get?_eq_some]

theorem mem_values {table : Table α} {value : α} :
    value ∈ table.values ↔ ∃ name, table.get? name = some value := by
  simp [values, get?_eq_some]

end Table
end GrammarCheck
