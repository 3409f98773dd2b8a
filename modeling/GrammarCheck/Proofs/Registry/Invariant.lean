import GrammarCheck.Registry.Basic
import Mathlib.Data.List.Nodup

/-! What holds of every registry, however it came about. Main statement: a registry that was built, read,
known or selected from another is not empty, and its names are well formed and differ, so that a name
finds the one entry that has it. -/
namespace GrammarCheck.Registry

structure WellFormed (registry : Registry) : Prop where
  nonempty : registry.entries ≠ []
  named : ∀ entry ∈ registry.entries, entry.name ≠ "" ∧
    ∀ c ∈ entry.name.toList, 'a' ≤ c ∧ c ≤ 'z' ∨ '0' ≤ c ∧ c ≤ '9' ∨ c = '_' ∨ c = '-'
  distinct : (registry.entries.map (·.name)).Nodup

theorem nameFault?_cons_eq_none {taken : List String} {first : Entry} {rest : List Entry} :
    nameFault? taken (first :: rest) = none ↔ isGrammarName first.name = true ∧ first.name ∉ taken ∧
      nameFault? (first.name :: taken) rest = none := by
  rw [nameFault?]
  by_cases valid : isGrammarName first.name = true
  · by_cases free : first.name ∈ taken <;> simp [valid, free]
  · simp [valid]

theorem nameFault?_eq_none {taken : List String} {entries : List Entry} : nameFault? taken entries = none ↔
    (∀ entry ∈ entries, isGrammarName entry.name = true) ∧ (entries.map (·.name)).Nodup ∧
      ∀ entry ∈ entries, entry.name ∉ taken := by
  induction entries generalizing taken with
  | nil => simp [nameFault?]
  | cons first rest ih =>
    rw [nameFault?_cons_eq_none, ih, List.map_cons, List.nodup_cons, List.forall_mem_cons, List.forall_mem_cons]
    constructor
    · intro first
      obtain ⟨valid, free, names, distinct, others⟩ := first
      refine ⟨⟨valid, names⟩, ⟨fun again => ?_, distinct⟩, free, fun entry inside taken => ?_⟩
      · obtain ⟨entry, inside, same⟩ := List.mem_map.mp again
        exact others entry inside (same ▸ .head _)
      · exact others entry inside (.tail _ taken)
    · intro all
      obtain ⟨⟨valid, names⟩, ⟨fresh, distinct⟩, free, others⟩ := all
      refine ⟨valid, free, names, distinct, fun entry inside taken => ?_⟩
      rcases List.mem_cons.mp taken with same | taken
      · exact fresh (same ▸ List.mem_map_of_mem inside)
      · exact others entry inside taken

theorem nameFault?_names {taken : List String} {entries : List Entry} {fault : RegistryError}
    (found : nameFault? taken entries = some fault) : ∃ name, fault = .invalidName name ∨ fault = .duplicate name := by
  fun_induction nameFault? taken entries with
  | case1 => contradiction
  | case2 _ entry => cases found; exact ⟨entry.name, .inl rfl⟩
  | case3 _ entry => cases found; exact ⟨entry.name, .inr rfl⟩
  | case4 _ _ _ _ _ ih => exact ih found

theorem wellFormed_iff {registry : Registry} :
    registry.WellFormed ↔ registry.entries ≠ [] ∧ nameFault? [] registry.entries = none := by
  rw [nameFault?_eq_none]
  constructor
  · intro formed
    exact ⟨formed.nonempty, fun entry inside => isGrammarName_iff.mpr (formed.named entry inside),
      formed.distinct, fun _ _ => List.not_mem_nil⟩
  · intro passed
    obtain ⟨nonempty, names, distinct, _⟩ := passed
    exact ⟨nonempty, fun entry inside => isGrammarName_iff.mp (names entry inside), distinct⟩

theorem ofEntries_eq_ok {entries : List Entry} {registry : Registry} :
    ofEntries entries = .ok registry ↔ registry.entries = entries ∧ registry.WellFormed := by
  obtain ⟨kept⟩ := registry
  rw [wellFormed_iff, ofEntries]
  cases entries with
  | nil => simp +contextual
  | cons first rest =>
    rw [if_neg (by simp)]
    cases fault : nameFault? [] (first :: rest) with
    | none =>
      simp only [Except.ok.injEq, mk.injEq]
      constructor
      · intro same
        subst same
        exact ⟨rfl, by simp, fault⟩
      · exact fun same => same.1.symm
    | some error =>
      simp only [reduceCtorEq, false_iff, not_and]
      rintro rfl _
      simp [fault]

theorem known_names (dir : Path) : (known dir).entries.map (·.name) = knownNames := rfl

/-- The known grammars are taken as they are, so their names have to be right. -/
theorem known_wellFormed (dir : Path) : (known dir).WellFormed := by
  constructor
  case nonempty => simp [known, knownNames]
  case named =>
    intro entry inside
    have listed : entry.name ∈ knownNames := known_names dir ▸ List.mem_map_of_mem inside
    have valid : ∀ name ∈ knownNames, isGrammarName name = true := by decide
    exact isGrammarName_iff.mp (valid _ listed)
  case distinct =>
    rw [known_names]
    decide

/-- A registry at the end of some history of the ways to come by one, with any arguments. -/
inductive Reachable : Registry → Prop
  | ofEntries {entries : List Entry} {registry : Registry}
      (built : ofEntries entries = .ok registry) : Reachable registry
  | ofText {text : String} {base : Path} {registry : Registry}
      (read : ofText text base = .ok registry) : Reachable registry
  | load {readText : Path → Option String} {path : Path} {registry : Registry}
      (loaded : load readText path = .ok registry) : Reachable registry
  | known (dir : Path) : Reachable (known dir)
  | select {registry selected : Registry} {names : List String} (reached : Reachable registry)
      (kept : registry.select names = .ok selected) : Reachable selected

theorem ofText_wellFormed {text : String} {base : Path} {registry : Registry}
    (read : ofText text base = .ok registry) : registry.WellFormed := by
  unfold ofText at read
  split at read
  · exact nomatch read
  · exact (ofEntries_eq_ok.mp read).2

theorem load_wellFormed {readText : Path → Option String} {path : Path} {registry : Registry}
    (loaded : load readText path = .ok registry) : registry.WellFormed := by
  unfold load at loaded
  split at loaded
  · exact nomatch loaded
  · exact ofText_wellFormed loaded

theorem select_wellFormed {registry selected : Registry} {names : List String}
    (kept : registry.select names = .ok selected) : selected.WellFormed := by
  unfold select at kept
  split at kept
  · exact nomatch kept
  · exact (ofEntries_eq_ok.mp kept).2

theorem Reachable.wellFormed {registry : Registry} (reached : Reachable registry) : registry.WellFormed := by
  induction reached with
  | ofEntries built => exact (ofEntries_eq_ok.mp built).2
  | ofText read => exact ofText_wellFormed read
  | load loaded => exact load_wellFormed loaded
  | known dir => exact known_wellFormed dir
  | select _ kept _ => exact select_wellFormed kept

theorem WellFormed.eq_of_name {registry : Registry} (formed : registry.WellFormed) {first second : Entry}
    (one : first ∈ registry.entries) (other : second ∈ registry.entries) (same : first.name = second.name) :
    first = second := List.inj_on_of_nodup_map formed.distinct one other same

theorem WellFormed.get?_eq_some {registry : Registry} (formed : registry.WellFormed) {name : String}
    {entry : Entry} : registry.get? name = some entry ↔ entry ∈ registry.entries ∧ entry.name = name := by
  constructor
  · intro found
    exact ⟨List.mem_of_find?_eq_some found, by simpa using List.find?_some found⟩
  · intro listed
    obtain ⟨inside, named⟩ := listed
    cases found : registry.get? name with
    | none => exact absurd named (by simpa using List.find?_eq_none.mp found entry inside)
    | some first =>
      have same : first.name = name := by simpa using List.find?_some found
      exact congrArg some (formed.eq_of_name (List.mem_of_find?_eq_some found) inside (same.trans named.symm))

theorem lookup_of_reachable {registry : Registry} (reached : Reachable registry) :
    registry.WellFormed ∧ registry.isEmpty = false ∧ ∀ name entry, registry.get? name = some entry ↔
      entry ∈ registry.entries ∧ entry.name = name ∧
        ∀ other ∈ registry.entries, other.name = name → other = entry := by
  have formed := reached.wellFormed
  refine ⟨formed, List.isEmpty_eq_false_iff.mpr formed.nonempty, fun name entry => ?_⟩
  rw [formed.get?_eq_some]
  constructor
  · intro listed
    obtain ⟨inside, named⟩ := listed
    exact ⟨inside, named, fun other listed same => formed.eq_of_name listed inside (same.trans named.symm)⟩
  · exact fun ⟨inside, named, _⟩ => ⟨inside, named⟩

def nyxAlone : Registry := ⟨[Entry.ofName ⟨"build"⟩ "nyx"]⟩

/-- The second of the known grammars alone, got by naming it twice. -/
theorem lookup_of_known_select : Reachable nyxAlone ∧ nyxAlone.WellFormed ∧ nyxAlone.isEmpty = false ∧
    ∀ name entry, nyxAlone.get? name = some entry ↔ entry ∈ nyxAlone.entries ∧ entry.name = name ∧
      ∀ other ∈ nyxAlone.entries, other.name = name → other = entry := by
  have kept : (known ⟨"build"⟩).select ["nyx", "nyx"] = .ok nyxAlone := rfl
  have reached := Reachable.select (.known ⟨"build"⟩) kept
  exact ⟨reached, lookup_of_reachable reached⟩

end GrammarCheck.Registry
