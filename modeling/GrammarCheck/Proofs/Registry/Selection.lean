import GrammarCheck.Proofs.Registry.Invariant

/-! Selecting grammars from a registry by their names. Main statements: one name selects the one entry that
has it, unchanged, and a name that no entry has is refused. Names in any order and number select the
entries that have them, in the order of the registry, and selecting again is selecting at once. -/
namespace GrammarCheck.Registry

theorem get?_eq_none {registry : Registry} {name : String} :
    registry.get? name = none ↔ name ∉ registry.entries.map (·.name) := by
  simp [get?]

theorem select_of_unknown {registry : Registry} {names : List String} {name : String}
    (first : (names.find? fun name => (registry.get? name).isNone) = some name) :
    registry.select names = .error (.unknown name) := by
  rw [select, first]

theorem select_of_known {registry : Registry} {names : List String}
    (known : ∀ name ∈ names, name ∈ registry.entries.map (·.name)) :
    registry.select names = ofEntries (registry.entries.filter fun entry => names.contains entry.name) := by
  have found : (names.find? fun name => (registry.get? name).isNone) = none := by
    refine List.find?_eq_none.mpr fun name listed => ?_
    rw [Option.isNone_iff_eq_none, get?_eq_none]
    exact not_not_intro (known name listed)
  rw [select, found]

theorem WellFormed.filter {registry : Registry} (formed : registry.WellFormed) {kept : Entry → Bool}
    (keptSome : registry.entries.filter kept ≠ []) : WellFormed ⟨registry.entries.filter kept⟩ where
  nonempty := keptSome
  named := fun entry inside => formed.named entry (List.mem_filter.mp inside).1
  distinct := formed.distinct.sublist (List.filter_sublist.map _)

theorem WellFormed.filter_name {registry : Registry} (formed : registry.WellFormed) {entry : Entry}
    (inside : entry ∈ registry.entries) :
    (registry.entries.filter fun other => [entry.name].contains other.name) = [entry] := by
  refine List.perm_singleton.mp ((List.perm_ext_iff_of_nodup ?_ (List.nodup_singleton entry)).mpr fun other => ?_)
  · exact (List.Nodup.of_map _ formed.distinct).filter _
  · rw [List.mem_filter, List.contains_iff_mem, List.mem_singleton, List.mem_singleton]
    constructor
    · exact fun ⟨listed, same⟩ => formed.eq_of_name listed inside same
    · rintro rfl
      exact ⟨inside, rfl⟩

theorem WellFormed.select_name {registry : Registry} (formed : registry.WellFormed) {entry : Entry}
    (inside : entry ∈ registry.entries) : registry.select [entry.name] = .ok ⟨[entry]⟩ := by
  have only := formed.filter_name inside
  have single : WellFormed ⟨[entry]⟩ := only ▸ formed.filter (by rw [only]; exact List.cons_ne_nil _ _)
  rw [select_of_known fun name listed => List.mem_singleton.mp listed ▸ List.mem_map_of_mem inside, only]
  exact ofEntries_eq_ok.mpr ⟨rfl, single⟩

theorem select_unregistered {registry : Registry} {name : String}
    (absent : name ∉ registry.entries.map (·.name)) : registry.select [name] = .error (.unknown name) := by
  have none := get?_eq_none.mpr absent
  exact select_of_unknown (by rw [List.find?_cons, none]; rfl)

/-- The first of these names that is not among the known ones. -/
def FirstOutside (known names : List String) (name : String) : Prop :=
  ∃ before after, names = before ++ name :: after ∧ name ∉ known ∧ ∀ other ∈ before, other ∈ known

theorem firstOutside_or (known names : List String) :
    (∃ name, FirstOutside known names name) ∨ ∀ name ∈ names, name ∈ known := by
  induction names with
  | nil => exact .inr fun _ absent => nomatch absent
  | cons first rest ih =>
    by_cases here : first ∈ known
    · obtain ⟨name, before, after, rfl, outside, inside⟩ | all := ih
      · exact .inl ⟨name, first :: before, after, rfl, outside, List.forall_mem_cons.mpr ⟨here, inside⟩⟩
      · exact .inr (List.forall_mem_cons.mpr ⟨here, all⟩)
    · exact .inl ⟨first, [], rest, rfl, here, fun _ absent => nomatch absent⟩

theorem FirstOutside.congr {known others names : List String} {name : String}
    (same : ∀ name, name ∈ known ↔ name ∈ others) (first : FirstOutside known names name) :
    FirstOutside others names name := by
  obtain ⟨before, after, split, outside, inside⟩ := first
  exact ⟨before, after, split, outside ∘ (same name).mpr, fun other listed => (same other).mp (inside other listed)⟩

theorem select_of_firstOutside {registry : Registry} {names : List String} {name : String}
    (first : FirstOutside (registry.entries.map (·.name)) names name) :
    registry.select names = .error (.unknown name) := by
  obtain ⟨before, after, split, outside, inside⟩ := first
  refine select_of_unknown (List.find?_eq_some_iff_append.mpr ⟨?_, before, after, split, ?_⟩)
  · rw [get?_eq_none.mpr outside]
    rfl
  · intro other listed
    have found : registry.get? other ≠ none := fun absent => get?_eq_none.mp absent (inside other listed)
    simpa [Option.isSome_iff_ne_none] using found

theorem select_nil (registry : Registry) : registry.select [] = .error .empty := by
  rw [select_of_known (List.forall_mem_nil _)]
  simp [ofEntries]

/-- The entries of these names, as they were and in the order they had, each of them once. -/
structure Keeps (registry : Registry) (names : List String) (selected : Registry) : Prop where
  ordered : selected.entries.Sublist registry.entries
  once : selected.entries.Nodup
  exact : ∀ entry, entry ∈ selected.entries ↔ entry ∈ registry.entries ∧ entry.name ∈ names

/-- Names that are well formed and differ. There may be none. -/
structure Named (registry : Registry) : Prop where
  named : ∀ entry ∈ registry.entries, entry.name ≠ "" ∧
    ∀ c ∈ entry.name.toList, 'a' ≤ c ∧ c ≤ 'z' ∨ '0' ≤ c ∧ c ≤ '9' ∨ c = '_' ∨ c = '-'
  distinct : (registry.entries.map (·.name)).Nodup

/-- The entries that have one of these names. -/
def among (registry : Registry) (names : List String) : Registry :=
  ⟨registry.entries.filter fun entry => names.contains entry.name⟩

section
variable {registry : Registry} {names : List String}

theorem mem_among {entry : Entry} :
    entry ∈ (registry.among names).entries ↔ entry ∈ registry.entries ∧ entry.name ∈ names := by
  simp [among]

theorem Named.among (named : registry.Named) (names : List String) : (registry.among names).Named where
  named := fun entry inside => named.named entry (mem_among.mp inside).1
  distinct := named.distinct.sublist (List.filter_sublist.map _)

theorem Named.keeps_among (named : registry.Named) (names : List String) :
    registry.Keeps names (registry.among names) where
  ordered := List.filter_sublist
  once := (List.Nodup.of_map _ named.distinct).filter _
  exact := fun _ => mem_among

theorem Named.select_eq_among (named : registry.Named) (nonempty : names ≠ [])
    (known : ∀ name ∈ names, name ∈ registry.entries.map (·.name)) :
    registry.select names = .ok (registry.among names) := by
  obtain ⟨name, rest, rfl⟩ := List.exists_cons_of_ne_nil nonempty
  obtain ⟨entry, inside, same⟩ := List.mem_map.mp (known name (.head _))
  have kept : entry ∈ (registry.among (name :: rest)).entries := mem_among.mpr ⟨inside, same ▸ .head _⟩
  obtain ⟨valid, distinct⟩ := named.among (name :: rest)
  rw [select_of_known known]
  exact ofEntries_eq_ok.mpr ⟨rfl, List.ne_nil_of_mem kept, valid, distinct⟩

theorem Named.select_cases (named : registry.Named) (names : List String) :
    (∃ name, registry.select names = .error (.unknown name)) ∨ registry.select names = .error .empty ∨
      names ≠ [] ∧ (∀ name ∈ names, name ∈ registry.entries.map (·.name)) ∧
        registry.select names = .ok (registry.among names) := by
  obtain ⟨name, first⟩ | known := firstOutside_or (registry.entries.map (·.name)) names
  · exact .inl ⟨name, select_of_firstOutside first⟩
  · by_cases nonempty : names = []
    · exact .inr (.inl (nonempty ▸ select_nil registry))
    · exact .inr (.inr ⟨nonempty, known, named.select_eq_among nonempty known⟩)

theorem Named.of_select (named : registry.Named) {selected : Registry}
    (ok : registry.select names = .ok selected) : names ≠ [] ∧
      (∀ name ∈ names, name ∈ registry.entries.map (·.name)) ∧ selected = registry.among names := by
  obtain ⟨name, unknown⟩ | empty | ⟨nonempty, known, kept⟩ := named.select_cases names
  · exact nomatch ok.symm.trans unknown
  · exact nomatch ok.symm.trans empty
  · exact ⟨nonempty, known, Except.ok.inj (ok.symm.trans kept)⟩

theorem among_congr {others : List String} (same : ∀ name, name ∈ names ↔ name ∈ others) :
    registry.among names = registry.among others := by
  have listed (entry : Entry) : names.contains entry.name = others.contains entry.name := by
    rw [Bool.eq_iff_iff, List.contains_iff_mem, List.contains_iff_mem, same]
  simp only [among, listed]

theorem among_among {others : List String} (inside : ∀ name ∈ others, name ∈ names) :
    (registry.among names).among others = registry.among others := by
  rw [among, among, among, List.filter_filter]
  congr 1
  refine List.filter_congr fun entry _ => ?_
  rw [Bool.eq_iff_iff, Bool.and_eq_true, List.contains_iff_mem, List.contains_iff_mem]
  exact ⟨And.left, fun listed => ⟨listed, inside _ listed⟩⟩

/-- Names that are all known are the names of what they select. -/
theorem mem_names_among (known : ∀ name ∈ names, name ∈ registry.entries.map (·.name)) (name : String) :
    name ∈ (registry.among names).entries.map (·.name) ↔ name ∈ names := by
  rw [List.mem_map]
  constructor
  · rintro ⟨entry, inside, rfl⟩
    exact (mem_among.mp inside).2
  · intro listed
    obtain ⟨entry, inside, rfl⟩ := List.mem_map.mp (known name listed)
    exact ⟨entry, mem_among.mpr ⟨inside, listed⟩, rfl⟩

end

/-- How a registry answers to lists of names. -/
structure SelectsByName (registry : Registry) : Prop where
  unknown : ∀ names name, FirstOutside (registry.entries.map (·.name)) names name →
    registry.select names = .error (.unknown name)
  empty : registry.select [] = .error .empty
  kept : ∀ names, names ≠ [] → (∀ name ∈ names, name ∈ registry.entries.map (·.name)) →
    ∃ selected, registry.select names = .ok selected ∧ registry.Keeps names selected
  valid : ∀ names name, registry.select names ≠ .error (.invalidName name) ∧
    registry.select names ≠ .error (.duplicate name)
  unordered : ∀ names others selected, registry.select names = .ok selected →
    (∀ name, name ∈ names ↔ name ∈ others) → registry.select others = .ok selected
  again : ∀ names selected, registry.select names = .ok selected → ∀ others,
    (∀ name ∈ others, name ∈ names) → selected.select others = registry.select others
  outside : ∀ names selected, registry.select names = .ok selected → ∀ others name,
    FirstOutside names others name → selected.select others = .error (.unknown name)

theorem selectsByName_of_named {registry : Registry} (named : registry.Named) : registry.SelectsByName where
  unknown := fun _ _ first => select_of_firstOutside first
  empty := select_nil registry
  kept := fun names nonempty known => ⟨_, named.select_eq_among nonempty known, named.keeps_among names⟩
  valid := by
    intro names name
    obtain ⟨_, same⟩ | same | ⟨_, _, same⟩ := named.select_cases names <;> simp [same]
  unordered := by
    intro names others selected ok same
    obtain ⟨nonempty, known, rfl⟩ := named.of_select ok
    obtain ⟨name, listed⟩ := List.exists_mem_of_ne_nil names nonempty
    rw [among_congr same]
    exact named.select_eq_among (List.ne_nil_of_mem ((same name).mp listed))
      fun other inside => known other ((same other).mpr inside)
  again := by
    intro names selected ok others inside
    obtain ⟨_, known, rfl⟩ := named.of_select ok
    by_cases nonempty : others = []
    · rw [nonempty, select_nil, select_nil]
    · rw [named.select_eq_among nonempty fun name listed => known name (inside name listed),
        (named.among names).select_eq_among nonempty fun name listed =>
          (mem_names_among known name).mpr (inside name listed), among_among inside]
  outside := by
    intro names selected ok others name first
    obtain ⟨_, known, rfl⟩ := named.of_select ok
    exact select_of_firstOutside (first.congr fun other => (mem_names_among known other).symm)

/-- Both known grammars, the last one first and named twice, and one of them out of the other. -/
theorem selectsByName_known : (known ⟨"build"⟩).Named ∧ (known ⟨"build"⟩).SelectsByName ∧
    (known ⟨"build"⟩).select ["nyx", "fig", "nyx"] = .ok (known ⟨"build"⟩) ∧
    (known ⟨"build"⟩).select ["nyx", "rust", "fig", "go"] = .error (.unknown "rust") ∧
    nyxAlone.select ["nyx", "fig"] = .error (.unknown "fig") := by
  obtain ⟨_, valid, distinct⟩ := known_wellFormed ⟨"build"⟩
  have law := selectsByName_of_named ⟨valid, distinct⟩
  have alone : (known ⟨"build"⟩).select ["nyx"] = .ok nyxAlone := rfl
  exact ⟨⟨valid, distinct⟩, law, rfl, law.unknown _ "rust" ⟨["nyx"], ["fig", "go"], rfl, by decide, by decide⟩,
    law.outside _ nyxAlone alone _ "fig" ⟨["nyx"], [], rfl, by decide, by decide⟩⟩

end GrammarCheck.Registry
