import GrammarCheck.Proofs.Path
import GrammarCheck.Proofs.Registry.Invariant
import GrammarCheck.Proofs.Registry.Meaning
import Mathlib.Data.List.Forall2

/-! Moving a registry file to another directory. Main statement: what is read is the same, error or
entries, with every path seen from the new directory. What the file gives as absolute stays where it is. -/
namespace GrammarCheck

def Provider.within (dir : Path) : Provider → Provider
  | .linked language => .linked language
  | .library path symbol => .library (dir.join path) symbol

/-- The entry with all its paths seen from `dir`. -/
def Entry.within (dir : Path) (entry : Entry) : Entry :=
  { entry with
    provider := entry.provider.within dir
    grammarJson := entry.grammarJson.map dir.join
    sample := entry.sample.map dir.join }

def Registry.within (dir : Path) (registry : Registry) : Registry := ⟨registry.entries.map (Entry.within dir)⟩

/-- The absolute paths of a spec are in its entry as they are. -/
structure GrammarSpec.Anchored (spec : GrammarSpec) (entry : Entry) : Prop where
  library : ∀ file ∈ spec.library, Path.isAbsolute ⟨file⟩ = true → ∃ symbol, entry.provider = .library ⟨file⟩ symbol
  grammarJson : ∀ file ∈ spec.grammarJson, Path.isAbsolute ⟨file⟩ = true → entry.grammarJson = some ⟨file⟩
  sample : ∀ file ∈ spec.sample, Path.isAbsolute ⟨file⟩ = true → entry.sample = some ⟨file⟩

theorem GrammarSpec.entry_join (base dir : Path) (spec : GrammarSpec) :
    spec.entry (base.join dir) = (spec.entry dir).within base := by
  simp only [entry, Entry.within, Provider.within, Path.join_assoc, Option.map_map, Function.comp_def]

theorem GrammarSpec.anchored_entry (spec : GrammarSpec) (dir : Path) : spec.Anchored (spec.entry dir) := by
  constructor
  case library =>
    intro file given absolute
    have named : spec.library = some file := given
    simp only [entry, named, Option.getD_some, Path.join_of_absolute absolute]
    exact ⟨_, rfl⟩
  case grammarJson =>
    intro file given absolute
    rw [entry, Option.mem_def.mp given, Option.map_some, Path.join_of_absolute absolute]
  case sample =>
    intro file given absolute
    rw [entry, Option.mem_def.mp given, Option.map_some, Path.join_of_absolute absolute]

namespace RegistryFile

theorem dir_join (base dir : Path) (file : RegistryFile) : file.dir (base.join dir) = base.join (file.dir dir) := by
  unfold RegistryFile.dir
  cases file.grammarDir with
  | none => rfl
  | some given => exact Path.join_assoc base dir ⟨given⟩

theorem dir_of_absolute {file : RegistryFile} {given : String} (named : file.grammarDir = some given)
    (absolute : Path.isAbsolute ⟨given⟩ = true) (base : Path) : file.dir base = ⟨given⟩ := by
  rw [RegistryFile.dir, named]
  exact Path.join_of_absolute absolute base

end RegistryFile

namespace Registry

theorem nameFault?_within (dir : Path) (taken : List String) (entries : List Entry) :
    nameFault? taken (entries.map (Entry.within dir)) = nameFault? taken entries := by
  induction entries generalizing taken with
  | nil => rfl
  | cons first rest ih => simp only [List.map_cons, nameFault?, ih, Entry.within]

theorem ofEntries_within (dir : Path) (entries : List Entry) :
    ofEntries (entries.map (Entry.within dir)) = (ofEntries entries).map (within dir) := by
  rw [ofEntries, ofEntries, nameFault?_within, List.isEmpty_map]
  by_cases empty : entries.isEmpty = true
  · rw [if_pos empty, if_pos empty]
    rfl
  · rw [if_neg empty, if_neg empty]
    cases nameFault? [] entries <;> rfl

theorem ofFile_join (base dir : Path) (file : RegistryFile) :
    ofFile (base.join dir) file = (ofFile dir file).map (within base) := by
  have entries : file.grammars.map (GrammarSpec.entry (file.dir (base.join dir))) =
      (file.grammars.map (GrammarSpec.entry (file.dir dir))).map (Entry.within base) := by
    rw [file.dir_join, List.map_map]
    exact List.map_congr_left fun spec _ => spec.entry_join base (file.dir dir)
  rw [ofFile_eq_ofEntries, ofFile_eq_ofEntries, entries, ofEntries_within]

theorem ofText_of_file {text : String} {file : RegistryFile} (decoded : RegistryFile.ofText text = .ok file)
    (base : Path) : ofText text base = ofFile base file := by
  rw [ofText, decoded]

/-- What a text gives at one place and what it gives at others. -/
structure Relocates (text : String) : Prop where
  moved : ∀ base dir, ofText text (base.join dir) = (ofText text dir).map (within base)
  rooted : ∀ file, RegistryFile.ofText text = .ok file →
    ∀ given ∈ file.grammarDir, Path.isAbsolute ⟨given⟩ = true → ∀ base other, ofText text base = ofText text other
  anchored : ∀ file, RegistryFile.ofText text = .ok file → ∀ base registry, ofText text base = .ok registry →
    List.Forall₂ GrammarSpec.Anchored file.grammars registry.entries

theorem relocates_of_text (text : String) : Relocates text where
  moved := by
    intro base dir
    cases decoded : RegistryFile.ofText text with
    | error fault =>
      rw [ofText, ofText, decoded]
      rfl
    | ok file => rw [ofText_of_file decoded, ofText_of_file decoded, ofFile_join]
  rooted := by
    intro file decoded given named absolute base other
    rw [ofText_of_file decoded, ofText_of_file decoded, ofFile_eq_ofEntries, ofFile_eq_ofEntries,
      RegistryFile.dir_of_absolute named absolute, RegistryFile.dir_of_absolute named absolute]
  anchored := by
    intro file decoded base registry read
    rw [ofText_of_file decoded, ofFile_eq_ofEntries] at read
    have kept := (ofEntries_eq_ok.mp read).1
    rw [kept, List.forall₂_map_right_iff, List.forall₂_same]
    exact fun spec _ => spec.anchored_entry (file.dir base)

def rootedText : String :=
  "\x7b\"grammar_dir\":\"/g\",\"grammars\":[\x7b\"name\":\"a\",\"library\":\"l\",\"sample\":\"/s\"\x7d]\x7d"

/-- Whether the text gives the directory and a registry of one entry with the sample. -/
def givesRooted (text dir sample : String) : Bool :=
  match RegistryFile.ofText text, ofText text ⟨"x"⟩ with
  | .ok file, .ok registry =>
    file.grammarDir == some dir && Path.isAbsolute ⟨dir⟩ && registry.entries.map (·.sample) == [some ⟨sample⟩]
  | _, _ => false

/-- An absolute directory and a path that leaves it, with one registry wherever the file lies. -/
theorem relocates_of_rootedText : ∃ file registry, RegistryFile.ofText rootedText = .ok file ∧
    (∀ base, ofText rootedText base = .ok registry) ∧ registry.entries.map (·.sample) = [some ⟨"/s"⟩] ∧
    List.Forall₂ GrammarSpec.Anchored file.grammars registry.entries := by
  have given : givesRooted rootedText "/g" "/s" = true := by decide +kernel
  unfold givesRooted at given
  split at given
  · next file registry decoded read =>
    simp only [Bool.and_eq_true, beq_iff_eq] at given
    obtain ⟨⟨named, absolute⟩, samples⟩ := given
    have relocates := relocates_of_text rootedText
    have fixed := fun base => (relocates.rooted file decoded "/g" named absolute base ⟨"x"⟩).trans read
    exact ⟨file, registry, decoded, fixed, samples, relocates.anchored file decoded _ registry read⟩
  · contradiction

end Registry
end GrammarCheck
