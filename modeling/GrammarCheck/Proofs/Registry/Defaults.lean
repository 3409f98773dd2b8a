import GrammarCheck.Proofs.Registry.Relocation

/-! What a grammar gets from its name, if its file gives neither a library nor a symbol for it. Main
statement: in every registry that is read, these libraries lie right in the grammar directory, each in a
file of its own, and these symbols are identifiers. Names are only checked after the paths are made, so this
rests on the check of the whole registry. -/
namespace GrammarCheck

namespace Path

/-- One part of a path, which neither goes on nor leads out of the directory it is joined to. -/
structure IsFileName (file : String) : Prop where
  nonempty : file ≠ ""
  single : '/' ∉ file.toList
  notHere : file ≠ "."
  notAbove : file ≠ ".."

/-- What stands before the name of a file that lies in the directory. -/
def front (dir : Path) : String := if dir.text = "" then "" else dir.opened

theorem join_fileName {file : String} (name : IsFileName file) (dir : Path) :
    dir.join ⟨file⟩ = ⟨dir.front ++ file⟩ := by
  have relative : isAbsolute ⟨file⟩ = false := by
    refine beq_eq_false_iff_ne.mpr fun slash => name.single ?_
    exact List.mem_of_mem_head? (Option.mem_def.mpr slash)
  rw [front]
  split
  · next empty =>
    obtain ⟨text⟩ := dir
    cases empty
    rw [empty_join, String.empty_append]
  · next filled => exact join_of_relative filled relative

theorem join_fileName_inj {file other : String} (name : IsFileName file) (also : IsFileName other) {dir : Path} :
    dir.join ⟨file⟩ = dir.join ⟨other⟩ ↔ file = other := by
  rw [join_fileName name, join_fileName also, Path.mk.injEq, String.append_right_inj]

end Path

/-- The words that C keeps for itself. -/
def keywords : List String :=
  ["auto", "break", "case", "char", "const", "continue", "default", "do", "double", "else", "enum", "extern", "float",
    "for", "goto", "if", "inline", "int", "long", "register", "restrict", "return", "short", "signed", "sizeof", "static",
    "struct", "switch", "typedef", "union", "unsigned", "void", "volatile", "while", "_Alignas", "_Alignof", "_Atomic",
    "_Bool", "_Complex", "_Generic", "_Imaginary", "_Noreturn", "_Static_assert", "_Thread_local"]

/-- A name that C code can give to a function. -/
structure IsIdentifier (name : String) : Prop where
  letters : ∀ c ∈ name.toList, 'a' ≤ c ∧ c ≤ 'z' ∨ 'A' ≤ c ∧ c ≤ 'Z' ∨ '0' ≤ c ∧ c ≤ '9' ∨ c = '_'
  start : ∃ first ∈ name.toList.head?, ¬ ('0' ≤ first ∧ first ≤ '9')
  free : name ∉ keywords

section
variable {name : String} (valid : isGrammarName name = true)
include valid

theorem isFileName_of_isGrammarName : Path.IsFileName ("libtree-sitter-" ++ name ++ ".so") where
  nonempty := by simp
  single := by
    have flat : '/' ∉ name.toList := by
      intro inside
      have allowed := (isGrammarName_iff.mp valid).2 '/' inside
      simp at allowed
    simp [flat]
  notHere := by simp [← String.toList_inj]
  notAbove := by simp [← String.toList_inj]

theorem isIdentifier_of_isGrammarName :
    IsIdentifier ("tree_sitter_" ++ name.map fun c => if c = '-' then '_' else c) where
  letters := by
    intro c inside
    rw [String.toList_append, String.toList_map, List.mem_append] at inside
    rcases inside with fixed | given
    · have lower : ∀ c ∈ "tree_sitter_".toList, 'a' ≤ c ∧ c ≤ 'z' ∨ c = '_' := by simp
      exact (lower c fixed).imp_right fun same => .inr (.inr same)
    · obtain ⟨d, listed, rfl⟩ := List.mem_map.mp given
      have allowed := (isGrammarName_iff.mp valid).2 d listed
      split
      · exact .inr (.inr (.inr rfl))
      · next other =>
        rcases allowed with lower | digit | line | dash
        · exact .inl lower
        · exact .inr (.inr (.inl digit))
        · exact .inr (.inr (.inr line))
        · exact absurd dash other
  start := ⟨'t', by simp, by simp⟩
  free := by
    have apart : ∀ word ∈ keywords, word.toList.take 5 ≠ "tree_".toList := by decide +kernel
    intro kept
    exact apart _ kept (by simp)

end

/-- Nothing is said of grammar `i` that would place its library or name its symbol. -/
def RegistryFile.LeavesDefaults (file : RegistryFile) (i : Nat) : Prop :=
  ∃ spec, file.grammars[i]? = some spec ∧ spec.library = none ∧ spec.symbol = none

/-- The library and the symbol are those that the name of the entry calls for. -/
structure Entry.FollowsName (entry : Entry) (dir path : Path) (symbol : String) : Prop where
  provider : entry.provider = .library path symbol
  joined : path = dir.join ⟨"libtree-sitter-" ++ entry.name ++ ".so"⟩
  inside : path.text = dir.front ++ ("libtree-sitter-" ++ entry.name ++ ".so")
  file : Path.IsFileName ("libtree-sitter-" ++ entry.name ++ ".so")
  dashless : symbol = "tree_sitter_" ++ entry.name.map fun c => if c = '-' then '_' else c
  length : symbol.length = "tree_sitter_".length + entry.name.length
  identifier : IsIdentifier symbol

theorem GrammarSpec.followsName_entry {spec : GrammarSpec} (library : spec.library = none) (symbol : spec.symbol = none)
    (valid : isGrammarName spec.name = true) (dir : Path) : (spec.entry dir).FollowsName dir
      (dir.join ⟨"libtree-sitter-" ++ spec.name ++ ".so"⟩)
      ("tree_sitter_" ++ spec.name.map fun c => if c = '-' then '_' else c) where
  provider := by rw [entry, library, symbol, Option.getD_none, Option.getD_none]
  joined := rfl
  inside := congrArg Path.text (Path.join_fileName (isFileName_of_isGrammarName valid) dir)
  file := isFileName_of_isGrammarName valid
  dashless := rfl
  length := by rw [String.length_append, String.length_map, entry]
  identifier := isIdentifier_of_isGrammarName valid

namespace Registry

/-- The entries of the grammars that are left to their names do so, and have different libraries. -/
structure KeepsApart (registry : Registry) (file : RegistryFile) (dir : Path) : Prop where
  names : registry.entries.map (·.name) = file.grammars.map (·.name)
  each : ∀ i entry, file.LeavesDefaults i → registry.entries[i]? = some entry →
    ∃ path symbol, entry.FollowsName dir path symbol
  apart : ∀ i j, i ≠ j → file.LeavesDefaults i → file.LeavesDefaults j →
    ∀ entry other, registry.entries[i]? = some entry → registry.entries[j]? = some other →
    ∀ path symbol place mark, entry.provider = .library path symbol → other.provider = .library place mark → path ≠ place

theorem keepsApart_ofFile {base : Path} {file : RegistryFile} {registry : Registry}
    (read : ofFile base file = .ok registry) : registry.KeepsApart file (file.dir base) := by
  rw [ofFile_eq_ofEntries] at read
  obtain ⟨kept, formed⟩ := ofEntries_eq_ok.mp read
  have follows : ∀ i entry, file.LeavesDefaults i → registry.entries[i]? = some entry →
      ∃ path symbol, entry.FollowsName (file.dir base) path symbol := by
    intro i entry unsaid found
    obtain ⟨spec, given, library, symbol⟩ := unsaid
    have same : registry.entries[i]? = some (spec.entry (file.dir base)) := by
      rw [kept, List.getElem?_map, given, Option.map_some]
    cases same.symm.trans found
    have valid := isGrammarName_iff.mpr (formed.named _ (List.mem_of_getElem? found))
    exact ⟨_, _, GrammarSpec.followsName_entry library symbol valid (file.dir base)⟩
  refine ⟨by rw [kept, List.map_map]; rfl, follows, ?_⟩
  intro i j different unsaid also entry other found listed path symbol place mark provided given same
  obtain ⟨_, _, own⟩ := follows i entry unsaid found
  obtain ⟨_, _, next⟩ := follows j other also listed
  cases own.provider.symm.trans provided
  cases next.provider.symm.trans given
  rw [own.joined, next.joined, Path.join_fileName_inj own.file next.file, String.append_left_inj,
    String.append_right_inj] at same
  -- so the names are the same, and a name is at one place only
  obtain ⟨bound, _⟩ := List.getElem?_eq_some_iff.mp found
  refine different ((List.getElem?_inj (by simpa using bound) formed.distinct).mp ?_)
  rw [List.getElem?_map, List.getElem?_map, found, listed, Option.map_some, Option.map_some, same]

theorem keepsApart_of_text {text : String} {base : Path} {registry : Registry}
    (read : ofText text base = .ok registry) :
    ∃ file, RegistryFile.ofText text = .ok file ∧ registry.KeepsApart file (file.dir base) := by
  cases decoded : RegistryFile.ofText text with
  | error fault => rw [ofText, decoded] at read; contradiction
  | ok file =>
    rw [ofText_of_file decoded] at read
    exact ⟨file, rfl, keepsApart_ofFile read⟩

deriving instance DecidableEq for GrammarSpec

def dashedText : String :=
  "\x7b\"grammar_dir\":\"/g/\",\"grammars\":[\x7b\"name\":\"a-b\"\x7d,\x7b\"name\":\"a_b\"\x7d]\x7d"

/-- Two grammars with one symbol in an absolute directory. -/
theorem keepsApart_of_dashedText : ∃ registry file, ofText dashedText ⟨"x"⟩ = .ok registry ∧
    registry.entries.map (·.name) = ["a-b", "a_b"] ∧ RegistryFile.ofText dashedText = .ok file ∧
    file.LeavesDefaults 0 ∧ file.LeavesDefaults 1 ∧ registry.KeepsApart file (file.dir ⟨"x"⟩) := by
  have accepted : (ofText dashedText ⟨"x"⟩).isOk = true := by decide +kernel
  have specs : (RegistryFile.ofText dashedText).toOption.map (·.grammars) =
      some [⟨"a-b", none, none, none, none, none⟩, ⟨"a_b", none, none, none, none, none⟩] := by decide +kernel
  cases read : ofText dashedText ⟨"x"⟩ with
  | error => rw [read] at accepted; contradiction
  | ok registry =>
    obtain ⟨file, decoded, apart⟩ := keepsApart_of_text read
    rw [decoded] at specs
    have grammars : file.grammars = _ := Option.some.inj specs
    have unsaid (i : Nat) (spec : GrammarSpec) (given : file.grammars[i]? = some spec)
        (plain : spec.library = none ∧ spec.symbol = none) : file.LeavesDefaults i := ⟨spec, given, plain⟩
    refine ⟨registry, file, rfl, ?_, decoded, unsaid 0 _ (by rw [grammars]; rfl) ⟨rfl, rfl⟩,
      unsaid 1 _ (by rw [grammars]; rfl) ⟨rfl, rfl⟩, apart⟩
    rw [apart.names, grammars]
    rfl

end Registry
end GrammarCheck
