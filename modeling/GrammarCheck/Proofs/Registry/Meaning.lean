import GrammarCheck.Proofs.RegistryFile.Written
import GrammarCheck.Registry.Basic

/-! What a registry file means. Main statement: however a file is spelled as JSON, reading it gives the
registry of the entries that it describes, in its order. -/
namespace GrammarCheck
open Json (Value Lexeme HexDigit Spells Denotes)
open Text (units)

def RegistryFile.dir (base : Path) (file : RegistryFile) : Path :=
  match file.grammarDir with
  | some dir => base.join ⟨dir⟩
  | none => base

/-- The entry that is described, with everything that is not said taken from the name. -/
def GrammarSpec.entry (dir : Path) (spec : GrammarSpec) : Entry where
  name := spec.name
  displayName := spec.displayName.getD (defaultDisplayName spec.name)
  provider := .library
    (dir.join ⟨spec.library.getD ("libtree-sitter-" ++ spec.name ++ ".so")⟩)
    (spec.symbol.getD ("tree_sitter_" ++ spec.name.map fun c => if c = '-' then '_' else c))
  grammarJson := spec.grammarJson.map fun file => dir.join ⟨file⟩
  sample := spec.sample.map fun file => dir.join ⟨file⟩

theorem Entry.ofSpec_eq_entry (dir : Path) (spec : GrammarSpec) : ofSpec dir spec = spec.entry dir := by
  have symbol : defaultSymbol spec.name = "tree_sitter_" ++ spec.name.map fun c => if c = '-' then '_' else c := by
    rw [defaultSymbol, ← String.toList_map, String.ofList_toList]
  rw [ofSpec, symbol, GrammarSpec.entry]
  cases spec.library <;> rfl

theorem Registry.ofFile_eq_ofEntries (base : Path) (file : RegistryFile) :
    ofFile base file = ofEntries (file.grammars.map (GrammarSpec.entry (file.dir base))) := by
  have entries := List.map_congr_left fun spec (_ : spec ∈ file.grammars) => Entry.ofSpec_eq_entry (file.dir base) spec
  rw [← entries]
  rfl

theorem Registry.ofText_eq_ofEntries {text : String} {value : Value} {file : RegistryFile}
    (denotes : Denotes text value) (written : file.Written value) (base : Path) :
    ofText text base = ofEntries (file.grammars.map (GrammarSpec.entry (file.dir base))) := by
  rw [ofText, RegistryFile.ofText_of_denotes denotes written]
  exact ofFile_eq_ofEntries base file

def faceText : String := "\x7b\"grammars\":[\x7b\"sample\":\"\\uD83D\\uDE00\",\"na\\u006De\":\"a\"\x7d ]\x7d"

def faceFile : RegistryFile := ⟨none, [⟨"a", none, none, none, none, some "😀"⟩]⟩

def faceSpec : List (List Nat × Value) :=
  [(units "sample".toList, .string (units "😀".toList)), (units "name".toList, .string (units "a".toList))]

def faceValue : Value := .object [(units "grammars".toList, .list [.object faceSpec])]

theorem faceText_denotes : Denotes faceText faceValue := by
  have text : faceText.toList = ['{', '"', 'g', 'r', 'a', 'm', 'm', 'a', 'r', 's', '"', ':', '[', '{',
    '"', 's', 'a', 'm', 'p', 'l', 'e', '"', ':', '"', '\\', 'u', 'D', '8', '3', 'D', '\\', 'u', 'D', 'E', '0', '0', '"', ',',
    '"', 'n', 'a', '\\', 'u', '0', '0', '6', 'D', 'e', '"', ':', '"', 'a', '"', '}', ' ', ']', '}'] := by decide +kernel
  have digit : ∀ c ∈ ['0', '3', '6', '8'], HexDigit c (c.toNat - '0'.toNat) := by
    have small : ∀ c ∈ ['0', '3', '6', '8'], '0' ≤ c ∧ c ≤ '9' := by simp
    exact fun c listed => .digit (small c listed).1 (small c listed).2
  have zero := digit '0' (by decide)
  have capital : ∀ c ∈ ['D', 'E'], HexDigit c (10 + (c.toNat - 'A'.toNat)) := by
    have large : ∀ c ∈ ['D', 'E'], 'A' ≤ c ∧ c ≤ 'F' := by simp
    exact fun c listed => .capital (large c listed).1 (large c listed).2
  have d := capital 'D' (by decide)
  have plain {text : List Char} (letters : ∀ c ∈ text, ' ' ≤ c ∧ c ≠ '"' ∧ c ≠ '\\') : Spells text (units text) := by
    simpa using Json.spells_append letters .nil
  have grammars : Spells "grammars".toList (units "grammars".toList) := plain (by simp)
  have sample : Spells "sample".toList (units "sample".toList) := plain (by simp)
  have a : Spells "a".toList (units "a".toList) := plain (by simp)
  have name : Spells ("na".toList ++ ['\\', 'u', '0', '0', '6', 'D', 'e']) (units "name".toList) :=
    Json.spells_append (by simp) (.unit zero zero (digit '6' (by decide)) d
      (.plain (by simp) (by decide) (by decide) .nil))
  have face : Spells ['\\', 'u', 'D', '8', '3', 'D', '\\', 'u', 'D', 'E', '0', '0'] (units "😀".toList) :=
    .unit d (digit '8' (by decide)) (digit '3' (by decide)) d (.unit d (capital 'E' (by decide)) zero zero .nil)
  rw [Denotes, text]
  exact .cons .openObject <| .cons (.string grammars) <| .cons .colon <| .cons .openList <| .cons .openObject <|
    .cons (.string sample) <| .cons .colon <| .cons (.string face) <| .cons .comma <|
    .cons (.string name) <| .cons .colon <| .cons (.string a) <|
    .cons .closeObject <| .blank (by decide) <| .cons .closeList <| .cons .closeObject .nil

theorem faceFile_written : faceFile.Written faceValue := by
  have absent {members : List (List Nat × Value)} {key : String} (unknown : units key.toList ∉ members.map (·.1)) :
      Gives members key none := fun _ inside => absurd (List.mem_map_of_mem inside) unknown
  have spec : GrammarSpec.Written ⟨"a", none, none, none, none, some "😀"⟩ (.object faceSpec) :=
    .object ⟨by decide, by decide⟩ (.tail _ (.head _)) (absent (by decide)) (absent (by decide)) (absent (by decide))
      (absent (by decide)) (.head _)
  exact .object ⟨by decide, by decide⟩ (absent (by decide)) (.head _) (.cons spec .nil)

theorem faceFile_entry : GrammarSpec.entry ⟨"dir"⟩ ⟨"a", none, none, none, none, some "😀"⟩ =
    ⟨"a", "A", .library ⟨"dir/libtree-sitter-a.so"⟩ "tree_sitter_a", none, some ⟨"dir/😀"⟩⟩ := by
  have display : defaultDisplayName "a" = "A" := by decide +kernel
  have library : Path.join ⟨"dir"⟩ ⟨"libtree-sitter-" ++ "a" ++ ".so"⟩ = ⟨"dir/libtree-sitter-a.so"⟩ := by decide +kernel
  have symbol : "tree_sitter_" ++ ("a".map fun c => if c = '-' then '_' else c) = "tree_sitter_a" := by decide +kernel
  have sample : Path.join ⟨"dir"⟩ ⟨"😀"⟩ = ⟨"dir/😀"⟩ := by decide +kernel
  simp only [GrammarSpec.entry, Option.getD_none, Option.map_none, Option.map_some, display, library, symbol, sample]

/-- A face by the numbers of its two halves, a key with a letter by number, and a blank. -/
theorem ofText_faceText : Denotes faceText faceValue ∧ faceFile.Written faceValue ∧
    Registry.ofText faceText ⟨"dir"⟩ = Registry.ofEntries
      [⟨"a", "A", .library ⟨"dir/libtree-sitter-a.so"⟩ "tree_sitter_a", none, some ⟨"dir/😀"⟩⟩] := by
  refine ⟨faceText_denotes, faceFile_written, ?_⟩
  rw [Registry.ofText_eq_ofEntries faceText_denotes faceFile_written, ← faceFile_entry]
  rfl

end GrammarCheck
