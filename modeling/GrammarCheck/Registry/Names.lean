import GrammarCheck.Path
import GrammarCheck.Text.Capital

/-! Names of grammars, and what follows from a name where an entry says nothing else: the symbol to
look up, the file of the library and the name to show. -/
namespace GrammarCheck

/-- Small ASCII letters, digits, underscores and hyphens, at least one. -/
def isGrammarName (name : String) : Bool :=
  !name.isEmpty && name.toList.all fun c => c.isLower || c.isDigit || c == '_' || c == '-'

theorem isLower_iff {c : Char} : c.isLower = true ↔ 'a' ≤ c ∧ c ≤ 'z' := by
  show (_ && _) = true ↔ _
  exact Bool.and_eq_true_iff.trans (and_congr decide_eq_true_iff decide_eq_true_iff)

theorem isGrammarName_iff {name : String} : isGrammarName name = true ↔
    name ≠ "" ∧ ∀ c ∈ name.toList, 'a' ≤ c ∧ c ≤ 'z' ∨ '0' ≤ c ∧ c ≤ '9' ∨ c = '_' ∨ c = '-' := by
  simp [isGrammarName, isLower_iff, Char.isDigit, Char.le_def, or_assoc]

def defaultSymbol (name : String) : String :=
  "tree_sitter_" ++ String.ofList (name.toList.map fun c => if c = '-' then '_' else c)

def libraryFile (name : String) : Path := ⟨"libtree-sitter-" ++ name ++ ".so"⟩

def defaultLibrary (dir : Path) (name : String) : Path := dir.join (libraryFile name)

def defaultDisplayName (name : String) : String := Text.capitalized name

end GrammarCheck
