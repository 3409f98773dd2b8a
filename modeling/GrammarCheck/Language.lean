import GrammarCheck.NodeKind
import GrammarCheck.SyntaxTree

/-! Languages as a checker meets them: the version of the binary interface, the name, if the language
tells one, the kinds of nodes it knows, and how it parses. -/
namespace GrammarCheck

structure Language where
  abi : Nat
  name? : Option String
  resolves : NodeKind → Bool
  parse : String → SyntaxTree

namespace Language

structure Symbol where
  name : String
  visible : Bool
  named : Bool
  supertype : Bool

def Symbol.isOfKind (symbol : Symbol) (kind : NodeKind) : Bool :=
  (symbol.visible || symbol.supertype) && symbol.named == kind.named && symbol.name == kind.name

def errorName : List Char := "ERROR".toList

/-- The kind of error nodes, which every language knows, by its name or any shorter start of it.
What follows a NUL after the whole name does not count. -/
def isErrorKind (kind : NodeKind) : Bool :=
  let name := kind.name.toList
  kind.named && (name.isPrefixOf errorName || (errorName ++ ['\x00']).isPrefixOf name)

/-- The first version of the interface in which a language can tell its name. -/
def firstNamedAbi : Nat := 15

def ofSymbols (abi : Nat) (name? : Option String) (symbols : List Symbol) (parse : String → SyntaxTree) :
    Language where
  abi := abi
  name? := if firstNamedAbi ≤ abi then name? else none
  resolves kind := isErrorKind kind || symbols.any (·.isOfKind kind)
  parse := parse

/-- A language that knows its symbols and recognises nothing in any text. -/
def ofTable (abi : Nat) (name? : Option String) (symbols : List Symbol) : Language :=
  ofSymbols abi name? symbols fun _ => .error ⟨0, 0⟩

end Language
end GrammarCheck
