import GrammarCheck.Language
import GrammarCheck.Registry.Names
import GrammarCheck.RegistryFile.Reading
import GrammarCheck.Text.Quoted

/-! Entries of a registry: a grammar, where its language comes from, and the files it is checked
against. -/
namespace GrammarCheck

/-- Where a language comes from: from this program, where it may be null, or from a library. -/
inductive Provider where
  | linked (language : Option Language)
  | library (path : Path) (symbol : String)

def Provider.description : Provider → String
  | linked _ => "Static"
  | library path symbol =>
    s!"Library \x7b path: {Text.quoted path.text}, symbol: {Text.quoted symbol} \x7d"

structure Entry where
  name : String
  displayName : String
  provider : Provider
  grammarJson : Option Path
  sample : Option Path

namespace Entry

def ofProvider (name : String) (provider : Provider) : Entry :=
  ⟨name, defaultDisplayName name, provider, none, none⟩

/-- The entry of a grammar whose library and files lie in `dir`, with defaults for what is not said. -/
def ofSpec (dir : Path) (spec : GrammarSpec) : Entry where
  name := spec.name
  displayName := spec.displayName.getD (defaultDisplayName spec.name)
  provider := .library
    (match spec.library with
      | some file => dir.join ⟨file⟩
      | none => defaultLibrary dir spec.name)
    (spec.symbol.getD (defaultSymbol spec.name))
  grammarJson := spec.grammarJson.map fun file => dir.join ⟨file⟩
  sample := spec.sample.map fun file => dir.join ⟨file⟩

def ofName (dir : Path) (name : String) : Entry := ofSpec dir ⟨name, none, none, none, none, none⟩

end Entry
end GrammarCheck
