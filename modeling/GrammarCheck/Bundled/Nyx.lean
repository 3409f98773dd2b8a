import GrammarCheck.Bundled.Nyx.Draft
import GrammarCheck.Language

/-! A language of statements, each a word and a semicolon. -/
namespace GrammarCheck.Bundled.Nyx

def symbols : List Language.Symbol :=
  [⟨"end", false, false, false⟩, ⟨"word", true, true, false⟩, ⟨";", true, false, false⟩,
    ⟨"program", true, true, false⟩, ⟨"stmt", true, true, false⟩]

def parse (source : String) : SyntaxTree :=
  Draft.finalTree (Mark.endOf source) ((lexemesOfText true source).foldl Draft.readAll [.empty])

def language : Language := .ofSymbols Language.firstNamedAbi (some "nyx") symbols parse

end GrammarCheck.Bundled.Nyx
