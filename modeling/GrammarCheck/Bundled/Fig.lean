import GrammarCheck.Bundled.Lexeme
import GrammarCheck.Language

/-! A language of words. -/
namespace GrammarCheck.Bundled.Fig

def symbols : List Language.Symbol :=
  [⟨"end", false, false, false⟩, ⟨"word", true, true, false⟩, ⟨"source_file", true, true, false⟩]

def tree : Lexeme → SyntaxTree
  | .word span => .leaf "word" span.start.position
  | .semicolon span | .junk span => .error span.start.position

def parse (source : String) : SyntaxTree :=
  .branch "source_file" ⟨0, 0⟩ ((lexemesOfText false source).map tree)

def language (abi : Nat) : Language := .ofSymbols abi (some "fig") symbols parse

end GrammarCheck.Bundled.Fig
