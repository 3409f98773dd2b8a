import GrammarCheck.Bundled.Lexeme
import GrammarCheck.SyntaxTree

/-! The parts of a program, which are statements of a word and a semicolon, and text that fits nowhere.
What does not fit has a cost, by which ways to read a program are compared. -/
namespace GrammarCheck.Bundled.Nyx

def errorCost : Nat := 500

def nodeCost : Nat := 100

def passingCost (span : Span) : Nat := span.bytes + 30 * span.lines

/-- What a token costs that has to be made up. -/
def mendingCost : Nat := errorCost + 110

/-- Skipped text, the number of nodes in it, and those of them that have nodes of their own. -/
structure Skipped where
  span : Span
  nodes : Nat
  inner : List SyntaxTree

namespace Skipped

def ofLexeme (span : Span) : Skipped := ⟨span, 1, []⟩

/-- The cost of the error, without that of the errors inside it. -/
def cost (text : Skipped) : Nat :=
  errorCost + nodeCost * text.nodes + passingCost text.span

def join (first last : Skipped) : Skipped :=
  ⟨first.span.through last.span, first.nodes + last.nodes, first.inner ++ last.inner⟩

def tree (text : Skipped) : SyntaxTree := .errorAround text.span.start.position text.inner

end Skipped

/-- A part of a program: skipped text, a statement with what was skipped inside it, or the word of a
statement whose semicolon is made up. -/
inductive Part where
  | skipped (text : Skipped)
  | statement (word : Span) (inner : Option Skipped) (semicolon : Span)
  | mended (word : Span)

namespace Part

def isStatement : Part → Bool
  | skipped _ => false
  | statement .. | mended _ => true

def span : Part → Span
  | skipped text => text.span
  | statement word _ semicolon => word.through semicolon
  | mended word => word

def cost : Part → Nat
  | skipped text => text.cost
  | statement _ none _ => 0
  | statement _ (some inner) _ => inner.cost
  | mended _ => mendingCost

def tree : Part → SyntaxTree
  | skipped text => text.tree
  | statement word inner semicolon =>
    .branch "stmt" word.start.position
      (.leaf "word" word.start.position ::
        inner.toList.map Skipped.tree ++ [.leaf ";" semicolon.start.position])
  | mended word =>
    .branch "stmt" word.start.position
      [.leaf "word" word.start.position, .missing ";" word.stop.position]

end Part

end GrammarCheck.Bundled.Nyx
