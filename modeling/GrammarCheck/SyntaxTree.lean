/-! Syntax trees. Each node tells whether it is an error, whether it stands for a missing token, and
whether there is a fault anywhere in its subtree. -/
namespace GrammarCheck

/-- A place in a text. Rows and the bytes of a row count from zero. -/
structure Position where
  row : Nat
  column : Nat
deriving DecidableEq

def Position.after (position : Position) (c : Char) : Position :=
  if c = '\n' then ⟨position.row + 1, 0⟩ else ⟨position.row, position.column + c.utf8Size⟩

structure SyntaxNode where
  kind : String
  start : Position
  isError : Bool
  isMissing : Bool
  hasError : Bool
deriving DecidableEq

def SyntaxNode.isFault (node : SyntaxNode) : Bool := node.isError || node.isMissing

inductive SyntaxTree where
  | node (root : SyntaxNode) (children : List SyntaxTree)

namespace SyntaxTree

def root : SyntaxTree → SyntaxNode
  | node root _ => root

def children : SyntaxTree → List SyntaxTree
  | node _ children => children

def leaf (kind : String) (start : Position) : SyntaxTree := node ⟨kind, start, false, false, false⟩ []

/-- A stretch of text that fits nowhere, around what could be read inside it. -/
def errorAround (start : Position) (children : List SyntaxTree) : SyntaxTree :=
  node ⟨"ERROR", start, true, false, true⟩ children

def error (start : Position) : SyntaxTree := errorAround start []

def missing (kind : String) (start : Position) : SyntaxTree := node ⟨kind, start, false, true, true⟩ []

def branch (kind : String) (start : Position) (children : List SyntaxTree) : SyntaxTree :=
  node ⟨kind, start, false, false, children.any (·.root.hasError)⟩ children

end SyntaxTree
end GrammarCheck
