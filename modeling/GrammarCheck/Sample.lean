import GrammarCheck.Language
import GrammarCheck.Path

/-! Samples: texts that a loaded language is made to parse, and the faults in the tree that comes of
it. -/
namespace GrammarCheck

/-- Whether a subtree is looked into when faults are counted. -/
def SyntaxTree.isFaulty (tree : SyntaxTree) : Bool := tree.root.hasError || tree.root.isMissing

structure SampleReport where
  rootKind : String
  errorCount : Nat
  firstError : Option Position

namespace SampleReport

def isClean (report : SampleReport) : Bool := report.errorCount == 0

/-- The report after one more node. The place of the first fault stays. -/
def visit (report : SampleReport) (node : SyntaxNode) : SampleReport :=
  if node.isFault then
    { report with
      errorCount := report.errorCount + 1
      firstError := some (report.firstError.getD node.start) }
  else report

mutual

/-- Counts the faults of a tree in document order. Subtrees that have none are passed over. -/
def countFaults (report : SampleReport) : SyntaxTree → SampleReport
  | .node root children => countFaultsBelow (report.visit root) children

def countFaultsBelow (report : SampleReport) : List SyntaxTree → SampleReport
  | [] => report
  | child :: rest => countFaultsBelow (if child.isFaulty then report.countFaults child else report) rest

end

def ofTree (tree : SyntaxTree) : SampleReport :=
  let report : SampleReport := ⟨tree.root.kind, 0, none⟩
  if tree.root.hasError then report.countFaults tree else report

end SampleReport

/-- Why there is no report on a sample. A loaded language is one that a parser takes, and a parser that is
given neither a time limit nor a way to be called off always comes to a tree. -/
inductive SampleError where
  | unreadable (path : Path)

def SampleError.message : SampleError → String
  | .unreadable path => s!"could not read sample {path.text}"

namespace Language

def parseSample (language : Language) (source : String) : SampleReport :=
  .ofTree (language.parse source)

def loadSample (readText : Path → Option String) (language : Language) (path : Path) :
    Except SampleError SampleReport :=
  match readText path with
  | some source => .ok (language.parseSample source)
  | none => .error (.unreadable path)

end Language
end GrammarCheck
