/-! Sets of characters, given by the lengths of their runs in code point order. The first run lies
outside the set, and membership alternates from run to run. -/
namespace GrammarCheck.Text

def inRunsFrom : Bool → List Nat → Nat → Bool
  | inside, [], _ => inside
  | inside, run :: runs, n => if n < run then inside else inRunsFrom (!inside) runs (n - run)

def inRuns (runs : List Nat) (n : Nat) : Bool := inRunsFrom false runs n

end GrammarCheck.Text
