/-! Kinds of nodes. Two kinds of one name differ if one of them is named and the other is not. -/
namespace GrammarCheck

structure NodeKind where
  name : String
  named : Bool
deriving DecidableEq

end GrammarCheck
