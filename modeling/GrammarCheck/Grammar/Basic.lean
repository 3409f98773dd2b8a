import GrammarCheck.Grammar.Rule
import GrammarCheck.Table

/-! A grammar definition, as far as it decides which kinds of nodes a language has. -/
namespace GrammarCheck

structure Grammar where
  name : String
  rules : Table Rule
  extras : Option (List Rule)
  externals : Option (List Rule)
  inline : Option (List String)
  conflicts : Option (List (List String))
  word : Option String
  supertypes : Option (List String)

/-- Whether a name marks what it names as hidden from syntax trees. -/
def isHiddenName (name : String) : Bool := name.toList.head? == some '_'

namespace Grammar

def isInlined (grammar : Grammar) (rule : String) : Bool := (grammar.inline.getD []).contains rule

def externalNames (grammar : Grammar) : List String :=
  (grammar.externals.getD []).filterMap Rule.symbolName?

theorem mem_externalNames {grammar : Grammar} {name : String} : name ∈ grammar.externalNames ↔
    ∃ entry ∈ grammar.externals.getD [], entry.kind = .symbol ∧ entry.name = some name := by
  simp [externalNames, List.mem_filterMap, Rule.symbolName?_eq_some]

def visibleRuleNames (grammar : Grammar) : List String :=
  grammar.rules.keys.filter fun name => !isHiddenName name && !grammar.isInlined name

theorem mem_visibleRuleNames {grammar : Grammar} {name : String} : name ∈ grammar.visibleRuleNames ↔
    (∃ rule, grammar.rules.get? name = some rule) ∧ isHiddenName name = false ∧
      name ∉ grammar.inline.getD [] := by
  simp [visibleRuleNames, Table.mem_keys, isInlined]

end Grammar
end GrammarCheck
