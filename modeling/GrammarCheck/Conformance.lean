import GrammarCheck.Grammar.Basic
import GrammarCheck.Language
import GrammarCheck.Names

/-! Whether a language has every kind of node that a grammar definition calls for. A kind that is
missing shows that the two do not belong together. -/
namespace GrammarCheck

namespace Rule

/-- The kind of the node that an anonymous text makes. -/
def anonymousKind (text : String) : NodeKind := ⟨text, false⟩

/-- The kinds that one node of a rule calls for: its alias, and its text or, for a token, the literals
of the token. -/
def ownKinds (rule : Rule) : List NodeKind :=
  rule.alias?.toList ++
    (if rule.isToken then rule.literals else rule.stringValue?.toList).map anonymousKind

/-- The kinds that a rule calls for. -/
def nodeKinds : Rule → List NodeKind := collect ownKinds (fun rule => !rule.isToken)

end Rule

namespace Grammar

/-- The kinds that the bodies of the rules call for, named ones or anonymous ones. -/
def kindNames (grammar : Grammar) (named : Bool) : List String :=
  ((grammar.rules.values.flatMap Rule.nodeKinds).filter (·.named == named)).map (·.name)

def visibleExternalNames (grammar : Grammar) : List String :=
  grammar.externalNames.filter fun name => !isHiddenName name

end Grammar

/-- What a language lacks of a grammar. The names ascend, each once. -/
structure Conformance where
  nameMismatch : Option (String × String)
  missingNamed : List String
  missingAnonymous : List String
  missingExternals : List String

namespace Conformance

def isClean (report : Conformance) : Bool :=
  report.nameMismatch.isNone && report.missingNamed.isEmpty && report.missingAnonymous.isEmpty &&
    report.missingExternals.isEmpty

def findingCount (report : Conformance) : Nat :=
  (if report.nameMismatch.isSome then 1 else 0) + report.missingNamed.length +
    report.missingAnonymous.length + report.missingExternals.length

/-- The names of those kinds that the language does not resolve. -/
def missing (language : Language) (names : List String) (named : Bool) : List String :=
  (Names.ofList names).filter fun name => !language.resolves ⟨name, named⟩

/-- The names of grammar and language, if the language tells one and they differ. -/
def nameMismatch? (grammar : Grammar) (language : Language) : Option (String × String) :=
  match language.name? with
  | some name => if name = grammar.name then none else some (grammar.name, name)
  | none => none

def check (grammar : Grammar) (language : Language) : Conformance where
  nameMismatch := nameMismatch? grammar language
  missingNamed := missing language (grammar.visibleRuleNames ++ grammar.kindNames true) true
  missingAnonymous := missing language (grammar.kindNames false) false
  missingExternals := missing language grammar.visibleExternalNames true

end Conformance
end GrammarCheck
