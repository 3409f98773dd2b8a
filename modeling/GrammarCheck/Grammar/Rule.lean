import GrammarCheck.NodeKind

/-! The rules of a grammar definition: trees whose nodes say how text is matched. Every walk over a
rule is one pre-order walk, told what to take at each node and which nodes to go below. -/
namespace GrammarCheck

inductive RuleKind where
  | blank
  | string
  | pattern
  | symbol
  | choice
  | seq
  | repeat
  | repeat1
  | prec
  | precLeft
  | precRight
  | precDynamic
  | field
  | alias
  | token
  | immediateToken
  | reserved
deriving DecidableEq

namespace RuleKind

def all : List RuleKind := [.blank, .string, .pattern, .symbol, .choice, .seq, .repeat, .repeat1,
  .prec, .precLeft, .precRight, .precDynamic, .field, .alias, .token, .immediateToken, .reserved]

def name : RuleKind → String
  | .blank => "BLANK"
  | .string => "STRING"
  | .pattern => "PATTERN"
  | .symbol => "SYMBOL"
  | .choice => "CHOICE"
  | .seq => "SEQ"
  | .repeat => "REPEAT"
  | .repeat1 => "REPEAT1"
  | .prec => "PREC"
  | .precLeft => "PREC_LEFT"
  | .precRight => "PREC_RIGHT"
  | .precDynamic => "PREC_DYNAMIC"
  | .field => "FIELD"
  | .alias => "ALIAS"
  | .token => "TOKEN"
  | .immediateToken => "IMMEDIATE_TOKEN"
  | .reserved => "RESERVED"

def ofName? (name : String) : Option RuleKind := all.find? (·.name == name)

theorem ofName?_name (kind : RuleKind) : ofName? kind.name = some kind := by
  cases kind <;> decide

end RuleKind

inductive RuleValue where
  | text (value : String)
  | level (value : Int32)
deriving DecidableEq

structure Rule where
  kind : RuleKind
  value : Option RuleValue
  name : Option String
  content : Option Rule
  members : List Rule
  named : Option Bool
  flags : Option String
  contextName : Option String

namespace Rule

def children (rule : Rule) : List Rule := rule.content.toList ++ rule.members

def isToken (rule : Rule) : Bool := rule.kind == .token || rule.kind == .immediateToken

def symbolName? (rule : Rule) : Option String :=
  match rule.kind with
  | .symbol => rule.name
  | _ => none

def stringValue? (rule : Rule) : Option String :=
  match rule.kind, rule.value with
  | .string, some (.text value) => some value
  | _, _ => none

def alias? (rule : Rule) : Option NodeKind :=
  match rule.kind, rule.value with
  | .alias, some (.text value) => some ⟨value, rule.named.getD false⟩
  | _, _ => none

theorem isToken_iff {rule : Rule} :
    rule.isToken = true ↔ rule.kind = .token ∨ rule.kind = .immediateToken := by
  simp [isToken]

theorem symbolName?_eq_some {rule : Rule} {name : String} :
    rule.symbolName? = some name ↔ rule.kind = .symbol ∧ rule.name = some name := by
  unfold symbolName?
  split <;> simp_all

theorem stringValue?_eq_some {rule : Rule} {text : String} :
    rule.stringValue? = some text ↔ rule.kind = .string ∧ rule.value = some (.text text) := by
  unfold stringValue?
  split <;> simp_all

theorem alias?_eq_some {rule : Rule} {kind : NodeKind} : rule.alias? = some kind ↔
    rule.kind = .alias ∧ rule.value = some (.text kind.name) ∧ rule.named.getD false = kind.named := by
  obtain ⟨name, named⟩ := kind
  unfold alias?
  split <;> simp_all

mutual

/-- Takes what `here` finds at each node, a node before its content and the content before the
members, and goes below the nodes that `enters` admits. -/
def collect {α : Type} (here : Rule → List α) (enters : Rule → Bool) : Rule → List α
  | ⟨kind, value, name, content, members, named, flags, contextName⟩ =>
    let rule : Rule := ⟨kind, value, name, content, members, named, flags, contextName⟩
    here rule ++
      if enters rule then collectContent here enters content ++ collectMembers here enters members
      else []

def collectContent {α : Type} (here : Rule → List α) (enters : Rule → Bool) : Option Rule → List α
  | none => []
  | some rule => collect here enters rule

def collectMembers {α : Type} (here : Rule → List α) (enters : Rule → Bool) : List Rule → List α
  | [] => []
  | rule :: rest => collect here enters rule ++ collectMembers here enters rest

end

theorem collectMembers_eq_flatMap {α : Type} (here : Rule → List α) (enters : Rule → Bool)
    (rules : List Rule) : collectMembers here enters rules = rules.flatMap (collect here enters) := by
  induction rules with
  | nil => rfl
  | cons rule rest ih => simp [collectMembers, ih]

theorem collect_eq {α : Type} (here : Rule → List α) (enters : Rule → Bool) (rule : Rule) :
    collect here enters rule =
      here rule ++ if enters rule then rule.children.flatMap (collect here enters) else [] := by
  obtain ⟨kind, value, name, content, members, named, flags, contextName⟩ := rule
  cases content <;> simp [collect, collectContent, collectMembers_eq_flatMap, children]

def symbols : Rule → List String := collect (fun rule => rule.symbolName?.toList) (fun _ => true)

/-- The text of a string, and of a token that is a string and nothing else. -/
def literal? (rule : Rule) : Option String :=
  if rule.isToken then rule.content.bind stringValue? else rule.stringValue?

/-- The literals of the rule. A token is taken whole: nothing below it counts, except the string
that is all of it. -/
def literals : Rule → List String := collect (fun rule => rule.literal?.toList) (fun rule => !rule.isToken)

end Rule
end GrammarCheck
