import GrammarCheck.Conformance
import GrammarCheck.Proofs.Grammar.Occurrence

/-! The kinds of nodes that the rules of a grammar call for, node by node. Main statements: the kinds
that the walk over the rules gathers are those that some exposed node calls for. -/
namespace GrammarCheck

namespace Rule

theorem literals_of_isToken {rule : Rule} (token : rule.isToken = true) :
    rule.literals = (rule.content.bind stringValue?).toList := by
  rw [literals, collect_eq]
  simp [literal?, token]

theorem literal?_eq_some {rule : Rule} {text : String} : rule.literal? = some text ↔
    (rule.isToken = true ∧ ∃ content, rule.content = some content ∧ content.kind = .string ∧
      content.value = some (.text text)) ∨ rule.kind = .string ∧ rule.value = some (.text text) := by
  unfold literal?
  cases token : rule.isToken with
  | true =>
    have other : rule.kind ≠ .string := by
      rcases isToken_iff.mp token with kind | kind <;> simp [kind]
    simp [Option.bind_eq_some_iff, stringValue?_eq_some, other]
  | false => simp [stringValue?_eq_some]

theorem mem_literals {rule : Rule} {text : String} :
    text ∈ rule.literals ↔ ∃ node, rule.Exposed node ∧ node.literal? = some text := by
  simp only [literals, mem_collect, Option.mem_toList]
  rfl

theorem mem_nodeKinds {rule : Rule} {kind : NodeKind} :
    kind ∈ rule.nodeKinds ↔ ∃ node, rule.Exposed node ∧ kind ∈ node.ownKinds := mem_collect

/-- What a token adds by a walk of its own is its literal, as with every other node. -/
theorem ownKinds_eq (node : Rule) :
    node.ownKinds = node.alias?.toList ++ node.literal?.toList.map anonymousKind := by
  rw [ownKinds, literal?]
  cases token : node.isToken with
  | true => rw [if_pos rfl, if_pos rfl, literals_of_isToken token]
  | false => simp

theorem named_mem_ownKinds {node : Rule} {name : String} : ⟨name, true⟩ ∈ node.ownKinds ↔
    node.kind = .alias ∧ node.value = some (.text name) ∧ node.named = some true := by
  have never (texts : List String) : (⟨name, true⟩ : NodeKind) ∉ texts.map anonymousKind := by
    simp [anonymousKind]
  have asked : node.named.getD false = true ↔ node.named = some true := by
    cases node.named <;> simp
  rw [ownKinds, List.mem_append, or_iff_left (never _), Option.mem_toList,
    alias?_eq_some, asked]

theorem anonymous_mem_ownKinds_iff {node : Rule} {name : String} : ⟨name, false⟩ ∈ node.ownKinds ↔
    (node.kind = .alias ∧ node.value = some (.text name) ∧ node.named ≠ some true) ∨
      node.literal? = some name := by
  have asked : node.named.getD false = false ↔ node.named ≠ some true := by
    rcases node.named with _ | _ | _ <;> simp
  have listed (texts : List String) : (⟨name, false⟩ : NodeKind) ∈ texts.map anonymousKind ↔ name ∈ texts := by
    simp [anonymousKind]
  rw [ownKinds_eq, List.mem_append, Option.mem_toList, alias?_eq_some, asked, listed, Option.mem_toList]

theorem anonymous_mem_ownKinds {node : Rule} {name : String} : ⟨name, false⟩ ∈ node.ownKinds ↔
    (node.kind = .alias ∧ node.value = some (.text name) ∧ node.named ≠ some true) ∨
      (node.isToken = true ∧ ∃ content, node.content = some content ∧ content.kind = .string ∧
        content.value = some (.text name)) ∨
      node.kind = .string ∧ node.value = some (.text name) := by
  rw [anonymous_mem_ownKinds_iff, literal?_eq_some]

end Rule

namespace Grammar

/-- `node` stands in the body of some rule of the grammar, below no token. -/
def Exposes (grammar : Grammar) (node : Rule) : Prop :=
  ∃ name rule, grammar.rules.get? name = some rule ∧ rule.Exposed node

theorem mem_kindNames_iff {grammar : Grammar} {name : String} {named : Bool} :
    name ∈ grammar.kindNames named ↔ ⟨name, named⟩ ∈ grammar.rules.values.flatMap Rule.nodeKinds := by
  simp only [kindNames, List.mem_map, List.mem_filter, beq_iff_eq]
  constructor
  · intro kept
    obtain ⟨⟨_, _⟩, ⟨inside, rfl⟩, rfl⟩ := kept
    exact inside
  · exact fun inside => ⟨⟨name, named⟩, ⟨inside, rfl⟩, rfl⟩

theorem mem_kindNames {grammar : Grammar} {name : String} {named : Bool} :
    name ∈ grammar.kindNames named ↔ ∃ node, grammar.Exposes node ∧ ⟨name, named⟩ ∈ node.ownKinds := by
  rw [mem_kindNames_iff, List.mem_flatMap]
  constructor
  · intro collected
    obtain ⟨rule, listed, inside⟩ := collected
    obtain ⟨key, found⟩ := Table.mem_values.mp listed
    obtain ⟨node, exposed, taken⟩ := Rule.mem_nodeKinds.mp inside
    exact ⟨node, ⟨key, rule, found, exposed⟩, taken⟩
  · intro owned
    obtain ⟨node, ⟨key, rule, found, exposed⟩, taken⟩ := owned
    exact ⟨rule, Table.mem_values.mpr ⟨key, found⟩, Rule.mem_nodeKinds.mpr ⟨node, exposed, taken⟩⟩

end Grammar
end GrammarCheck
