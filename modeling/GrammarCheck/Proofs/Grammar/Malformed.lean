import GrammarCheck.Grammar.Reading
import GrammarCheck.Proofs.Json.Strict

/-! Grammar definitions that are no JSON. Main statement: they are refused, wherever in them the damage is,
also inside members that nothing else is read from. -/
namespace GrammarCheck
open Json (Node Items Members Place Fault Strict Value Denotes bind_eq_ok descend_eq_ok)

theorem RuleValue.strict_ofNode (depth : Nat) (settled : Place) : Strict (RuleValue.ofNode depth settled) := by
  intro node value ok
  unfold RuleValue.ofNode at ok
  split at ok
  · next null => exact Node.whole_of_isNull null
  · obtain ⟨_, kept, _⟩ := bind_eq_ok.mp ok
    exact Node.whole_of_keep node kept

theorem RuleKind.strict_ofNode (depth : Nat) : Strict (RuleKind.ofNode depth) := by
  intro node kind ok
  cases node with
  | missing => contradiction
  | stray => contradiction
  | list => contradiction
  | scalar place literal =>
    rw [ofNode] at ok
    split at ok
    · obtain ⟨_, named, _⟩ := bind_eq_ok.mp ok
      exact Json.Literal.accepted_of_text named
    · contradiction
  | object place members =>
    obtain ⟨_, _, ok⟩ := descend_eq_ok.mp ok
    cases members with
    | close => contradiction
    | broken => contradiction
    | bare =>
      obtain ⟨_, _, ok⟩ := bind_eq_ok.mp ok
      obtain ⟨_, _, ok⟩ := bind_eq_ok.mp ok
      contradiction
    | member key _ value settled next =>
      obtain ⟨_, named, ok⟩ := bind_eq_ok.mp ok
      obtain ⟨_, _, ok⟩ := bind_eq_ok.mp ok
      split at ok
      · next null =>
        refine ⟨Json.Literal.accepted_of_text named, Node.whole_of_isNull null, ?_⟩
        cases next with
        | close => trivial
        | broken fault =>
          rw [finish] at ok
          split at ok <;> contradiction
        | _ => contradiction
      · contradiction

namespace Rule

theorem Draft.whole_of_put {draft after : Draft} {depth : Nat} {settled : Place} {node : Node} {field : Field}
    {content : Unit → Except Fault Rule} {members : Unit → Except Fault (List Rule)}
    (rule : ∀ rule, content () = .ok rule → node.Whole) (rules : ∀ rules, members () = .ok rules → node.Whole)
    (ok : draft.put depth settled node content members field = .ok after) : node.Whole := by
  have text := Node.strict_optional Node.strict_text
  cases field with
  | type =>
    obtain ⟨kind, read, _⟩ := bind_eq_ok.mp ok
    exact RuleKind.strict_ofNode depth node kind read
  | value =>
    obtain ⟨value, read, _⟩ := bind_eq_ok.mp ok
    exact RuleValue.strict_ofNode depth settled node value read
  | content =>
    obtain ⟨_, read, _⟩ := bind_eq_ok.mp ok
    exact Node.whole_of_optional rule read
  | members =>
    obtain ⟨inner, read, _⟩ := bind_eq_ok.mp ok
    exact rules inner read
  | named =>
    obtain ⟨value, read, _⟩ := bind_eq_ok.mp ok
    exact Node.strict_optional Node.strict_boolean node value read
  | name | flags | contextName =>
    obtain ⟨value, read, _⟩ := bind_eq_ok.mp ok
    exact text node value read

mutual

theorem whole_of_ofNode : (node : Node) → ∀ {depth : Nat} {rule : Rule}, ofNode depth node = .ok rule → node.Whole
  | .missing, _, _, ok => nomatch ok
  | .stray _, _, _, ok => nomatch ok
  | .scalar _ _, _, _, ok => nomatch ok
  | .object _ members, _, _, ok => by
    obtain ⟨_, _, ok⟩ := descend_eq_ok.mp ok
    exact whole_of_ofMembers members ok
  | .list _ items, _, _, ok => by
    obtain ⟨_, _, ok⟩ := descend_eq_ok.mp ok
    exact whole_of_ofItems items ok

theorem whole_of_ofMembers : (members : Members) → ∀ {depth : Nat} {draft : Draft} {rule : Rule},
    ofMembers depth draft members = .ok rule → members.Whole
  | .close _, _, _, _, _ => trivial
  | .broken _ _, _, _, _, ok => nomatch ok
  | .bare _ _ _, _, _, _, ok => by
    obtain ⟨name, _, ok⟩ := bind_eq_ok.mp ok
    split at ok <;> contradiction
  | .member key _ node _ next, _, _, _, ok => by
    obtain ⟨name, named, ok⟩ := bind_eq_ok.mp ok
    refine ⟨Json.Literal.accepted_of_text named, ?_⟩
    split at ok
    · split at ok
      · contradiction
      · obtain ⟨_, put, others⟩ := bind_eq_ok.mp ok
        exact ⟨Draft.whole_of_put (fun _ => whole_of_ofNode node) (fun _ => whole_of_listOfNode node) put,
          whole_of_ofMembers next others⟩
    · obtain ⟨_, passed, others⟩ := bind_eq_ok.mp ok
      exact ⟨Node.whole_of_skip node passed, whole_of_ofMembers next others⟩

theorem whole_of_ofItems : (items : Items) → ∀ {depth : Nat} {draft : Draft} {fields : List Field} {rule : Rule},
    ofItems depth draft fields items = .ok rule → items.Whole
  | .close _, _, _, _, _, _ => trivial
  | .broken _ _, _, _, _, _, ok => nomatch ok
  | .item node _ next, _, _, [], _, ok => nomatch ok
  | .item node _ next, _, _, field :: fields, _, ok => by
    obtain ⟨_, put, others⟩ := bind_eq_ok.mp ok
    exact ⟨Draft.whole_of_put (fun _ => whole_of_ofNode node) (fun _ => whole_of_listOfNode node) put,
      whole_of_ofItems next others⟩

theorem whole_of_listOfNode : (node : Node) → ∀ {depth : Nat} {rules : List Rule},
    listOfNode depth node = .ok rules → node.Whole
  | .missing, _, _, ok => nomatch ok
  | .stray _, _, _, ok => nomatch ok
  | .scalar _ _, _, _, ok => nomatch ok
  | .object _ _, _, _, ok => nomatch ok
  | .list _ items, _, _, ok => by
    obtain ⟨_, _, ok⟩ := descend_eq_ok.mp ok
    exact whole_of_listOfItems items ok

theorem whole_of_listOfItems : (items : Items) → ∀ {depth : Nat} {rules : List Rule},
    listOfItems depth items = .ok rules → items.Whole
  | .close _, _, _, _ => trivial
  | .broken _ _, _, _, ok => nomatch ok
  | .item node _ next, _, _, ok => by
    obtain ⟨_, own, ok⟩ := bind_eq_ok.mp ok
    obtain ⟨_, others, _⟩ := bind_eq_ok.mp ok
    exact ⟨whole_of_ofNode node own, whole_of_listOfItems next others⟩

end

theorem strict_ofNode (depth : Nat) : Strict (ofNode depth) := fun node _ => whole_of_ofNode node

theorem strict_listOfNode (depth : Nat) : Strict (listOfNode depth) := fun node _ => whole_of_listOfNode node

end Rule

namespace Grammar

theorem whole_of_rulesOfMembers : ∀ (members : Members) {depth : Nat} {start rules : Table Rule},
    rulesOfMembers depth start members = .ok rules → members.Whole
  | .close _, _, _, _, _ => trivial
  | .broken _ _, _, _, _, ok => nomatch ok
  | .bare _ _ _, _, _, _, ok => by
    obtain ⟨_, _, ok⟩ := bind_eq_ok.mp ok
    contradiction
  | .member _ _ node _ next, depth, _, _, ok => by
    obtain ⟨_, named, ok⟩ := bind_eq_ok.mp ok
    obtain ⟨rule, own, others⟩ := bind_eq_ok.mp ok
    exact ⟨Json.Literal.accepted_of_text named, Rule.strict_ofNode depth node rule own,
      whole_of_rulesOfMembers next others⟩

theorem strict_rulesOfNode (depth : Nat) : Strict (rulesOfNode depth) := by
  intro node rules ok
  cases node with
  | object place members =>
    obtain ⟨_, _, ok⟩ := descend_eq_ok.mp ok
    exact whole_of_rulesOfMembers members ok
  | _ => contradiction

theorem strict_names (depth : Nat) : Strict (names depth) := Node.strict_values (fun _ => Node.strict_text) depth

theorem Draft.whole_of_put {draft after : Draft} {depth : Nat} {node : Node} {field : Field}
    (ok : draft.put depth node field = .ok after) : node.Whole := by
  have rules := Node.strict_optional (Rule.strict_listOfNode depth)
  have texts := Node.strict_optional (strict_names depth)
  cases field with
  | name =>
    obtain ⟨value, read, _⟩ := bind_eq_ok.mp ok
    exact Node.strict_text node value read
  | rules =>
    obtain ⟨value, read, _⟩ := bind_eq_ok.mp ok
    exact strict_rulesOfNode depth node value read
  | extras | externals =>
    obtain ⟨value, read, _⟩ := bind_eq_ok.mp ok
    exact rules node value read
  | inline | supertypes =>
    obtain ⟨value, read, _⟩ := bind_eq_ok.mp ok
    exact texts node value read
  | conflicts =>
    obtain ⟨value, read, _⟩ := bind_eq_ok.mp ok
    exact Node.strict_optional (Node.strict_values strict_names depth) node value read
  | word =>
    obtain ⟨value, read, _⟩ := bind_eq_ok.mp ok
    exact Node.strict_optional Node.strict_text node value read

theorem whole_of_ofMembers : ∀ (members : Members) {depth : Nat} {draft : Draft} {grammar : Grammar},
    ofMembers depth draft members = .ok grammar → members.Whole
  | .close _, _, _, _, _ => trivial
  | .broken _ _, _, _, _, ok => nomatch ok
  | .bare _ _ _, _, _, _, ok => by
    obtain ⟨_, _, ok⟩ := bind_eq_ok.mp ok
    split at ok <;> contradiction
  | .member _ _ node _ next, _, _, _, ok => by
    obtain ⟨_, named, ok⟩ := bind_eq_ok.mp ok
    refine ⟨Json.Literal.accepted_of_text named, ?_⟩
    split at ok
    · split at ok
      · contradiction
      · obtain ⟨_, put, others⟩ := bind_eq_ok.mp ok
        exact ⟨Draft.whole_of_put put, whole_of_ofMembers next others⟩
    · obtain ⟨_, passed, others⟩ := bind_eq_ok.mp ok
      exact ⟨Node.whole_of_skip node passed, whole_of_ofMembers next others⟩

theorem whole_of_ofItems : ∀ (items : Items) {depth : Nat} {draft : Draft} {fields : List Field} {grammar : Grammar},
    ofItems depth draft fields items = .ok grammar → items.Whole
  | .close _, _, _, _, _, _ => trivial
  | .broken _ _, _, _, _, _, ok => by
    rw [ofItems] at ok
    contradiction
  | .item _ _ _, _, _, [], _, ok => by
    rw [ofItems] at ok
    contradiction
  | .item _ _ next, _, _, _ :: _, _, ok => by
    rw [ofItems] at ok
    obtain ⟨_, put, others⟩ := bind_eq_ok.mp ok
    exact ⟨Draft.whole_of_put put, whole_of_ofItems next others⟩

theorem strict_ofNode (depth : Nat) : Strict (ofNode depth) := by
  intro node grammar ok
  cases node with
  | object place members =>
    obtain ⟨_, _, ok⟩ := descend_eq_ok.mp ok
    exact whole_of_ofMembers members ok
  | list place items =>
    obtain ⟨_, _, ok⟩ := descend_eq_ok.mp ok
    exact whole_of_ofItems items ok
  | _ => contradiction

theorem ofText_of_malformed {text : String} (malformed : ¬ ∃ value, Denotes text value) :
    ∃ fault, ofText text = .error (.malformed text fault) := by
  cases decoded : decode text with
  | error fault => exact ⟨fault, by rw [ofText, decoded]; rfl⟩
  | ok grammar => exact absurd (Json.Document.exists_denoted_of_read (strict_ofNode _) decoded) malformed

/-- A rule with a note that nothing reads, and a tab in the note. -/
def tabbedText : String :=
  "\x7b\"name\":\"g\",\"rules\":\x7b\"a\":\x7b\"type\":\"BLANK\",\"note\":[\"\t\"]\x7d\x7d\x7d"

theorem ofText_tabbedText : (¬ ∃ value, Denotes tabbedText value) ∧
    ∃ fault, ofText tabbedText = .error (.malformed tabbedText fault) := by
  have malformed : ¬ ∃ value, Denotes tabbedText value := Json.Document.not_denoted (by decide +kernel)
  exact ⟨malformed, ofText_of_malformed malformed⟩

end Grammar
end GrammarCheck
