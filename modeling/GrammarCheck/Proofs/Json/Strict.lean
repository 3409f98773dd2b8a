import GrammarCheck.Proofs.Json.Shown
import GrammarCheck.Proofs.Json.Whole

/-! Readers that accept no broken tree, and so nothing but JSON. Main statements: keeping a value and passing
over it are both strict, and so is what is built from strict readers. A text can be passed over if and only
if it is JSON. -/
namespace GrammarCheck.Json

/-- What this reader accepts is not broken off anywhere. -/
def Strict {α : Type} (read : Node → Except Fault α) : Prop := ∀ node value, read node = .ok value → node.Whole

section
variable {α : Type}

theorem descend_eq_ok {depth : Nat} {place : Place} {read : Nat → Except Fault α} {value : α} :
    descend depth place read = .ok value ↔ ∃ below, depth = below + 1 ∧ read below = .ok value := by
  cases depth with
  | zero => simp [descend]
  | succ below => simp [descend]

theorem Literal.accepted_of_text {key : Literal} {text : String} (read : key.text = .ok text) : key.Accepted := by
  unfold Literal.text at read
  split at read
  · next kept => exact .inr ⟨_, kept⟩
  · contradiction
  · contradiction

namespace Node

theorem whole_of_scalar? {node : Node} {scalar : Scalar} (found : node.scalar? = some scalar) : node.Whole := by
  cases node with
  | scalar place literal =>
    refine .inr ⟨scalar, ?_⟩
    rw [scalar?] at found
    cases kept : literal.value with
    | error => rw [kept] at found; contradiction
    | ok value => rw [kept] at found; cases found; rfl
  | _ => contradiction

theorem strict_text : Strict Node.text := by
  intro node value read
  unfold Node.text at read
  split at read
  · next found => exact whole_of_scalar? found
  · contradiction

theorem strict_boolean : Strict Node.boolean := by
  intro node value read
  unfold Node.boolean at read
  split at read
  · next found => exact whole_of_scalar? found
  · contradiction

theorem whole_of_isNull {node : Node} (null : node.isNull = true) : node.Whole := by
  unfold isNull at null
  split at null
  · next found => exact whole_of_scalar? found
  · contradiction

theorem whole_of_optional {node : Node} {read : Node → Except Fault α} {value : Option α}
    (own : ∀ value, read node = .ok value → node.Whole) (ok : node.optional read = .ok value) : node.Whole := by
  unfold Node.optional at ok
  split at ok
  · next null => exact whole_of_isNull null
  · obtain ⟨inner, ok, _⟩ := map_eq_ok.mp ok
    exact own inner ok

theorem strict_optional {read : Node → Except Fault α} (strict : Strict read) : Strict (Node.optional read) :=
  fun node _ ok => whole_of_optional (strict node) ok

end Node

theorem Items.whole_of_values {read : Node → Except Fault α} (strict : Strict read) :
    ∀ (items : Items) {values : List α}, items.values read = .ok values → items.Whole
  | .close _, _, _ => trivial
  | .broken _ _, _, ok => nomatch ok
  | .item node _ next, values, ok => by
    obtain ⟨value, own, ok⟩ := bind_eq_ok.mp ok
    obtain ⟨rest, others, _⟩ := bind_eq_ok.mp ok
    exact ⟨strict node value own, whole_of_values strict next others⟩

theorem Node.strict_values {read : Nat → Node → Except Fault α} (strict : ∀ depth, Strict (read depth)) (depth : Nat) :
    Strict (Node.values depth read) := by
  intro node values ok
  cases node with
  | list place items =>
    obtain ⟨below, _, ok⟩ := descend_eq_ok.mp ok
    exact items.whole_of_values (strict below) ok
  | _ => contradiction

end

mutual

theorem Node.whole_of_skip : (node : Node) → ∀ {done : Unit}, node.skip = .ok done → node.Whole
  | .missing, _, ok => nomatch ok
  | .stray _, _, ok => nomatch ok
  | .scalar _ literal, _, ok => by
    rw [Node.skip] at ok
    split at ok
    · contradiction
    · next passed => exact .inl passed
  | .list _ items, _, ok => Items.whole_of_skip items ok
  | .object _ members, _, ok => Members.whole_of_skip members ok

theorem Items.whole_of_skip : (items : Items) → ∀ {done : Unit}, items.skip = .ok done → items.Whole
  | .close _, _, _ => trivial
  | .broken _ _, _, ok => nomatch ok
  | .item node _ next, _, ok => by
    obtain ⟨_, own, others⟩ := bind_eq_ok.mp ok
    exact ⟨Node.whole_of_skip node own, Items.whole_of_skip next others⟩

theorem Members.whole_of_skip : (members : Members) → ∀ {done : Unit}, members.skip = .ok done → members.Whole
  | .close _, _, _ => trivial
  | .broken _ _, _, ok => nomatch ok
  | .bare _ _ _, _, ok => nomatch ok
  | .member key _ node _ next, _, ok => by
    rw [Members.skip] at ok
    split at ok
    · contradiction
    · next passed =>
      obtain ⟨_, own, others⟩ := bind_eq_ok.mp ok
      exact ⟨.inl passed, Node.whole_of_skip node own, Members.whole_of_skip next others⟩

end

mutual

theorem Node.whole_of_keep : (node : Node) → ∀ {depth : Nat} {done : Unit}, node.keep depth = .ok done → node.Whole
  | .missing, _, _, ok => nomatch ok
  | .stray _, _, _, ok => nomatch ok
  | .scalar _ literal, _, _, ok => by
    obtain ⟨value, kept, _⟩ := map_eq_ok.mp ok
    exact .inr ⟨value, kept⟩
  | .list _ items, _, _, ok => by
    obtain ⟨_, _, ok⟩ := descend_eq_ok.mp ok
    exact Items.whole_of_keep items ok
  | .object _ members, _, _, ok => by
    obtain ⟨_, _, ok⟩ := descend_eq_ok.mp ok
    exact Members.whole_of_keep members ok

theorem Items.whole_of_keep : (items : Items) → ∀ {depth : Nat} {done : Unit}, items.keep depth = .ok done →
    items.Whole
  | .close _, _, _, _ => trivial
  | .broken _ _, _, _, ok => nomatch ok
  | .item node _ next, _, _, ok => by
    obtain ⟨_, own, others⟩ := bind_eq_ok.mp ok
    exact ⟨Node.whole_of_keep node own, Items.whole_of_keep next others⟩

theorem Members.whole_of_keep : (members : Members) → ∀ {depth : Nat} {done : Unit},
    members.keep depth = .ok done → members.Whole
  | .close _, _, _, _ => trivial
  | .broken _ _, _, _, ok => nomatch ok
  | .bare _ _ _, _, _, ok => by
    obtain ⟨_, _, ok⟩ := bind_eq_ok.mp ok
    contradiction
  | .member _ _ node _ next, _, _, ok => by
    obtain ⟨_, named, ok⟩ := bind_eq_ok.mp ok
    obtain ⟨_, own, others⟩ := bind_eq_ok.mp ok
    exact ⟨Literal.accepted_of_text named, Node.whole_of_keep node own, Members.whole_of_keep next others⟩

end

theorem Document.exists_denoted_of_read {α : Type} {read : Node → Except Fault α} (strict : Strict read) {text : String}
    {result : α} (ok : (ofText text).read read = .ok result) : ∃ value, Denotes text value := by
  obtain ⟨value, root, ok⟩ := bind_eq_ok.mp ok
  have whole := strict _ value root
  split at ok
  · next ended => exact exists_denoted whole ended
  · contradiction

theorem Document.read_skip_eq_ok {text : String} :
    (ofText text).read Node.skip = .ok () ↔ ∃ value, Denotes text value := by
  constructor
  · exact exists_denoted_of_read fun node _ => Node.whole_of_skip node
  · rintro ⟨value, denotes⟩
    obtain ⟨shows, ended⟩ := ofText_of_denotes denotes
    rw [read, shows.skip_eq, ended]
    rfl

theorem Document.not_denoted {text : String} (refused : ((ofText text).read Node.skip).isOk = false) :
    ¬ ∃ value, Denotes text value := by
  rw [← read_skip_eq_ok]
  intro passed
  rw [passed] at refused
  contradiction

end GrammarCheck.Json
