import GrammarCheck.Proofs.Conformance.Gathering
import GrammarCheck.Proofs.Grammar.Dangling
import GrammarCheck.Proofs.Grammar.Malformed

/-! How high the trees of a grammar are that was read. The reader keeps what is read from nesting too deep,
and so bounds the trees, which the walks over them do not: these call themselves at every child. Main
statement: no chain of nodes in a grammar that is accepted is longer than 125, and with room for that many
calls inside one another every walk gets to its end. -/
namespace GrammarCheck
open Json (Value)

namespace Rule

/-- No chain of nodes from the root down is longer than this. -/
def HeightLe : Nat → Rule → Prop
  | 0, _ => False
  | limit + 1, rule => ∀ child ∈ rule.children, HeightLe limit child

theorem HeightLe.mono {limit more : Nat} {rule : Rule} (low : rule.HeightLe limit) (le : limit ≤ more) :
    rule.HeightLe more := by
  induction limit generalizing more rule with
  | zero => exact low.elim
  | succ limit ih =>
    obtain ⟨more, rfl⟩ : ∃ less, more = less + 1 := ⟨more - 1, by omega⟩
    exact fun child member => ih (low child member) (Nat.le_of_succ_le_succ le)

theorem HeightLe.of_occurs {limit : Nat} {rule node : Rule} (low : rule.HeightLe limit) (occurs : rule.Occurs node) :
    node.HeightLe limit := by
  induction occurs generalizing limit with
  | root => exact low
  | under _ member _ ih =>
    cases limit with
    | zero => exact low.elim
    | succ limit => exact (ih (low _ member)).mono (Nat.le_succ limit)

/-- Each node of a chain has the next one as its content or among its members. -/
def IsDescent (chain : List Rule) : Prop := chain.IsChain fun above below => below ∈ above.children

theorem HeightLe.length_le {limit : Nat} {rule : Rule} {below : List Rule} (low : rule.HeightLe limit)
    (descent : IsDescent (rule :: below)) : (rule :: below).length ≤ limit := by
  induction below generalizing limit rule with
  | nil =>
    cases limit with
    | zero => exact low.elim
    | succ limit => simp
  | cons child below ih =>
    obtain ⟨member, descent⟩ := List.isChain_cons_cons.mp descent
    cases limit with
    | zero => exact low.elim
    | succ limit => exact Nat.succ_le_succ (ih (low child member) descent)

section
variable {σ : Type} (visit : σ → Rule → σ) (enters : Rule → Bool)

/-- A walk that visits a node and then calls itself for each child, with room for `limit` calls inside one
another. It breaks off where there is no room. -/
def walkWithin : Nat → σ → Rule → Option σ
  | 0, _, _ => none
  | limit + 1, state, rule =>
    if enters rule then rule.children.foldlM (walkWithin limit) (visit state rule) else some (visit state rule)

theorem foldlM_eq_some {step : σ → Rule → Option σ} {f : σ → Rule → σ} {rules : List Rule}
    (each : ∀ rule ∈ rules, ∀ state, step state rule = some (f state rule)) (state : σ) :
    rules.foldlM step state = some (rules.foldl f state) := by
  induction rules generalizing state with
  | nil => rfl
  | cons rule rules ih =>
    obtain ⟨own, others⟩ := List.forall_mem_cons.mp each
    rw [List.foldlM_cons, own, List.foldl_cons]
    exact ih others _

/-- With room for the height of a tree the walk ends, and has visited each node that it gets to. -/
theorem walkWithin_of_heightLe {limit : Nat} {rule : Rule} (low : rule.HeightLe limit) (state : σ) :
    walkWithin visit enters limit state rule = some ((collect (fun node => [node]) enters rule).foldl visit state) := by
  induction limit generalizing rule state with
  | zero => exact low.elim
  | succ limit ih =>
    rw [walkWithin, collect_eq, List.foldl_append]
    cases enters rule with
    | false => rfl
    | true =>
      simp only [if_true, List.foldl_flatMap]
      exact foldlM_eq_some (fun child member state => ih (low child member) state) _

theorem flatMap_collect {α : Type} (here : Rule → List α) (rule : Rule) :
    (collect (fun node => [node]) enters rule).flatMap here = collect here enters rule := by
  induction rule using childInduction with
  | step rule ih =>
    rw [collect_eq, collect_eq, List.flatMap_append, List.flatMap_singleton]
    cases enters rule with
    | false => rfl
    | true =>
      simp only [if_true, List.flatMap_assoc]
      rw [List.flatMap_congr ih]

/-- A walk that puts what it finds at the end of a list. -/
theorem walkWithin_append {α : Type} (here : Rule → List α) {limit : Nat} {rule : Rule} (low : rule.HeightLe limit)
    (found : List α) : walkWithin (fun found node => found ++ here node) enters limit found rule =
      some (found ++ collect here enters rule) := by
  rw [walkWithin_of_heightLe _ enters low, List.foldl_append_eq_append, ← List.flatMap_def, flatMap_collect]

end

theorem walkWithin_gather {limit : Nat} {rule : Rule} (low : rule.HeightLe limit) (sets : KindSets) :
    walkWithin (fun sets node => sets.addAll node.ownKinds) (fun node => !node.isToken) limit sets rule =
      some (sets.gather rule) := by
  rw [walkWithin_of_heightLe _ _ low, ← KindSets.addAll_flatMap, flatMap_collect, KindSets.gather_eq_addAll]
  rfl

theorem ofParts?_children {parts : (field : Field) → Option field.Slot} {rule : Rule}
    (made : ofParts? parts = some rule) :
    rule.content = (parts .content).join ∧ rule.members = (parts .members).getD [] := by
  obtain ⟨kind, _, rfl⟩ := Option.map_eq_some_iff.mp made
  exact ⟨rfl, rfl⟩

theorem exists_of_items? {depth : Nat} {value : Value} {rules : List Rule} {rule : Rule}
    (read : value.items? ofValue? depth = some rules) (inside : rule ∈ rules) :
    ∃ below item, depth = below + 1 ∧ ofValue? below item = some rule := by
  cases depth with
  | zero => exact nomatch read
  | succ below =>
    cases value with
    | list items =>
      obtain ⟨item, _, own⟩ := Json.exists_of_mapM read inside
      exact ⟨below, item, rfl, own⟩
    | _ => contradiction

/-- The content of a rule is read one level below it, and its members two. -/
theorem heightLe_of_ofValue? {depth : Nat} {value : Value} {rule : Rule} (read : ofValue? depth value = some rule) :
    rule.HeightLe depth := by
  induction depth using Nat.strongRecOn generalizing value rule with
  | ind depth ih =>
    cases depth with
    | zero => exact nomatch read
    | succ depth =>
      obtain ⟨known, _, read⟩ := Option.bind_eq_some_iff.mp read
      obtain ⟨parts, filled, made⟩ := Option.bind_eq_some_iff.mp read
      obtain ⟨content, members⟩ := ofParts?_children made
      intro child member
      rcases List.mem_append.mp member with inside | inside
      · have given : parts .content = some (some child) :=
          Option.join_eq_some_iff.mp (content ▸ Option.mem_toList.mp inside)
        obtain ⟨value, own⟩ := Json.exists_of_fill filled given
        exact ih depth (Nat.lt_succ_self depth) (Value.optional?_eq_some own)
      · rw [members] at inside
        cases given : parts .members with
        | none => rw [given] at inside; contradiction
        | some rules =>
          rw [given] at inside
          obtain ⟨value, own⟩ := Json.exists_of_fill filled given
          have listed : value.items? ofValue? depth = some rules := listOfValue?_eq_items? ▸ own
          obtain ⟨below, item, rfl, meant⟩ := exists_of_items? listed inside
          exact (ih below (by omega) meant).mono (Nat.le_succ below)

end Rule

namespace Grammar

/-- Chains and walks in the trees of a grammar keep within a limit. -/
structure Bounded (grammar : Grammar) (limit : Nat) : Prop where
  chains : ∀ place node below, grammar.Contains node place → Rule.IsDescent (node :: below) →
    (node :: below).length ≤ limit
  symbols : ∀ place node, grammar.Contains node place → ∀ found,
    Rule.walkWithin (fun found node => found ++ node.symbolName?.toList) (fun _ => true) limit found node =
      some (found ++ node.symbols)
  literals : ∀ place node, grammar.Contains node place → ∀ found,
    Rule.walkWithin (fun found node => found ++ node.literal?.toList) (fun node => !node.isToken) limit found node =
      some (found ++ node.literals)
  -- At a token the walk for literals takes over, which goes no further than one call there.
  kinds : ∀ place node, grammar.Contains node place → ∀ sets,
    Rule.walkWithin (fun sets node => KindSets.addAll sets node.ownKinds) (fun node => !node.isToken) limit sets node =
      some (sets.gather node)

theorem bounded_of_heightLe {grammar : Grammar} {limit : Nat}
    (low : ∀ place node, grammar.Contains node place → node.HeightLe limit) : grammar.Bounded limit where
  chains := fun place node _ contains descent => (low place node contains).length_le descent
  symbols := fun place node contains => Rule.walkWithin_append _ _ (low place node contains)
  literals := fun place node contains => Rule.walkWithin_append _ _ (low place node contains)
  kinds := fun place node contains => Rule.walkWithin_gather (low place node contains)

/-- Rules by name lie two levels below the grammar, and so do those in lists. -/
theorem heightLe_of_ofValue? {depth : Nat} {value : Value} {grammar : Grammar}
    (read : ofValue? (depth + 2) value = some grammar) {place : Place} {node : Rule}
    (contains : grammar.Contains node place) : node.HeightLe depth := by
  simp only [ofValue?, Option.bind_eq_bind] at read
  obtain ⟨known, _, read⟩ := Option.bind_eq_some_iff.mp read
  obtain ⟨parts, filled, made⟩ := Option.bind_eq_some_iff.mp read
  obtain ⟨name, _, made⟩ := Option.bind_eq_some_iff.mp made
  obtain ⟨rules, given, same⟩ := Option.bind_eq_some_iff.mp made
  cases same
  -- extras and externals are lists of rules that may be left out
  have listed {field : Option (Option (List Rule))} {body : Rule} (inside : body ∈ field.join.getD [])
      (own : ∀ bodies, field = some bodies →
        ∃ value : Value, value.optional? (Value.items? Rule.ofValue? (depth + 1)) = some bodies) :
      body.HeightLe depth := by
    obtain _ | _ | bodies := field
    · contradiction
    · contradiction
    · obtain ⟨value, read⟩ := own _ rfl
      obtain ⟨below, item, same, meant⟩ := Rule.exists_of_items? (Value.optional?_eq_some read) inside
      cases same
      exact Rule.heightLe_of_ofValue? meant
  cases place with
  | rule name =>
    obtain ⟨body, found, occurs⟩ := contains
    obtain ⟨value, own⟩ := Json.exists_of_fill filled given
    cases value with
    | object members =>
      obtain ⟨entries, each, rfl⟩ := Option.map_eq_some_iff.mp own
      obtain ⟨member, _, named⟩ := Json.exists_of_mapM each (Table.mem_of_get?_ofEntries found)
      obtain ⟨key, _, named⟩ := Option.bind_eq_some_iff.mp named
      obtain ⟨rule, meant, same⟩ := Option.bind_eq_some_iff.mp named
      cases same
      exact (Rule.heightLe_of_ofValue? meant).of_occurs occurs
    | _ => contradiction
  | extra =>
    obtain ⟨body, inside, occurs⟩ := contains
    exact (listed inside fun _ given => Json.exists_of_fill filled given).of_occurs occurs
  | external =>
    obtain ⟨body, inside, occurs⟩ := contains
    exact (listed inside fun _ given => Json.exists_of_fill filled given).of_occurs occurs

theorem bounded_of_ofText {text : String} {grammar : Grammar} (accepted : ofText text = .ok grammar) :
    grammar.Bounded 125 := by
  have decoded : decode text = .ok grammar := by
    cases found : decode text with
    | error fault => rw [ofText, found] at accepted; contradiction
    | ok given =>
      rw [ofText_eq_check found] at accepted
      rw [(check_eq_ok_iff.mp accepted).1]
  obtain ⟨value, denotes⟩ := Json.Document.exists_denoted_of_read (strict_ofNode _) decoded
  have meant := toOption_decode denotes
  rw [decoded] at meant
  exact bounded_of_heightLe fun _ _ => heightLe_of_ofValue? meant.symm

/-- As many repetitions of one another, around nothing. -/
def tower : Nat → Rule
  | 0 => ⟨.blank, none, none, none, [], none, none, none⟩
  | height + 1 => ⟨.repeat, none, none, some (tower height), [], none, none, none⟩

def towerBelow : Nat → List Rule
  | 0 => []
  | height + 1 => tower height :: towerBelow height

theorem isDescent_tower (height : Nat) : Rule.IsDescent (tower height :: towerBelow height) := by
  induction height with
  | zero => exact .singleton _
  | succ height ih => exact List.isChain_cons_cons.mpr ⟨.head _, ih⟩

def towerGrammar : Grammar where
  name := "g"
  rules := Table.ofEntries [("a", tower 124)]
  extras := none
  externals := none
  inline := none
  conflicts := none
  word := none
  supertypes := none

/-- The highest rule that a grammar can have. -/
theorem bounded_of_towerGrammar : ofText towerGrammar.objectForm.written = .ok towerGrammar ∧
    towerGrammar.Bounded 125 ∧ towerGrammar.Contains (tower 124) (.rule "a") ∧
    Rule.IsDescent (tower 124 :: towerBelow 124) ∧ (tower 124 :: towerBelow 124).length = 125 := by
  have accepted : ofText towerGrammar.objectForm.written = .ok towerGrammar := by
    have closed : towerGrammar.Closed := undefinedSymbol?_eq_none.mp (by decide +kernel)
    rw [ofText_objectForm (by decide +kernel)]
    exact check_of_closed ⟨"a", tower 124, rfl⟩ closed
  exact ⟨accepted, bounded_of_ofText accepted, ⟨_, rfl, .root _⟩, isDescent_tower 124, by decide +kernel⟩

end Grammar
end GrammarCheck
