import GrammarCheck.Grammar.Rule

/-! Where a node occurs in the tree of a rule: under which nodes, and at which path of child indices.
Main statements: a walk takes what it finds at the nodes it reaches and nothing else, and what a
full walk finds first stands at the least path. -/
namespace GrammarCheck.Rule

theorem childInduction {motive : Rule → Prop}
    (step : ∀ rule, (∀ child ∈ rule.children, motive child) → motive rule) (rule : Rule) :
    motive rule := by
  refine @Rule.rec motive (fun content => ∀ child ∈ content, motive child)
    (fun members => ∀ child ∈ members, motive child) ?rule ?none ?some ?nil ?cons rule
  case rule =>
    intro kind value name content members named flags contextName below beside
    refine step _ fun child member => ?_
    rcases List.mem_append.mp member with inside | inside
    · exact below child (Option.mem_toList.mp inside)
    · exact beside child inside
  case none => exact fun _ absent => nomatch absent
  case some => exact fun child holds _ same => Option.some.inj same ▸ holds
  case nil => exact fun _ absent => nomatch absent
  case cons =>
    intro first rest holds others child member
    rcases List.mem_cons.mp member with same | inside
    · exact same ▸ holds
    · exact others child inside

/-- `node` is in the tree of `rule`, and every node above it there is one that `enters` admits. -/
inductive Reaches (enters : Rule → Bool) : Rule → Rule → Prop
  | root (rule : Rule) : Reaches enters rule rule
  | under {rule child node : Rule} (entered : enters rule = true) (member : child ∈ rule.children)
      (inside : Reaches enters child node) : Reaches enters rule node

def Occurs (rule node : Rule) : Prop := Reaches (fun _ => true) rule node

/-- `node` is in the tree of `rule`, and no node above it there is a token. -/
def Exposed (rule node : Rule) : Prop := Reaches (fun above => !above.isToken) rule node

theorem mem_collect {α : Type} {here : Rule → List α} {enters : Rule → Bool} {rule : Rule} {x : α} :
    x ∈ collect here enters rule ↔ ∃ node, Reaches enters rule node ∧ x ∈ here node := by
  constructor
  · intro found
    induction rule using childInduction with
    | step rule ih =>
      rw [collect_eq, List.mem_append] at found
      rcases found with found | found
      · exact ⟨rule, .root rule, found⟩
      · split at found
        · next entered =>
          obtain ⟨child, member, found⟩ := List.mem_flatMap.mp found
          obtain ⟨node, inside, taken⟩ := ih child member found
          exact ⟨node, .under entered member inside, taken⟩
        · exact nomatch found
  · intro found
    obtain ⟨node, reached, taken⟩ := found
    induction reached with
    | root => exact collect_eq here enters _ ▸ List.mem_append_left _ taken
    | under entered member _ ih =>
      rw [collect_eq, if_pos entered]
      exact List.mem_append_right _ (List.mem_flatMap.mpr ⟨_, member, ih taken⟩)

/-- The node that a path of child indices leads to, the content of a rule being its first child.
The order of paths is the order of the nodes in which each comes before those under it. -/
def at? (rule : Rule) : List Nat → Option Rule
  | [] => some rule
  | i :: path => rule.children[i]?.bind fun child => child.at? path

theorem occurs_iff_at? {rule node : Rule} : rule.Occurs node ↔ ∃ path, rule.at? path = some node := by
  constructor
  · intro occurs
    induction occurs with
    | root rule => exact ⟨[], rfl⟩
    | under _ member _ ih =>
      obtain ⟨path, leads⟩ := ih
      obtain ⟨i, found⟩ := List.mem_iff_getElem?.mp member
      exact ⟨i :: path, by rw [at?, found]; exact leads⟩
  · intro addressed
    obtain ⟨path, leads⟩ := addressed
    induction path generalizing rule with
    | nil => exact Option.some.inj leads ▸ .root rule
    | cons i path ih =>
      obtain ⟨child, found, leads⟩ := Option.bind_eq_some_iff.mp leads
      exact .under rfl (List.mem_of_getElem? found) (ih leads)

/-- All that a full walk finds, with `found` at each node. -/
abbrev findings {α : Type} (found : Rule → Option α) : Rule → List α :=
  collect (fun rule => (found rule).toList) (fun _ => true)

theorem mem_findings {α : Type} {found : Rule → Option α} {rule : Rule} {x : α} :
    x ∈ findings found rule ↔ ∃ node, rule.Occurs node ∧ found node = some x := by
  simp only [findings, mem_collect, Option.mem_toList]
  rfl

/-- The finding `x` at the given path is the first with property `p`. -/
def FirstAt {α : Type} (found : Rule → Option α) (p : α → Bool) (rule : Rule) (path : List Nat) (x : α) : Prop :=
  (∃ node, rule.at? path = some node ∧ found node = some x) ∧ p x = true ∧
    ∀ earlier < path, ∀ node y, rule.at? earlier = some node → found node = some y → p y = false

theorem firstAt_of_find? {α : Type} {found : Rule → Option α} {p : α → Bool} {rule : Rule} {x : α}
    (first : (findings found rule).find? p = some x) : ∃ path, FirstAt found p rule path x := by
  induction rule using childInduction with
  | step rule ih =>
    have holds : p x = true := List.find?_some first
    rw [findings, collect_eq, if_pos rfl, List.find?_append] at first
    rcases Option.or_eq_some_iff.mp first with here | ⟨notHere, first⟩
    · have same : found rule = some x := Option.mem_toList.mp (List.mem_of_find?_eq_some here)
      exact ⟨[], ⟨rule, rfl, same⟩, holds, fun earlier less => absurd less (List.not_lt_nil _)⟩
    · rw [List.find?_flatMap] at first
      obtain ⟨before, child, after, split, first, none⟩ := List.findSome?_eq_some_iff.mp first
      have member : child ∈ rule.children := by rw [split]; simp
      obtain ⟨path, ⟨node, leads, taken⟩, _, least⟩ := ih child member first
      have position : rule.children[before.length]? = some child := by rw [split]; simp
      refine ⟨before.length :: path, ⟨node, by rw [at?, position]; exact leads, taken⟩, holds, ?_⟩
      intro earlier less other y leads taken
      cases earlier with
      | nil =>
        cases leads
        exact Bool.not_eq_true _ ▸ List.find?_eq_none.mp notHere y (Option.mem_toList.mpr taken)
      | cons i earlier =>
        obtain ⟨sibling, place, leads⟩ := Option.bind_eq_some_iff.mp leads
        rcases List.cons_lt_cons_iff.mp less with left | ⟨same, less⟩
        · have inside : sibling ∈ before := by
            rw [split, List.getElem?_append_left left] at place
            exact List.mem_of_getElem? place
          have listed : y ∈ findings found sibling :=
            mem_findings.mpr ⟨other, occurs_iff_at?.mpr ⟨earlier, leads⟩, taken⟩
          exact Bool.not_eq_true _ ▸ List.find?_eq_none.mp (none sibling inside) y listed
        · rw [same, position] at place
          cases place
          exact least earlier less other y leads taken

end GrammarCheck.Rule
