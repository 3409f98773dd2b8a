import GrammarCheck.Proofs.Conformance.Kinds
import Mathlib.Data.List.Sort

/-! The kinds that rules call for, gathered by a walk that puts what it finds into two growing sets. Main
statements: a walk over a rule adds the literals of the rule and the names of its aliases, and nothing else,
and a check reports of the sets that the walks over all rules fill, in whatever order these are taken. -/
namespace GrammarCheck

/-- A finite set of names. -/
structure NameSet where
  names : List String
  ascending : names.Pairwise (· < ·)

namespace NameSet

instance : Membership String NameSet := ⟨fun set name => name ∈ set.names⟩

def ofList (names : List String) : NameSet := ⟨Names.ofList names, Names.ascending_ofList names⟩

def insert (set : NameSet) (name : String) : NameSet :=
  ⟨Names.insert name set.names, Names.ascending_insert set.ascending⟩

@[simp] theorem mem_ofList {names : List String} {name : String} : name ∈ ofList names ↔ name ∈ names :=
  Names.mem_ofList

@[simp] theorem mem_insert {set : NameSet} {name other : String} :
    other ∈ set.insert name ↔ other = name ∨ other ∈ set := Names.mem_insert

theorem eq_of_mem_iff {set other : NameSet} (alike : ∀ name, name ∈ set ↔ name ∈ other) : set = other := by
  have same : set.names = other.names := set.ascending.eq_of_mem_iff other.ascending alike
  cases set
  cases other
  congr

end NameSet

/-- The names of named kinds and of anonymous kinds that are gathered so far. -/
structure KindSets where
  named : NameSet
  anonymous : NameSet

namespace KindSets

def add (sets : KindSets) : NodeKind → KindSets
  | ⟨name, true⟩ => { sets with named := sets.named.insert name }
  | ⟨name, false⟩ => { sets with anonymous := sets.anonymous.insert name }

def addAll (sets : KindSets) (kinds : List NodeKind) : KindSets := kinds.foldl add sets

mutual

/-- Adds what a rule calls for: at each node its alias, then its text and what is below it or, at a token,
the literals of the token. -/
def gather (sets : KindSets) : Rule → KindSets
  | ⟨kind, value, name, content, members, named, flags, contextName⟩ =>
    let rule : Rule := ⟨kind, value, name, content, members, named, flags, contextName⟩
    let aliased := sets.addAll rule.alias?.toList
    if rule.isToken then aliased.addAll (rule.literals.map Rule.anonymousKind)
    else
      let texts := aliased.addAll (rule.stringValue?.toList.map Rule.anonymousKind)
      gatherMembers (gatherContent texts content) members

def gatherContent (sets : KindSets) : Option Rule → KindSets
  | none => sets
  | some rule => gather sets rule

def gatherMembers (sets : KindSets) : List Rule → KindSets
  | [] => sets
  | rule :: rest => gatherMembers (gather sets rule) rest

end

instance : Membership NodeKind KindSets :=
  ⟨fun sets kind => kind.name ∈ if kind.named then sets.named else sets.anonymous⟩

theorem mem_named {sets : KindSets} {name : String} : ⟨name, true⟩ ∈ sets ↔ name ∈ sets.named := Iff.rfl

theorem mem_anonymous {sets : KindSets} {name : String} : ⟨name, false⟩ ∈ sets ↔ name ∈ sets.anonymous := Iff.rfl

theorem eq_of_mem_iff {sets other : KindSets} (alike : ∀ kind, kind ∈ sets ↔ kind ∈ other) : sets = other := by
  have named : sets.named = other.named := NameSet.eq_of_mem_iff fun name => alike ⟨name, true⟩
  have anonymous : sets.anonymous = other.anonymous := NameSet.eq_of_mem_iff fun name => alike ⟨name, false⟩
  cases sets
  cases other
  congr

theorem mem_add {sets : KindSets} {kind other : NodeKind} : other ∈ sets.add kind ↔ other = kind ∨ other ∈ sets := by
  obtain ⟨name, named⟩ := kind
  obtain ⟨otherName, otherNamed⟩ := other
  cases named <;> cases otherNamed <;> simp [add, mem_named, mem_anonymous]

theorem mem_addAll {sets : KindSets} {kinds : List NodeKind} {kind : NodeKind} :
    kind ∈ sets.addAll kinds ↔ kind ∈ sets ∨ kind ∈ kinds := by
  unfold addAll
  induction kinds generalizing sets with
  | nil => simp
  | cons first rest ih => rw [List.foldl_cons, ih, mem_add, List.mem_cons, or_assoc, or_left_comm]

theorem addAll_append (sets : KindSets) (kinds others : List NodeKind) :
    sets.addAll (kinds ++ others) = (sets.addAll kinds).addAll others := List.foldl_append

theorem addAll_flatMap {α : Type} (sets : KindSets) (items : List α) (kinds : α → List NodeKind) :
    sets.addAll (items.flatMap kinds) = items.foldl (fun sets item => sets.addAll (kinds item)) sets :=
  List.foldl_flatMap

theorem gatherMembers_eq_foldl (sets : KindSets) (rules : List Rule) :
    sets.gatherMembers rules = rules.foldl gather sets := by
  induction rules generalizing sets with
  | nil => rfl
  | cons rule rest ih => rw [gatherMembers, ih, List.foldl_cons]

theorem gather_eq (sets : KindSets) (rule : Rule) : sets.gather rule =
    if rule.isToken then sets.addAll rule.ownKinds else rule.children.foldl gather (sets.addAll rule.ownKinds) := by
  obtain ⟨kind, value, name, content, members, named, flags, contextName⟩ := rule
  rw [gather, Rule.ownKinds, addAll_append]
  split
  · rfl
  · rw [gatherMembers_eq_foldl, Rule.children, List.foldl_append]
    cases content <;> rfl

/-- The walk that fills sets finds what the walk that makes a list does. -/
theorem gather_eq_addAll (sets : KindSets) (rule : Rule) : sets.gather rule = sets.addAll rule.nodeKinds := by
  induction rule using Rule.childInduction generalizing sets with
  | step rule ih =>
    rw [gather_eq, Rule.nodeKinds, Rule.collect_eq]
    cases rule.isToken with
    | true => simp
    | false =>
      have below : rule.children.foldl gather (sets.addAll rule.ownKinds) =
          (sets.addAll rule.ownKinds).addAll (rule.children.flatMap Rule.nodeKinds) := by
        rw [addAll_flatMap]
        exact List.foldl_ext _ _ _ fun before child member => ih child member before
      simp only [Bool.not_false, if_true, Bool.false_eq_true, if_false, addAll_append, below]
      rfl

theorem mem_gather {sets : KindSets} {rule : Rule} {kind : NodeKind} :
    kind ∈ sets.gather rule ↔ kind ∈ sets ∨ ∃ node, rule.Exposed node ∧ kind ∈ node.ownKinds := by
  rw [gather_eq_addAll, mem_addAll, Rule.mem_nodeKinds]

/-- A walk adds to the anonymous names the literals of the rule and the names of its anonymous aliases, to
the named ones the names of its named aliases, and takes none away. -/
theorem gather_adds (sets : KindSets) (rule : Rule) :
    (∀ name, name ∈ (sets.gather rule).anonymous ↔ name ∈ sets.anonymous ∨ name ∈ rule.literals ∨
      ∃ node, rule.Exposed node ∧ node.kind = .alias ∧ node.value = some (.text name) ∧ node.named ≠ some true) ∧
    ∀ name, name ∈ (sets.gather rule).named ↔ name ∈ sets.named ∨
      ∃ node, rule.Exposed node ∧ node.kind = .alias ∧ node.value = some (.text name) ∧ node.named = some true := by
  constructor
  · intro name
    simp only [← mem_anonymous, mem_gather, Rule.anonymous_mem_ownKinds_iff, Rule.mem_literals, and_or_left,
      exists_or]
    exact or_congr_right or_comm
  · intro name
    simp only [← mem_named, mem_gather, Rule.named_mem_ownKinds]

theorem foldl_gather_eq_addAll (sets : KindSets) (rules : List Rule) :
    rules.foldl gather sets = sets.addAll (rules.flatMap Rule.nodeKinds) := by
  rw [addAll_flatMap]
  exact List.foldl_ext _ _ _ fun before rule _ => before.gather_eq_addAll rule

end KindSets

/-- What walks over the rules gather, from the names of the rules that are visible themselves. -/
def Grammar.gathered (grammar : Grammar) (rules : List Rule) : KindSets :=
  rules.foldl KindSets.gather ⟨.ofList grammar.visibleRuleNames, .ofList []⟩

theorem Grammar.gathered_eq {grammar : Grammar} {rules : List Rule} (all : rules.Perm grammar.rules.values) :
    grammar.gathered rules =
      ⟨.ofList (grammar.visibleRuleNames ++ grammar.kindNames true), .ofList (grammar.kindNames false)⟩ := by
  refine KindSets.eq_of_mem_iff fun kind => ?_
  obtain ⟨name, named⟩ := kind
  have called : ⟨name, named⟩ ∈ rules.flatMap Rule.nodeKinds ↔ name ∈ grammar.kindNames named := by
    rw [mem_kindNames_iff]
    exact (all.flatMap_right Rule.nodeKinds).mem_iff
  rw [gathered, KindSets.foldl_gather_eq_addAll, KindSets.mem_addAll, called]
  cases named <;> simp [KindSets.mem_named, KindSets.mem_anonymous]

/-- A check reports what the language does not resolve of the sets that are gathered from the rules, in
whatever order they are walked. -/
theorem Conformance.check_of_gathered {grammar : Grammar} {rules : List Rule}
    (all : rules.Perm grammar.rules.values) (language : Language) :
    (check grammar language).missingNamed =
        (grammar.gathered rules).named.names.filter (fun name => !language.resolves ⟨name, true⟩) ∧
      (check grammar language).missingAnonymous =
        (grammar.gathered rules).anonymous.names.filter (fun name => !language.resolves ⟨name, false⟩) := by
  rw [Grammar.gathered_eq all]
  exact ⟨rfl, rfl⟩

end GrammarCheck
