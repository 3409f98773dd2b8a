import GrammarCheck.Proofs.Sample
import Mathlib.Order.Bounds.Defs

/-! Trees whose nodes stand as they do in a text: none starts before the node it is in, and none starts
after a node that comes later beside one it is in. Main statement: the starts of the nodes never go back in
document order, so the first fault that a report tells of is the leftmost one. -/
namespace GrammarCheck

namespace Position

/-- By row and, within a row, by column. -/
instance : LE Position where
  le position other := position.row < other.row ∨ position.row = other.row ∧ position.column ≤ other.column

theorem le_def {position other : Position} : position ≤ other ↔
    position.row < other.row ∨ position.row = other.row ∧ position.column ≤ other.column := Iff.rfl

instance : DecidableLE Position := fun _ _ => decidable_of_iff _ le_def.symm

theorem le_refl (position : Position) : position ≤ position := .inr ⟨rfl, Nat.le_refl _⟩

theorem le_trans {first second third : Position} (one : first ≤ second) (other : second ≤ third) : first ≤ third := by
  rw [le_def] at *
  omega

end Position

namespace SyntaxTree

/-- The order that a parser keeps. Nodes may start at the same place, a missing token where the next one does. -/
structure InOrder (tree : SyntaxTree) : Prop where
  parents : ∀ part ∈ tree.parts, ∀ child ∈ part.children, part.root.start ≤ child.root.start
  siblings : ∀ part ∈ tree.parts, part.children.Pairwise fun earlier later =>
    ∀ node ∈ earlier.nodes, node.start ≤ later.root.start

theorem InOrder.child {root : SyntaxNode} {children : List SyntaxTree} (ordered : (node root children).InOrder)
    {child : SyntaxTree} (member : child ∈ children) : child.InOrder where
  parents := fun part inside => ordered.parents part (mem_parts_of_child member inside)
  siblings := fun part inside => ordered.siblings part (mem_parts_of_child member inside)

theorem InOrder.root_le {tree : SyntaxTree} (ordered : tree.InOrder) :
    ∀ node ∈ tree.nodes, tree.root.start ≤ node.start := by
  induction tree using SyntaxTree.childInduction with
  | step root children ih =>
    rw [nodes_node, List.forall_mem_cons]
    refine ⟨Position.le_refl _, fun node below => ?_⟩
    obtain ⟨child, member, inside⟩ := List.mem_flatMap.mp below
    have entered := ordered.parents _ (mem_parts_self _) child member
    exact Position.le_trans entered (ih child member (ordered.child member) node inside)

theorem InOrder.nodes_pairwise {tree : SyntaxTree} (ordered : tree.InOrder) :
    tree.nodes.Pairwise fun earlier later => earlier.start ≤ later.start := by
  induction tree using SyntaxTree.childInduction with
  | step root children ih =>
    have fromRoot := ordered.root_le
    rw [nodes_node] at fromRoot ⊢
    refine List.pairwise_cons.mpr ⟨(List.forall_mem_cons.mp fromRoot).2, List.pairwise_flatMap.mpr ⟨?_, ?_⟩⟩
    · exact fun child member => ih child member (ordered.child member)
    · refine (ordered.siblings _ (mem_parts_self _)).imp_of_mem fun _ member before first inside second below => ?_
      -- the later subtree starts with its root
      exact Position.le_trans (before first inside) ((ordered.child member).root_le second below)

end SyntaxTree

/-- The first of the nodes with a property starts before all others with it, if the starts never go back. -/
theorem isLeast_of_find? {nodes : List SyntaxNode} {p : SyntaxNode → Bool} {first : SyntaxNode}
    (ascending : nodes.Pairwise fun earlier later => earlier.start ≤ later.start) (found : nodes.find? p = some first) :
    IsLeast {start | ∃ node ∈ nodes, p node = true ∧ node.start = start} first.start := by
  obtain ⟨holds, before, after, rfl, none⟩ := List.find?_eq_some_iff_append.mp found
  refine ⟨⟨first, by simp, holds, rfl⟩, ?_⟩
  rintro _ ⟨node, listed, also, rfl⟩
  rcases List.mem_append.mp listed with earlier | listed
  · have passed := none node earlier
    rw [also] at passed
    contradiction
  · rcases List.mem_cons.mp listed with rfl | later
    · exact Position.le_refl _
    · exact (List.pairwise_cons.mp (List.pairwise_append.mp ascending).2.1).1 node later

theorem Language.parseSample_leftmost (language : Language) (source : String)
    (tells : (language.parse source).TellsFaults) (ordered : (language.parse source).InOrder) {place : Position}
    (first : (language.parseSample source).firstError = some place) :
    IsLeast {start | ∃ node ∈ (language.parse source).nodes,
      (node.isError = true ∨ node.isMissing = true) ∧ node.start = start} place := by
  rw [parseSample, SampleReport.ofTree_eq_foldl tells, SampleReport.foldl_visit] at first
  obtain ⟨node, found, rfl⟩ := Option.map_eq_some_iff.mp first
  simpa [SyntaxNode.isFault] using isLeast_of_find? ordered.nodes_pairwise found

theorem parseSample_leftmost_brokenTree : brokenTree.TellsFaults ∧ brokenTree.InOrder ∧
    (brokenLanguage.parseSample "").firstError = some ⟨0, 3⟩ ∧
    IsLeast {start | ∃ node ∈ brokenTree.nodes,
      (node.isError = true ∨ node.isMissing = true) ∧ node.start = start} ⟨0, 3⟩ := by
  have tells : brokenTree.TellsFaults := by unfold SyntaxTree.TellsFaults; decide
  have ordered : brokenTree.InOrder := ⟨by decide, by decide⟩
  have first : (brokenLanguage.parseSample "").firstError = some ⟨0, 3⟩ := by decide
  exact ⟨tells, ordered, first, brokenLanguage.parseSample_leftmost "" tells ordered first⟩

end GrammarCheck
