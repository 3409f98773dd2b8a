import GrammarCheck.Sample
import Mathlib.Data.List.Basic

/-! What is reported of a parsed sample. Main statement: though subtrees without a fault are passed over,
the report has the number of all faults in the tree and the place of the first one, provided that each
node tells whether there is a fault in its subtree. -/
namespace GrammarCheck

namespace SyntaxTree

theorem childInduction {motive : SyntaxTree → Prop}
    (step : ∀ root children, (∀ child ∈ children, motive child) → motive (node root children))
    (tree : SyntaxTree) : motive tree := by
  refine @SyntaxTree.rec motive (fun children => ∀ child ∈ children, motive child) ?node ?nil ?cons tree
  case node => exact step
  case nil => exact fun _ absent => nomatch absent
  case cons =>
    intro first rest holds others child member
    rcases List.mem_cons.mp member with same | inside
    · exact same ▸ holds
    · exact others child inside

mutual

/-- The subtrees of a tree, itself included, each before those below it. -/
def parts : SyntaxTree → List SyntaxTree
  | node root children => node root children :: partsBelow children

def partsBelow : List SyntaxTree → List SyntaxTree
  | [] => []
  | child :: rest => child.parts ++ partsBelow rest

end

def nodes (tree : SyntaxTree) : List SyntaxNode := tree.parts.map root

/-- The root of each subtree has an error exactly if there is a fault at it or below. -/
def TellsFaults (tree : SyntaxTree) : Prop :=
  ∀ part ∈ tree.parts, part.root.hasError = true ↔ ∃ node ∈ part.nodes, node.isFault = true

theorem partsBelow_eq_flatMap (children : List SyntaxTree) : partsBelow children = children.flatMap parts := by
  induction children with
  | nil => rfl
  | cons child rest ih => rw [partsBelow, ih, List.flatMap_cons]

theorem nodes_node (root : SyntaxNode) (children : List SyntaxTree) :
    (node root children).nodes = root :: children.flatMap nodes := by
  rw [nodes, parts, partsBelow_eq_flatMap, List.map_cons, List.map_flatMap]
  rfl

theorem mem_parts_self (tree : SyntaxTree) : tree ∈ tree.parts := by
  cases tree
  exact .head _

theorem mem_parts_of_child {root : SyntaxNode} {children : List SyntaxTree} {child part : SyntaxTree}
    (member : child ∈ children) (inside : part ∈ child.parts) : part ∈ (node root children).parts := by
  rw [parts, partsBelow_eq_flatMap]
  exact .tail _ (List.mem_flatMap.mpr ⟨child, member, inside⟩)

theorem TellsFaults.child {root : SyntaxNode} {children : List SyntaxTree}
    (tells : (node root children).TellsFaults) {child : SyntaxTree} (member : child ∈ children) :
    child.TellsFaults :=
  fun part inside => tells part (mem_parts_of_child member inside)

theorem TellsFaults.hasError_iff {tree : SyntaxTree} (tells : tree.TellsFaults) :
    tree.root.hasError = true ↔ ∃ node ∈ tree.nodes, node.isFault = true :=
  tells tree (mem_parts_self tree)

theorem TellsFaults.sound {tree : SyntaxTree} (tells : tree.TellsFaults) (clean : ¬ tree.root.hasError = true) :
    ∀ node ∈ tree.nodes, node.isFault = false := by
  intro node inside
  exact Bool.not_eq_true _ ▸ fun fault => clean (tells.hasError_iff.mpr ⟨node, inside, fault⟩)

end SyntaxTree

namespace SampleReport

variable {node : SyntaxNode} {nodes : List SyntaxNode}

theorem visit_of_sound (sound : node.isFault = false) (report : SampleReport) : report.visit node = report := by
  rw [visit, sound]
  rfl

theorem visit_of_fault (fault : node.isFault = true) (report : SampleReport) :
    report.visit node = ⟨report.rootKind, report.errorCount + 1, some (report.firstError.getD node.start)⟩ := by
  rw [visit, if_pos fault]

theorem foldl_visit_of_sound (sound : ∀ node ∈ nodes, node.isFault = false) (report : SampleReport) :
    nodes.foldl visit report = report := by
  induction nodes with
  | nil => rfl
  | cons first rest ih =>
    obtain ⟨here, others⟩ := List.forall_mem_cons.mp sound
    rw [List.foldl_cons, visit_of_sound here, ih others]

theorem foldl_visit (nodes : List SyntaxNode) (report : SampleReport) :
    nodes.foldl visit report = ⟨report.rootKind, report.errorCount + nodes.countP (·.isFault),
      report.firstError.or ((nodes.find? (·.isFault)).map (·.start))⟩ := by
  induction nodes generalizing report with
  | nil => simp
  | cons first rest ih =>
    rw [List.foldl_cons, ih]
    cases fault : first.isFault with
    | false => simp [visit_of_sound fault, fault]
    | true =>
      have counted : report.errorCount + 1 + rest.countP (·.isFault) =
          report.errorCount + (first :: rest).countP (·.isFault) := by
        rw [List.countP_cons_of_pos fault, Nat.add_assoc, Nat.add_comm 1]
      have found : (first :: rest).find? (·.isFault) = some first := List.find?_cons_of_pos fault
      -- a place that is there already stays, and else it is that of the node at hand
      have place : (some (report.firstError.getD first.start)).or ((rest.find? (·.isFault)).map (·.start)) =
          report.firstError.or (((first :: rest).find? (·.isFault)).map (·.start)) := by
        rw [found]
        cases report.firstError <;> rfl
      rw [visit_of_fault fault, counted, place]

theorem countFaultsBelow_eq_foldl (children : List SyntaxTree) (report : SampleReport) :
    report.countFaultsBelow children =
      children.foldl (fun report child => if child.isFaulty then report.countFaults child else report) report := by
  induction children generalizing report with
  | nil => rfl
  | cons child rest ih => rw [countFaultsBelow, ih, List.foldl_cons]

/-- The walk that passes over subtrees does what a walk over all nodes does. -/
theorem countFaults_eq_foldl {tree : SyntaxTree} (tells : tree.TellsFaults) (report : SampleReport) :
    report.countFaults tree = tree.nodes.foldl visit report := by
  induction tree using SyntaxTree.childInduction generalizing report with
  | step root children ih =>
    rw [countFaults, countFaultsBelow_eq_foldl, SyntaxTree.nodes_node, List.foldl_cons, List.foldl_flatMap]
    refine List.foldl_ext _ _ _ fun counted child member => ?_
    have tellsChild := tells.child member
    by_cases faulty : child.isFaulty = true
    · rw [if_pos faulty, ih child member tellsChild]
    · -- a child that is passed over has no error, so there is no fault in it to count
      have clean : ¬ child.root.hasError = true := fun error => faulty (by simp [SyntaxTree.isFaulty, error])
      rw [if_neg faulty, foldl_visit_of_sound (tellsChild.sound clean)]

theorem ofTree_eq_foldl {tree : SyntaxTree} (tells : tree.TellsFaults) :
    ofTree tree = tree.nodes.foldl visit ⟨tree.root.kind, 0, none⟩ := by
  unfold ofTree
  by_cases error : tree.root.hasError = true
  · rw [if_pos error, countFaults_eq_foldl tells]
  · rw [if_neg error, foldl_visit_of_sound (tells.sound error)]

/-- The report is what a look at every node of the tree gives, each before those below it. -/
structure Describes (report : SampleReport) (tree : SyntaxTree) : Prop where
  rootKind : report.rootKind = tree.root.kind
  counted : report.errorCount = tree.nodes.countP (·.isFault)
  first : report.firstError = (tree.nodes.find? (·.isFault)).map (·.start)
  noFirst : report.firstError = none ↔ ∀ node ∈ tree.nodes, node.isError = false ∧ node.isMissing = false
  clean : report.isClean = true ↔ ∀ node ∈ tree.nodes, node.isError = false ∧ node.isMissing = false

end SampleReport

theorem Language.parseSample_describes (language : Language) (source : String)
    (tells : (language.parse source).TellsFaults) :
    (language.parseSample source).Describes (language.parse source) := by
  have report := SampleReport.ofTree_eq_foldl tells
  rw [SampleReport.foldl_visit] at report
  rw [parseSample, report]
  constructor
  case rootKind => rfl
  case counted => simp
  case first => simp
  case noFirst => simp [SyntaxNode.isFault]
  case clean => simp [SampleReport.isClean, SyntaxNode.isFault]

/-- An error with another error and a missing token inside, behind a subtree that is passed over. -/
def brokenTree : SyntaxTree :=
  .branch "program" ⟨0, 0⟩ [
    .branch "stmt" ⟨0, 0⟩ [.leaf "word" ⟨0, 0⟩, .leaf ";" ⟨0, 1⟩],
    .errorAround ⟨0, 3⟩ [.leaf "word" ⟨0, 3⟩, .error ⟨0, 5⟩, .missing ";" ⟨0, 6⟩],
    .branch "stmt" ⟨1, 0⟩ [.leaf "word" ⟨1, 0⟩, .missing ";" ⟨1, 1⟩]]

def brokenLanguage : Language := ⟨15, none, fun _ => true, fun _ => brokenTree⟩

theorem parseSample_describes_brokenTree :
    brokenTree.TellsFaults ∧ (brokenLanguage.parseSample "").Describes brokenTree ∧
      (brokenLanguage.parseSample "").errorCount = 4 ∧
      (brokenLanguage.parseSample "").firstError = some ⟨0, 3⟩ := by
  have tells : brokenTree.TellsFaults := by unfold SyntaxTree.TellsFaults; decide
  exact ⟨tells, brokenLanguage.parseSample_describes "" tells, by decide, by decide⟩

end GrammarCheck
