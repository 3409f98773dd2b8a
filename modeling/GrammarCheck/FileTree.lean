import GrammarCheck.Files

/-! Files held in memory, and where paths lead among them. Paths start in the directory of the tree.
What lies outside of it is a directory in which nothing is found. -/
namespace GrammarCheck

structure FileTree where
  files : List (List String × Content)

namespace FileTree

/-- The place a path has led to so far, by the parts of its path from the directory of the tree. -/
inductive Place where
  | inside (parts : List String)
  | outside

/-- What stands at a place. The directories that a file lies in are there without being listed. -/
def content? (tree : FileTree) : Place → Option Content
  | .outside => some .directory
  | .inside parts =>
    match tree.files.find? (·.1 == parts) with
    | some (_, content) => some content
    | none => if parts.isEmpty || tree.files.any fun file => parts.isPrefixOf file.1 then some .directory else none

def Place.above : Place → Place
  | outside => outside
  | inside [] => outside
  | inside parts => inside parts.dropLast

def Place.below (part : String) : Place → Option Place
  | outside => none
  | inside parts => some (inside (parts ++ [part]))

/-- The most bytes that one part of a path has, and the most that a path has. -/
def longestPart : Nat := 255
def longestPath : Nat := 4095

/-- Follows one part of a path. An empty part stays where it is, but only in a directory. -/
def step (tree : FileTree) (place : Place) (part : String) : Except Absence Place :=
  match tree.content? place with
  | some .directory =>
    if part = "" ∨ part = "." then .ok place
    else if part = ".." then .ok place.above
    else if longestPart < part.utf8ByteSize then .error .nameTooLong
    else
      match place.below part with
      | none => .error .missing
      | some place => if (tree.content? place).isSome then .ok place else .error .missing
  | _ => .error .notDirectory

def find (tree : FileTree) (path : Path) : Except Absence Content :=
  if path.text.isEmpty then .error .missing
  else if longestPath < path.text.utf8ByteSize then .error .nameTooLong
  else do
    let start := if path.isAbsolute then .outside else .inside []
    let place ← (path.text.splitOn "/").foldlM tree.step start
    match tree.content? place with
    | some content => .ok content
    | none => .error .missing

def host (tree : FileTree) : Host := .ofFiles tree.find

end FileTree
end GrammarCheck
