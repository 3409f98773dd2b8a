/-! Paths of files as texts. Nothing is normalised: two spellings of one place are two paths, and an
error message shows a path exactly as it was built. -/
namespace GrammarCheck

structure Path where
  text : String
deriving DecidableEq

namespace Path

def isAbsolute (path : Path) : Bool := path.text.toList.head? == some '/'

def endsInSlash (path : Path) : Bool := path.text.toList.getLast? == some '/'

/-- The place of `path` seen from `dir`. An absolute path stays as it is, and joining the empty path
only adds a slash. -/
def join (dir path : Path) : Path :=
  if path.isAbsolute || dir.text.isEmpty then path
  else if dir.endsInSlash then ⟨dir.text ++ path.text⟩
  else ⟨dir.text ++ "/" ++ path.text⟩

/-- Drops what stands for nothing at the end of a path that is given backwards: slashes, and dots
that name the directory they are in. -/
def dropIdle : List Char → List Char
  | '/' :: rest => dropIdle rest
  | ['.'] => []
  | '.' :: '/' :: rest => dropIdle rest
  | rest => rest

/-- The part at the start of a path that is never dropped, the root or a first dot, and the rest. -/
def splitAnchor (path : List Char) : List Char × List Char :=
  match path with
  | '/' :: rest => (['/'], rest)
  | ['.'] => (['.'], [])
  | '.' :: '/' :: rest => (['.'], '/' :: rest)
  | rest => ([], rest)

/-- The directory that holds `path`: the path without its last part. The root and the empty path
have none. -/
def parent? (path : Path) : Option Path :=
  let (anchor, rest) := splitAnchor path.text.toList
  match dropIdle rest.reverse with
  | [] => if anchor = ['.'] then some ⟨""⟩ else none
  | backwards =>
    let dir := dropIdle (backwards.dropWhile (· ≠ '/'))
    some ⟨String.ofList (anchor ++ dir.reverse)⟩

def directory (path : Path) : Path := path.parent?.getD ⟨""⟩

end Path
end GrammarCheck
