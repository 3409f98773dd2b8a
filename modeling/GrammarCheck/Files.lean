import GrammarCheck.Host

/-! What stands at the places that paths lead to, and the host that follows from it. -/
namespace GrammarCheck

/-- A file or directory. A library is a file that exports languages, and no text. -/
inductive Content where
  | bytes (content : ByteArray)
  | library (exports : List (String × Option Language))
  | directory

/-- Why a path leads nowhere. -/
inductive Absence where
  | missing
  | notDirectory
  | nameTooLong

def Absence.description : Absence → String
  | .missing => "No such file or directory"
  | .notDirectory => "Not a directory"
  | .nameTooLong => "File name too long"

/-- A name as it is handed to the system. It may end in its own terminator and holds no other. -/
def systemName? (name : String) : Option (List Char) :=
  let letters := if name.toList.getLast? = some '\x00' then name.toList.dropLast else name.toList
  if letters.contains '\x00' then none else some letters

/-- The complaint about a name that `systemName?` refuses. -/
def badName : String := "interior zero element in parameter"

/-- Fewer bytes than this are no library. -/
def headerLength : Nat := 64

namespace Content

def text? : Content → Option String
  | bytes content => String.fromUTF8? content
  | _ => none

def libraryFault (content : ByteArray) : String :=
  if content.size < headerLength then "file too short" else "invalid ELF header"

/-- The languages a file exports, or why it cannot be opened as a library. -/
def exports : Content → Except String (List (String × Option Language))
  | bytes content => .error (libraryFault content)
  | library exports => .ok exports
  | directory => .error "cannot read file data: Is a directory"

end Content

/-- The library under `path` that exports these symbols. -/
def Library.ofExports (path : String) (exports : List (String × Option Language)) : Library where
  find symbol :=
    match systemName? symbol with
    | none => .error badName
    | some letters =>
      let name := String.ofList letters
      match exports.find? (·.1 == name) with
      | some (_, language) => .ok language
      | none => .error s!"dlsym failed: {path}: undefined symbol: {name}"

/-- Opens the library at a path. A path without a slash is the name of a system library, and no
grammar is one. -/
def Files.openLibrary (find : Path → Except Absence Content) (path : Path) : Except String Library :=
  match systemName? path.text with
  | none => .error badName
  | some letters =>
    let name := String.ofList letters
    let absent (absence : Absence) := s!"cannot open shared object file: {absence.description}"
    let exports :=
      if letters.contains '/' then
        match find ⟨name⟩ with
        | .ok content => content.exports
        | .error absence => .error (absent absence)
      else .error (absent .missing)
    match exports with
    | .ok exports => .ok (.ofExports name exports)
    | .error fault => .error s!"dlopen failed: {name}: {fault}"

def Files.readText (find : Path → Except Absence Content) (path : Path) : Option String :=
  if path.text.toList.contains '\x00' then none
  else
    match find path with
    | .ok content => content.text?
    | .error _ => none

/-- The host whose files are found by `find`. -/
def Host.ofFiles (find : Path → Except Absence Content) : Host := ⟨Files.readText find, Files.openLibrary find⟩

end GrammarCheck
