import GrammarCheck.Registry.Entry

/-! Registries of grammars: entries in an order, with names that are well formed and differ. -/
namespace GrammarCheck

structure Registry where
  entries : List Entry

/-- Why there is no registry. A malformed file either has a fault or is never read to its end. -/
inductive RegistryError where
  | unreadable (path : Path)
  | malformed (failure : RegistryFile.Failure)
  | invalidName (name : String)
  | duplicate (name : String)
  | unknown (name : String)
  | empty

/-- What is said of an error. Of a file that is never read to its end nothing ever is. -/
def RegistryError.message : RegistryError → String
  | .unreadable path => s!"could not read registry {path.text}"
  | .malformed (.fault fault) => s!"invalid registry JSON: {fault.message}"
  | .malformed .endless => ""
  | .invalidName name => s!"invalid grammar name `{name}`"
  | .duplicate name => s!"grammar `{name}` is registered more than once"
  | .unknown name => s!"unknown grammar `{name}`"
  | .empty => "registry contains no grammars"

namespace Registry

/-- Finds the first entry whose name is malformed or was taken before, `taken` being the names so far. -/
def nameFault? (taken : List String) : List Entry → Option RegistryError
  | [] => none
  | entry :: rest =>
    if !isGrammarName entry.name then some (.invalidName entry.name)
    else if taken.contains entry.name then some (.duplicate entry.name)
    else nameFault? (entry.name :: taken) rest

def ofEntries (entries : List Entry) : Except RegistryError Registry :=
  if entries.isEmpty then .error .empty
  else
    match nameFault? [] entries with
    | some fault => .error fault
    | none => .ok ⟨entries⟩

def knownNames : List String := ["fig", "nyx"]

def known (dir : Path) : Registry := ⟨knownNames.map (Entry.ofName dir)⟩

def ofFile (base : Path) (file : RegistryFile) : Except RegistryError Registry :=
  let dir :=
    match file.grammarDir with
    | some dir => base.join ⟨dir⟩
    | none => base
  ofEntries (file.grammars.map (Entry.ofSpec dir))

def ofText (text : String) (base : Path) : Except RegistryError Registry :=
  match RegistryFile.ofText text with
  | .error failure => .error (.malformed failure)
  | .ok file => ofFile base file

/-- Reads a registry file. Its paths start from the directory it lies in. -/
def load (readText : Path → Option String) (path : Path) : Except RegistryError Registry :=
  match readText path with
  | none => .error (.unreadable path)
  | some text => ofText text path.directory

def isEmpty (registry : Registry) : Bool := registry.entries.isEmpty

def get? (registry : Registry) (name : String) : Option Entry := registry.entries.find? (·.name == name)

def select (registry : Registry) (names : List String) : Except RegistryError Registry :=
  match names.find? fun name => (registry.get? name).isNone with
  | some name => .error (.unknown name)
  | none => ofEntries (registry.entries.filter fun entry => names.contains entry.name)

end Registry
end GrammarCheck
