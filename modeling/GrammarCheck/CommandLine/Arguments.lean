import GrammarCheck.Text.Words

/-! The arguments of the command line. An option has a long name, spelled in any case and with any
separators, or one letter. Its value stands behind an equals sign or is the next argument. -/
namespace GrammarCheck

structure Arguments where
  registry : Option String
  grammarDir : Option String
  grammar : Option String
  quiet : Bool

/-- Why the arguments are of no use. An empty one where an option is due stops the program at once. -/
inductive ArgumentFault where
  | unusable
  | empty

namespace Arguments

def none : Arguments := ⟨.none, .none, .none, false⟩

inductive Key where
  | registry
  | grammarDir
  | grammar
  | quiet
deriving DecidableEq

namespace Key

def all : List Key := [.registry, .grammarDir, .grammar, .quiet]

def name : Key → String
  | .registry => "registry"
  | .grammarDir => "grammar_dir"
  | .grammar => "grammar"
  | .quiet => "quiet"

def letter : Key → Char
  | .registry => 'r'
  | .grammarDir => 'd'
  | .grammar => 'g'
  | .quiet => 'q'

def ofName? (name : List Char) : Option Key :=
  all.find? (·.name == Text.snakeCase (String.ofList name))

def ofLetters? (letters : List Char) : Option Key := all.find? ([·.letter] == letters)

end Key

def set (arguments : Arguments) (value : String) : Key → Arguments
  | .registry => { arguments with registry := some value }
  | .grammarDir => { arguments with grammarDir := some value }
  | .grammar => { arguments with grammar := some value }
  | .quiet => { arguments with quiet := true }

def splitValue (argument : List Char) : List Char × Option String :=
  match argument.dropWhile (· ≠ '=') with
  | [] => (argument, .none)
  | _ :: value => (argument.takeWhile (· ≠ '='), some (String.ofList value))

def option? (argument : List Char) : Option (Key × Option String) :=
  match argument with
  | '-' :: '-' :: rest =>
    let (name, value) := splitValue rest
    (Key.ofName? name).map (·, value)
  | '-' :: rest =>
    let (letters, value) := splitValue rest
    (Key.ofLetters? letters).map (·, value)
  | _ => .none

/-- Reads arguments from left to right. A later option replaces an earlier one. That a last option without
its value is unusable is a convention where it had one before, which is then freed twice. -/
def read (arguments : Arguments) : List String → Except ArgumentFault Arguments
  | [] => .ok arguments
  | argument :: rest =>
    if argument = "" then .error .empty
    else if argument = "--" then if rest.isEmpty then .ok arguments else .error .unusable
    else
      match option? argument.toList with
      | .none => .error .unusable
      | some (.quiet, _) => read (arguments.set "" .quiet) rest
      | some (key, some value) => read (arguments.set value key) rest
      | some (key, .none) =>
        match rest with
        | [] => .error .unusable
        | value :: rest => read (arguments.set value key) rest

def ofList (arguments : List String) : Except ArgumentFault Arguments := read none arguments

end Arguments
end GrammarCheck
