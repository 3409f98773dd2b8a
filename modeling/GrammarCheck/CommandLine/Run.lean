import GrammarCheck.CommandLine.Arguments
import GrammarCheck.Report

/-! A run of the checker: arguments, the registry they choose, and a report on each of its grammars. -/
namespace GrammarCheck

/-- A run exits with a status, or it never ends. -/
inductive Ending where
  | exits (status : Nat)
  | never
deriving DecidableEq

namespace Ending

instance (status : Nat) : OfNat Ending status := ⟨exits status⟩

@[simp] theorem ofNat_inj {status other : Nat} :
    (no_index (OfNat.ofNat status) : Ending) = no_index (OfNat.ofNat other) ↔
      (OfNat.ofNat status : Nat) = OfNat.ofNat other :=
  ⟨exits.inj, congrArg exits⟩

/-- The number of a status. In the place of one that never comes stands 0. -/
def code : Ending → Nat
  | exits status => status
  | never => 0

instance : Coe Ending Nat := ⟨code⟩

end Ending

/-- How a run ends and what it prints. On stderr that is the line of an error: the log, and what is said where
the program is stopped, go there too and are left out. -/
structure Outcome where
  status : Ending
  stdout : String
  stderr : String

namespace Outcome

def refused (message : String) : Outcome := ⟨2, "", s!"error: {message}\n"⟩

def stopped : Outcome := ⟨101, "", ""⟩

def endless : Outcome := ⟨.never, "", ""⟩

/-- Prints each report, or each failure if the run is quiet. -/
def ofReports (quiet : Bool) (reports : List Report) : Outcome where
  status := if reports.all (·.passed) then 0 else 1
  stdout := String.join ((reports.filter fun report => !(quiet && report.passed)).map (·.text ++ "\n"))
  stderr := ""

end Outcome

def RegistryError.outcome : RegistryError → Outcome
  | .malformed .endless => .endless
  | error => .refused error.message

namespace Arguments

/-- The registry file, or the known grammars if there is none, cut down to the grammar asked for. -/
def chooseRegistry (host : Host) (arguments : Arguments) : Except RegistryError Registry := do
  let registry ←
    match arguments.registry with
    | some path => Registry.load host.readText ⟨path⟩
    | .none => .ok (Registry.known ⟨arguments.grammarDir.getD "."⟩)
  match arguments.grammar with
  | some name => registry.select [name]
  | .none => .ok registry

def run (host : Host) (arguments : Arguments) : Outcome :=
  match arguments.chooseRegistry host with
  | .error error => error.outcome
  | .ok registry => .ofReports arguments.quiet (registry.reports host)

end Arguments

def ArgumentFault.outcome : ArgumentFault → Outcome
  | .unusable => .refused "Could not parse CLI arguments"
  | .empty => .stopped

/-- Arguments are Unicode texts. One that is none stops the program before any of them is looked at. -/
def run (host : Host) (arguments : List String) : Outcome :=
  match Arguments.ofList arguments with
  | .error fault => fault.outcome
  | .ok arguments => arguments.run host

end GrammarCheck
