import GrammarCheck.Host
import GrammarCheck.Registry.Basic

/-! Loading the languages of a registry. A load goes through its stages in order, opening the library,
finding the symbol, getting a language and checking the version of its interface, and fails by the first
of them that does. -/
namespace GrammarCheck

/-- The oldest and the newest version of the interface that can be read. -/
def oldestAbi : Nat := 13
def newestAbi : Nat := 15

/-- Why a grammar does not load. The cause, where there is one, is what the host said. That a parser turns
the language down is not among the reasons, since a parser takes every language of a version that can be
read, and the version is checked before. -/
inductive LoadFault where
  | openLibrary (path : Path) (cause : String)
  | missingSymbol (symbol : String) (path : Path) (cause : String)
  | nullLanguage
  | incompatibleAbi (found : Nat)

namespace LoadFault

def message : LoadFault → String
  | openLibrary path _ => s!"could not open grammar library {path.text}"
  | missingSymbol symbol path _ => s!"symbol `{symbol}` not found in {path.text}"
  | nullLanguage => "provider returned a null language"
  | incompatibleAbi found =>
    s!"language ABI version {found} is outside the supported range {oldestAbi}..={newestAbi}"

def cause? : LoadFault → Option String
  | openLibrary _ cause => some cause
  | missingSymbol _ _ cause => some cause
  | _ => none

end LoadFault

structure LoadFailure where
  grammar : String
  displayName : String
  fault : LoadFault

namespace LoadFailure

def message (failure : LoadFailure) : String := s!"Error loading {failure.displayName} grammar"

def detailed (failure : LoadFailure) : String :=
  ": ".intercalate (failure.message :: failure.fault.message :: failure.fault.cause?.toList)

end LoadFailure

structure LoadedGrammar where
  name : String
  language : Language
  abi : Nat
  isDynamic : Bool

def LoadedGrammar.description (loaded : LoadedGrammar) : String :=
  s!"LoadedGrammar \x7b name: {Text.quoted loaded.name}, abi_version: {loaded.abi}, " ++
    s!"dynamic: {loaded.isDynamic}, .. \x7d"

namespace Provider

def isDynamic : Provider → Bool
  | linked _ => false
  | library _ _ => true

def resolve (host : Host) : Provider → Except LoadFault (Option Language)
  | linked language => .ok language
  | library path symbol => do
    let opened ← (host.openLibrary path).mapError (.openLibrary path)
    (opened.find symbol).mapError (.missingSymbol symbol path)

end Provider

namespace Entry

def loadLanguage (host : Host) (entry : Entry) : Except LoadFault Language :=
  match entry.provider.resolve host with
  | .error fault => .error fault
  | .ok none => .error .nullLanguage
  | .ok (some language) =>
    if oldestAbi ≤ language.abi ∧ language.abi ≤ newestAbi then .ok language
    else .error (.incompatibleAbi language.abi)

def load (host : Host) (entry : Entry) : Except LoadFailure LoadedGrammar :=
  match entry.loadLanguage host with
  | .ok language => .ok ⟨entry.name, language, language.abi, entry.provider.isDynamic⟩
  | .error fault => .error ⟨entry.name, entry.displayName, fault⟩

end Entry

structure Verification where
  grammar : String
  result : Except LoadFailure LoadedGrammar

def Verification.passed (verification : Verification) : Bool := verification.result.isOk

def Registry.verifyAll (host : Host) (registry : Registry) : List Verification :=
  registry.entries.map fun entry => ⟨entry.name, entry.load host⟩

end GrammarCheck
