import GrammarCheck.Conformance
import GrammarCheck.Grammar.Reading
import GrammarCheck.Loading
import GrammarCheck.Sample

/-! Reports on the grammars of a registry. A grammar passes if it loads and every check that its entry
asks for passes, and each of these checks leaves a note, whatever came of the one before. -/
namespace GrammarCheck

structure Note where
  passed : Bool
  text : String

namespace Note

def ofGrammar (host : Host) (language : Language) (path : Path) : Note :=
  match Grammar.load host.readText path with
  | .error error => ⟨false, error.message⟩
  | .ok grammar =>
    let report := Conformance.check grammar language
    if report.isClean then ⟨true, "grammar.json conforms"⟩
    else ⟨false, s!"{report.findingCount} node kinds out of step with grammar.json"⟩

/-- Rows and columns as they are shown, counted from one. -/
def firstErrorText : Option Position → String
  | none => ""
  | some position => s!" (first at {position.row + 1}:{position.column + 1})"

def ofSample (host : Host) (language : Language) (path : Path) : Note :=
  match language.loadSample host.readText path with
  | .error error => ⟨false, error.message⟩
  | .ok report =>
    if report.isClean then ⟨true, s!"sample parsed as {report.rootKind}"⟩
    else ⟨false, s!"sample has {report.errorCount} syntax errors{firstErrorText report.firstError}"⟩

end Note

def Entry.notes (host : Host) (entry : Entry) (language : Language) : List Note :=
  entry.grammarJson.toList.map (Note.ofGrammar host language) ++
    entry.sample.toList.map (Note.ofSample host language)

structure Report where
  passed : Bool
  text : String

namespace Report

def ofLoaded (loaded : LoadedGrammar) (notes : List Note) : Report :=
  let detail := String.join (notes.map fun note => "; " ++ note.text)
  if notes.all (·.passed) then ⟨true, s!"ok {loaded.name} (abi {loaded.abi}){detail}"⟩
  else ⟨false, s!"FAIL {loaded.name}: loaded (abi {loaded.abi}){detail}"⟩

def ofVerification (host : Host) (entry : Entry) (verification : Verification) : Report :=
  match verification.result with
  | .error failure => ⟨false, s!"FAIL {verification.grammar}: {failure.detailed}"⟩
  | .ok loaded => ofLoaded loaded (entry.notes host loaded.language)

end Report

def Registry.reports (host : Host) (registry : Registry) : List Report :=
  List.zipWith (Report.ofVerification host) registry.entries (registry.verifyAll host)

end GrammarCheck
