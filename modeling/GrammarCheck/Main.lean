import GrammarCheck.Bundled.Exports
import GrammarCheck.CommandLine.Run
import GrammarCheck.Files

/-! The program. It looks at the files a run can ask for, runs on what it saw, and prints. A library is
told by its header, and the languages in it are the bundled ones. -/
namespace GrammarCheck

/-- Whether a file starts like a library and is long enough to be one. -/
def isLibrary (content : ByteArray) : Bool :=
  headerLength ≤ content.size && (content.extract 0 4).toList == [0x7f, 0x45, 0x4c, 0x46]

/-- Looks at one path. A directory can be opened, so the failure to read it comes without a name. -/
def look (path : Path) : IO (Except Absence Content) := do
  try
    let content ← IO.FS.readBinFile path.text
    if isLibrary content then return .ok (.library Bundled.exports) else return .ok (.bytes content)
  catch failure =>
    match failure with
    | .inappropriateType none .. => return .ok .directory
    | .inappropriateType (some _) .. => return .error .notDirectory
    | .invalidArgument .. => return .error .nameTooLong
    | _ => return .error .missing

def Entry.paths (entry : Entry) : List Path :=
  entry.grammarJson.toList ++ entry.sample.toList ++
    match entry.provider with
    | .library path _ => [path]
    | .linked _ => []

def lookAll (paths : List Path) : IO Host := do
  let found ← paths.mapM fun path => return (path, ← look path)
  return .ofFiles fun path => ((found.find? (·.1 == path)).map (·.2)).getD (.error .missing)

def lookFor (arguments : List String) : IO Host := do
  match Arguments.ofList arguments with
  | .error _ => lookAll []
  | .ok arguments =>
    let registryPaths := arguments.registry.toList.map Path.mk
    let host ← lookAll registryPaths
    match arguments.chooseRegistry host with
    | .error _ => return host
    | .ok registry => lookAll (registryPaths ++ registry.entries.flatMap Entry.paths)

end GrammarCheck

open GrammarCheck in
def main (arguments : List String) : IO UInt32 := do
  let outcome := run (← lookFor arguments) arguments
  IO.print outcome.stdout
  IO.eprint outcome.stderr
  while outcome.status = .never do
    IO.sleep 1000
  return (outcome.status : Nat).toUInt32
