import GrammarCheck.Language
import GrammarCheck.Path

/-! The surroundings of a check: files, and libraries that languages come from. -/
namespace GrammarCheck

/-- A library that was opened. A symbol gives a language, which may be null, or the reason why it is
not found. -/
structure Library where
  find : String → Except String (Option Language)

structure Host where
  readText : Path → Option String
  openLibrary : Path → Except String Library

end GrammarCheck
