import GrammarCheck.Proofs.Json.Strict
import GrammarCheck.Proofs.Registry.Invariant
import GrammarCheck.Proofs.RegistryFile.Endless
import GrammarCheck.Proofs.RegistryFile.Scanning

/-! Registry texts that are refused as malformed. Main statement: these are the texts that neither start with a
file in the dialect of the reader nor are read without end. As the dialect is wider than JSON, some texts that
are no JSON are accepted. -/
namespace GrammarCheck

namespace RegistryFile

theorem Members.getLast? {under : String → List Token → Prop} {keys : List String} {row : List Token}
    (members : Members under keys row) : row.getLast? = some .closeObject := by
  induction members with
  | close => rfl
  | member _ _ _ last => simp [List.getLast?_append, List.getLast?_cons, last]

theorem File.getLast? {row : List Token} (file : File row) : row.getLast? = some .closeObject := by
  obtain ⟨members, _⟩ := file
  simp [List.getLast?_cons, members.getLast?]

/-- A text that starts with the spelling of a registry file. -/
def Loose (text : List Char) : Prop :=
  ∃ front rest row, text = front ++ rest ∧ Scanned front row ∧ File row

theorem ofText_isOk {text : String} : (∃ file, ofText text = .ok file) ↔ Loose text.toList := by
  rw [ofText, ofTokens_isOk]
  constructor
  · rintro ⟨row, more, file, read⟩
    obtain ⟨front, rest, same, scanned⟩ := scanned_of_tokens file.getLast? read
    exact ⟨front, rest, row, same, scanned, file⟩
  · rintro ⟨front, rest, row, same, scanned, file⟩
    exact ⟨row, tokens rest, file, by rw [same, tokens_scanned scanned]⟩

end RegistryFile

namespace Registry

theorem ofEntries_ne_malformed {entries : List Entry} {failure : RegistryFile.Failure} :
    ofEntries entries ≠ .error (.malformed failure) := by
  intro refused
  unfold ofEntries at refused
  split at refused
  · cases refused
  · split at refused
    · next found =>
      cases refused
      obtain ⟨_, other | other⟩ := nameFault?_names found <;> contradiction
    · contradiction

theorem ofText_malformed {text : String} {base : Path} {failure : RegistryFile.Failure} :
    ofText text base = .error (.malformed failure) ↔ RegistryFile.ofText text = .error failure := by
  rw [ofText]
  cases RegistryFile.ofText text with
  | error failure => simp
  | ok file => simp [ofFile, ofEntries_ne_malformed]

/-- What comes of a text. If it starts with a file, the entries of the file decide. If a bracket in it stays open
under a key that is not known, there is no result. Any other text is refused, if the piece of it that is shown
can be cut out. -/
structure Received (text : String) (result : Except RegistryError Registry) : Prop where
  accepted : RegistryFile.Loose text.toList → ∀ failure, result ≠ .error (.malformed failure)
  endless : result = .error (.malformed .endless) ↔ RegistryFile.OpenFile (RegistryFile.tokens text.toList)
  refused : ¬ RegistryFile.Loose text.toList → ¬ RegistryFile.OpenFile (RegistryFile.tokens text.toList) →
    RegistryFile.Quotable text.toList → ∃ fault, result = .error (.malformed (.fault fault))

/-- A file with more text after it. -/
def trailedText : String := "\x7b\"grammars\":[\x7b\"name\":\"a\"\x7d]\x7d x"

/-- A file with a comma before its first member, and no colon after the key. -/
def unseparatedText : String := "\x7b,\"grammars\"[\x7b\"name\":\"a\"\x7d]\x7d"

/-- A file with an unknown escape, and under an unknown key brackets that do not match and a number with a
zero in front. -/
def mismatchedText : String := "\x7b\"grammars\":[\x7b\"name\":\"\\a\",\"x\":[01\x7d\x7d]\x7d"

/-- A file that ends inside a list under an unknown key. -/
def unclosedText : String := "\x7b\"grammars\":[\x7b\"name\":\"a\"\x7d],\"x\":["

end Registry
end GrammarCheck
