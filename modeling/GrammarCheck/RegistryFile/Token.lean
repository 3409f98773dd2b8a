import GrammarCheck.RegistryFile.Number
import GrammarCheck.RegistryFile.Quotation

/-! The tokens of a registry file. It is read more freely than JSON: separators are left to the reader,
and what follows a word is not looked at. A fault in the text is the last token. -/
namespace GrammarCheck.RegistryFile

inductive Token where
  | openObject
  | closeObject
  | openList
  | closeList
  | colon
  | comma
  | string (value : String)
  | number (value : Number)
  | boolean (value : Bool)
  | null
  | fault (fault : Fault)

/-- What is left of the text after the letters of a word. -/
def afterWord? (letters : List Char) (text : List Char) : Option (List Char) :=
  if letters.isPrefixOf text then some (text.drop letters.length) else none

def word (value : Token) (letters : String) (c : Char) (rest : List Char) : Token × List Char :=
  match afterWord? letters.toList rest with
  | some rest => (value, rest)
  | none => (.fault (.strayCharacter c), [])

def numeral (negative : Bool) (text : List Char) : Token × List Char :=
  match number negative text with
  | (.ok value, rest) => (.number value, rest)
  | (.error fault, _) => (.fault fault, [])

def token (c : Char) (rest : List Char) : Token × List Char :=
  match c with
  | '{' => (.openObject, rest)
  | '}' => (.closeObject, rest)
  | '[' => (.openList, rest)
  | ']' => (.closeList, rest)
  | ':' => (.colon, rest)
  | ',' => (.comma, rest)
  | '"' =>
    match quotation true rest with
    | .ok result => (.string (String.ofList result.text), result.after)
    | .error fault => (.fault fault, [])
  | 'n' => word .null "ull" c rest
  | 't' => word (.boolean true) "rue" c rest
  | 'f' => word (.boolean false) "alse" c rest
  | '-' => numeral true rest
  | c => if c.isDigit then numeral false (c :: rest) else (.fault (.strayCharacter c), [])

theorem length_after_word (value : Token) (letters : String) (c : Char) (rest : List Char) :
    (word value letters c rest).2.length ≤ rest.length := by
  unfold word afterWord?
  split
  · next found => split at found <;> simp_all; subst found; simp
  · simp

theorem length_after_numeral (negative : Bool) (text : List Char) :
    (numeral negative text).2.length ≤ (text.dropWhile Char.isDigit).length := by
  have bound := length_after_number negative text
  unfold numeral
  split
  · next found => simpa [found] using bound
  · simp

theorem length_after_token (c : Char) (rest : List Char) : (token c rest).2.length ≤ rest.length := by
  unfold token
  split
  · simp
  · simp
  · simp
  · simp
  · simp
  · simp
  · split
    · next ok => exact length_after_quotation ok
    · simp
  · exact length_after_word ..
  · exact length_after_word ..
  · exact length_after_word ..
  · exact Nat.le_trans (length_after_numeral true rest) (length_dropWhile_le rest)
  · split
    · next digit =>
      refine Nat.le_trans (length_after_numeral false _) ?_
      rw [List.dropWhile_cons_of_pos digit]
      exact length_dropWhile_le rest
    · simp

def isBlank (c : Char) : Bool := c == ' ' || c == '\t' || c == '\n' || c == '\r'

def tokens : List Char → List Token
  | [] => []
  | c :: rest =>
    if isBlank c then tokens rest
    else (token c rest).1 :: tokens (token c rest).2
termination_by text => text.length
decreasing_by
  · simp
  · exact Nat.lt_succ_of_le (length_after_token c rest)

end GrammarCheck.RegistryFile
