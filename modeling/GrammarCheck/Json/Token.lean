import GrammarCheck.Json.Quotation
import GrammarCheck.Json.Number

/-! JSON text as tokens. Blanks are dropped here and nowhere else, and every token remembers where it
starts. The tokens end early at a byte that starts none and at a literal that cannot be passed over:
no reader gets past either. -/
namespace GrammarCheck.Json

inductive Scalar where
  | null
  | boolean (value : Bool)
  | number (value : Number)
  | string (value : String)

def Scalar.description : Scalar → String
  | .null => "null"
  | .boolean value => s!"boolean `{value}`"
  | .number value => value.description
  | .string value => "string " ++ Text.quoted value

/-- A literal as it reads when it is kept and when it is passed over. -/
structure Literal where
  isQuoted : Bool
  value : Except Fault Scalar
  skipFault? : Option Fault
  after : Place

inductive Token.Kind where
  | openList
  | closeList
  | openObject
  | closeObject
  | comma
  | colon
  | literal (literal : Literal)
  | stray

structure Token where
  place : Place
  kind : Token.Kind

namespace Literal

def quotation (rest : Place) : Literal :=
  let scan := Quotation.scan rest
  ⟨true, Scalar.string <$> scan.text, scan.ending.skipFault?, scan.after⟩

def numeral (place : Place) : Literal :=
  match Numeral.scan place with
  | .found parts after => ⟨false, Scalar.number <$> parts.value after, none, after⟩
  | .broken kept skipped => ⟨false, .error kept, some skipped, []⟩

def matchWord : List Char → Place → Except Fault Place
  | [], place => .ok place
  | _ :: _, [] => .error (Cause.endInValue.here [])
  | c :: word, d :: rest =>
    if c = d then matchWord word rest else .error (Cause.expectedWord.next (d :: rest))

/-- The rest of a word whose first letter has told which it is. -/
def word (value : Scalar) (letters : String) (rest : Place) : Literal :=
  match matchWord letters.toList rest with
  | .ok after => ⟨false, .ok value, none, after⟩
  | .error fault => ⟨false, .error fault, some fault, []⟩

def scan? (c : Char) (rest : Place) : Option Literal :=
  match c with
  | '"' => some (quotation rest)
  | 'n' => some (word .null "ull" rest)
  | 't' => some (word (.boolean true) "rue" rest)
  | 'f' => some (word (.boolean false) "alse" rest)
  | c => if c = '-' ∨ c.isDigit then some (numeral (c :: rest)) else none

theorem length_matchWord {word : List Char} {place after : Place}
    (ok : matchWord word place = .ok after) : after.length ≤ place.length := by
  fun_induction matchWord word place with
  | case1 => simp_all
  | case2 => contradiction
  | case3 _ _ _ ih => exact Nat.le_succ_of_le (ih ok)
  | case4 => contradiction

theorem length_after_word (value : Scalar) (letters : String) (rest : Place) :
    (word value letters rest).after.length ≤ rest.length := by
  unfold word
  split
  · next ok => exact length_matchWord ok
  · simp

theorem length_after_numeral (c : Char) (rest : Place) :
    (numeral (c :: rest)).after.length ≤ rest.length := by
  have bound := Numeral.length_after_scan c rest
  unfold numeral
  split
  · next found => simpa [found, Numeral.Scan.after] using bound
  · simp

theorem length_after_scan? {c : Char} {rest : Place} {literal : Literal}
    (found : scan? c rest = some literal) : literal.after.length ≤ rest.length := by
  unfold scan? at found
  split at found
  · cases found; exact Quotation.length_after_scan rest
  · cases found; exact length_after_word ..
  · cases found; exact length_after_word ..
  · cases found; exact length_after_word ..
  · split at found
    · cases found; exact length_after_numeral ..
    · contradiction

end Literal

def isBlank (c : Char) : Bool := c == ' ' || c == '\n' || c == '\t' || c == '\r'

def Token.Kind.punctuation? : Char → Option Token.Kind
  | '[' => some .openList
  | ']' => some .closeList
  | '{' => some .openObject
  | '}' => some .closeObject
  | ',' => some .comma
  | ':' => some .colon
  | _ => none

def tokens : List Char → List Token
  | [] => []
  | c :: rest =>
    if isBlank c then tokens rest
    else
      match Token.Kind.punctuation? c with
      | some kind => ⟨c :: rest, kind⟩ :: tokens rest
      | none =>
        match _found : Literal.scan? c rest with
        | some literal =>
          ⟨c :: rest, .literal literal⟩ ::
            if literal.skipFault?.isSome then [] else tokens literal.after
        | none => [⟨c :: rest, .stray⟩]
termination_by text => text.length
decreasing_by
  · simp
  · simp
  · exact Nat.lt_succ_of_le (Literal.length_after_scan? _found)

end GrammarCheck.Json
