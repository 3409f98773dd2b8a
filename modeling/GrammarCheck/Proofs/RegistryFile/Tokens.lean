import GrammarCheck.Proofs.Json.Tokens
import GrammarCheck.Proofs.RegistryFile.Number
import GrammarCheck.Proofs.RegistryFile.Quotation
import GrammarCheck.RegistryFile.Token

/-! The reader's tokens beside the lexemes of JSON. Main statements: wherever blanks stand, a text of
lexemes is read as their tokens, up to the first that is a fault, if no number runs into what stands
after it. -/
namespace GrammarCheck.RegistryFile
open Json (Lexeme Lexed Parted)
open Json.Numeral (Ended)
open Text (units ofUnits)

/-- What a lexeme is read as. -/
def hear : Lexeme → Except Fault Token
  | .openObject => .ok .openObject
  | .closeObject => .ok .closeObject
  | .openList => .ok .openList
  | .closeList => .ok .closeList
  | .colon => .ok .colon
  | .comma => .ok .comma
  | .null => .ok .null
  | .boolean value => .ok (.boolean value)
  | .number literal => .number <$> numberOf literal
  | .string units => (.string <| String.ofList ·) <$> textOf units

/-- What a row of lexemes is read as. A fault ends the reading. -/
def heard : List Lexeme → List Token
  | [] => []
  | lexeme :: rest =>
    match hear lexeme with
    | .ok token => token :: heard rest
    | .error fault => [.fault fault]

/-- A fault stops a reading. -/
def stopping {α : Type} (result : Except Fault α) : Except Failure α := result.mapError .fault

/-- A token and what is left of the text, or the fault that ends it. -/
def tokenThen (rest : List Char) : Except Fault Token → Token × List Char
  | .ok token => (token, rest)
  | .error fault => (.fault fault, [])

theorem numeral_eq (negative : Bool) (text : List Char) :
    numeral negative text = tokenThen (number negative text).2 (.number <$> (number negative text).1) := by
  unfold numeral
  split
  · next same => rw [same]; rfl
  · next same => rw [same]; rfl

theorem token_digit {c : Char} (digit : '0' ≤ c ∧ c ≤ '9') (rest : List Char) :
    isBlank c = false ∧ token c rest = numeral false (c :: rest) := by
  have other {d : Char} (noDigit : d.isDigit = false) : c ≠ d := Json.Numeral.digit_ne digit noDigit
  have isDigit := Json.Numeral.isDigit_of_digit digit
  constructor
  · simp [isBlank, other (d := ' ') rfl, other (d := '\n') rfl, other (d := '\t') rfl, other (d := '\r') rfl]
  · unfold token
    split <;> first | exact absurd isDigit (by decide) | exact if_pos isDigit

theorem token_of_spelled {lexeme : Lexeme} {spelling rest : List Char} (spelled : lexeme.Spelled spelling)
    (ended : ∀ literal, lexeme = .number literal → Ended rest) :
    ∃ c more, spelling = c :: more ∧ isBlank c = false ∧ token c (more ++ rest) = tokenThen rest (hear lexeme) := by
  cases spelled with
  | @string body units inside =>
    refine ⟨'"', body ++ ['"'], rfl, rfl, ?_⟩
    have read := (readsUnits_of_spells inside).whole true rest
    rw [List.append_assoc, List.singleton_append, token, read, hear]
    cases textOf units <;> rfl
  | @number sign whole fraction exponent proper =>
    have read := number_of_parts (parts_of_proper proper) (ended _ rfl)
    rw [hear, numberOf_proper proper]
    rcases proper.signed with rfl | rfl
    · obtain ⟨c, more, rfl⟩ := List.exists_cons_of_ne_nil proper.digits.1
      obtain ⟨solid, digit⟩ := token_digit (proper.digits.2 c (.head _)) (more ++ (fraction ++ (exponent ++ rest)))
      refine ⟨c, more ++ fraction ++ exponent, by simp, solid, ?_⟩
      rw [List.append_assoc, List.append_assoc, digit, numeral_eq, ← List.cons_append, read]
      rfl
    · refine ⟨'-', whole ++ fraction ++ exponent, by simp, rfl, ?_⟩
      rw [List.append_assoc, List.append_assoc]
      show numeral true _ = _
      rw [numeral_eq, read]
      rfl
  | _ => exact ⟨_, _, rfl, rfl, rfl⟩

theorem tokens_heard {text : List Char} {lexemes : List Lexeme} (lexed : Lexed text lexemes)
    (parted : Parted lexemes) : tokens text = heard lexemes := by
  induction lexed with
  | nil => rw [tokens]; rfl
  | blank blank _ ih =>
    rw [tokens, if_pos, ih parted]
    simpa [isBlank, or_assoc, or_comm, or_left_comm] using blank
  | @cons lexeme spelling rest lexemes spelled more ih =>
    obtain ⟨next, others⟩ := List.isChain_cons.mp parted
    have ended : ∀ literal, lexeme = .number literal → Ended rest := by
      rintro literal rfl
      exact Json.ended_of_lexed more next
    obtain ⟨c, more, rfl, solid, found⟩ := token_of_spelled spelled ended
    rw [List.cons_append, tokens, solid, found, heard]
    cases hear lexeme with
    | error fault => simp [tokenThen, tokens]
    | ok token => simp [tokenThen, ih others]

theorem tokens_of_denotes {text : String} {value : Json.Value} (denotes : Json.Denotes text value) :
    tokens text.toList = heard value.lexemes := by
  have parted := Json.partsFromMarks value [] .nil (by simp [Json.Marked])
  rw [List.append_nil] at parted
  exact tokens_heard denotes parted

/-- The token that a lexeme is read as. -/
def lexemeToken : Lexeme → Token
  | .openObject => .openObject
  | .closeObject => .closeObject
  | .openList => .openList
  | .closeList => .closeList
  | .colon => .colon
  | .comma => .comma
  | .null => .null
  | .boolean value => .boolean value
  | .number literal => (token (literal.headD ' ') literal.tail).1
  | .string units => .string (String.ofList (ofUnits units))

/-- A lexeme that is read as its token wherever it stands. A number is not, since it goes on with the
digits after it, nor is half a character. -/
def Readable : Lexeme → Prop
  | .number _ => False
  | .string half => ∃ text, half = units text
  | _ => True

theorem hear_readable {lexeme : Lexeme} (readable : Readable lexeme) : hear lexeme = .ok (lexemeToken lexeme) := by
  cases lexeme with
  | number => exact readable.elim
  | string =>
    obtain ⟨text, rfl⟩ := readable
    rw [hear, textOf_units, lexemeToken, Text.ofUnits_units]
    rfl
  | _ => rfl

theorem tokens_of_lexed {text : List Char} {lexemes : List Lexeme} (lexed : Lexed text lexemes)
    (readable : ∀ lexeme ∈ lexemes, Readable lexeme) : tokens text = lexemes.map lexemeToken := by
  have parted : Parted lexemes := by
    clear lexed
    induction lexemes with
    | nil => exact .nil
    | cons lexeme lexemes ih =>
      obtain ⟨own, others⟩ := List.forall_mem_cons.mp readable
      refine List.isChain_cons.mpr ⟨fun next _ => ?_, ih others⟩
      cases lexeme with
      | number => exact own.elim
      | _ => exact trivial
  rw [tokens_heard lexed parted]
  clear lexed parted
  induction lexemes with
  | nil => rfl
  | cons lexeme lexemes ih =>
    obtain ⟨own, others⟩ := List.forall_mem_cons.mp readable
    rw [heard, hear_readable own, ih others]
    rfl

end GrammarCheck.RegistryFile
