import GrammarCheck.Proofs.Json.Quotation
import GrammarCheck.Proofs.Json.Value
import Mathlib.Data.List.Chain
import Mathlib.Data.List.Forall2

/-! The tokens of a text beside its lexemes. Main statement: a text of lexemes has a token for each of
them, wherever blanks stand, if no number runs into what stands after it. -/
namespace GrammarCheck.Json

def Lexeme.punctuation? : Lexeme → Option Token.Kind
  | .openList => some .openList
  | .closeList => some .closeList
  | .openObject => some .openObject
  | .closeObject => some .closeObject
  | .comma => some .comma
  | .colon => some .colon
  | _ => none

def Lexeme.isString : Lexeme → Bool
  | .string _ => true
  | _ => false

/-- The literal says what the lexeme says, and can be passed over. -/
structure Literal.Shows (literal : Literal) (lexeme : Lexeme) : Prop where
  quoted : literal.isQuoted = lexeme.isString
  kept : literal.value.toOption = lexeme.scalar?
  skipped : literal.skipFault? = none

inductive Token.Shows : Token → Lexeme → Prop
  | punctuation {place : Place} {kind : Token.Kind} {lexeme : Lexeme} (same : lexeme.punctuation? = some kind) :
      Shows ⟨place, kind⟩ lexeme
  | literal {place : Place} {literal : Literal} {lexeme : Lexeme} (scalar : lexeme.punctuation? = none)
      (shown : literal.Shows lexeme) : Shows ⟨place, .literal literal⟩ lexeme

/-- Between a number and the next lexeme there is a mark that is part of neither. -/
def Lexeme.PartedFrom (next : Lexeme) : Lexeme → Prop
  | .number _ => next.punctuation?.isSome = true
  | _ => True

def Parted (lexemes : List Lexeme) : Prop := lexemes.IsChain fun lexeme next => next.PartedFrom lexeme

theorem ended_cons {c : Char} {rest : Place} (digit : c.isDigit = false) (point : c ≠ '.') (small : c ≠ 'e')
    (capital : c ≠ 'E') : Numeral.Ended (c :: rest) := by
  constructor
  · intro d same
    cases same
    exact digit
  · simpa using point
  · intro d same
    cases same
    exact ⟨small, capital⟩

theorem ended_of_lexed {rest : List Char} {lexemes : List Lexeme} (lexed : Lexed rest lexemes)
    (mark : ∀ next ∈ lexemes.head?, next.punctuation?.isSome = true) : Numeral.Ended rest := by
  cases lexed with
  | nil => exact Numeral.ended_nil
  | blank blank _ =>
    simp only [List.mem_cons, List.not_mem_nil, or_false] at blank
    rcases blank with rfl | rfl | rfl | rfl <;> exact ended_cons rfl (by decide) (by decide) (by decide)
  | cons spelled _ =>
    have mark := mark _ rfl
    cases spelled with
    | openObject => exact ended_cons rfl (by decide) (by decide) (by decide)
    | closeObject => exact ended_cons rfl (by decide) (by decide) (by decide)
    | openList => exact ended_cons rfl (by decide) (by decide) (by decide)
    | closeList => exact ended_cons rfl (by decide) (by decide) (by decide)
    | colon => exact ended_cons rfl (by decide) (by decide) (by decide)
    | comma => exact ended_cons rfl (by decide) (by decide) (by decide)
    | _ => contradiction

theorem tokens_blank {c : Char} (blank : c ∈ [' ', '\t', '\n', '\r']) (rest : List Char) :
    tokens (c :: rest) = tokens rest := by
  rw [tokens, if_pos]
  simpa [isBlank, or_assoc, or_comm, or_left_comm] using blank

theorem tokens_mark {c : Char} {kind : Token.Kind} (solid : isBlank c = false)
    (mark : Token.Kind.punctuation? c = some kind) (rest : List Char) :
    tokens (c :: rest) = ⟨c :: rest, kind⟩ :: tokens rest := by
  rw [tokens, if_neg (by simp [solid]), mark]

theorem tokens_literal {c : Char} {literal : Literal} {rest : List Char} (solid : isBlank c = false)
    (mark : Token.Kind.punctuation? c = none) (found : Literal.scan? c rest = some literal)
    (skipped : literal.skipFault? = none) :
    tokens (c :: rest) = ⟨c :: rest, .literal literal⟩ :: tokens literal.after := by
  rw [tokens, if_neg (by simp [solid]), mark]
  dsimp only
  split
  · next other same =>
    rw [found] at same
    cases same
    simp [skipped]
  · next none =>
    rw [found] at none
    contradiction

theorem word_shows (letters : String) (lexeme : Lexeme) {spelling : List Char}
    (same : letters.toList = spelling) {value : Scalar} (bare : lexeme.isString = false) (scalar : lexeme.scalar? = some value) (rest : Place) :
    (Literal.word value letters (spelling ++ rest)).Shows lexeme ∧
      (Literal.word value letters (spelling ++ rest)).after = rest := by
  have matched : Literal.matchWord letters.toList (spelling ++ rest) = .ok rest := by
    rw [same]
    clear same
    induction spelling with
    | nil => cases rest <;> rfl
    | cons c spelling ih => rw [List.cons_append, Literal.matchWord, if_pos rfl, ih]
  rw [Literal.word, matched]
  exact ⟨⟨bare.symm, scalar.symm, rfl⟩, rfl⟩

theorem quotation_shows {body : List Char} {units : List Nat} (inside : Spells body units) (rest : Place) :
    (Literal.quotation (body ++ '"' :: rest)).Shows (.string units) ∧
      (Literal.quotation (body ++ '"' :: rest)).after = rest := by
  obtain ⟨pieces, scanned, same⟩ := Quotation.scan_of_spells inside rest
  have kept := Quotation.toOption_keep rest pieces
  rw [same] at kept
  rw [Literal.quotation, scanned]
  refine ⟨⟨rfl, ?_, rfl⟩, rfl⟩
  rw [Lexeme.scalar?, ← kept]
  simp only [Quotation.Scan.text]
  cases Quotation.keep (.closed rest) pieces <;> rfl

theorem numeral_start {c : Char} (start : c = '-' ∨ '0' ≤ c ∧ c ≤ '9') (rest : Place) : isBlank c = false ∧
    Token.Kind.punctuation? c = none ∧ Literal.scan? c rest = some (Literal.numeral (c :: rest)) := by
  rcases start with rfl | digit
  · exact ⟨rfl, rfl, rfl⟩
  · have other {d : Char} (noDigit : d.isDigit = false) : c ≠ d := Numeral.digit_ne digit noDigit
    have isDigit := Numeral.isDigit_of_digit digit
    refine ⟨?_, ?_, ?_⟩
    · simp [isBlank, other (d := ' ') rfl, other (d := '\n') rfl, other (d := '\t') rfl, other (d := '\r') rfl]
    · unfold Token.Kind.punctuation?
      split <;> first | rfl | exact absurd isDigit (by decide)
    · unfold Literal.scan?
      split
      · exact absurd isDigit (by decide)
      · exact absurd isDigit (by decide)
      · exact absurd isDigit (by decide)
      · exact absurd isDigit (by decide)
      · exact if_pos (.inr isDigit)

theorem start_of_proper {sign whole fraction exponent : List Char}
    (proper : Numeral.Proper sign whole fraction exponent) :
    ∃ c more, sign ++ whole ++ fraction ++ exponent = c :: more ∧ (c = '-' ∨ '0' ≤ c ∧ c ≤ '9') := by
  rcases proper.signed with rfl | rfl
  · obtain ⟨c, more, rfl⟩ := List.exists_cons_of_ne_nil proper.digits.1
    exact ⟨c, more ++ fraction ++ exponent, rfl, .inr (proper.digits.2 c (.head _))⟩
  · exact ⟨'-', whole ++ fraction ++ exponent, rfl, .inl rfl⟩

theorem tokens_of_spelled {lexeme : Lexeme} {spelling rest : List Char} (spelled : lexeme.Spelled spelling)
    (ended : ∀ literal, lexeme = .number literal → Numeral.Ended rest) :
    ∃ token : Token, token.Shows lexeme ∧ tokens (spelling ++ rest) = token :: tokens rest := by
  cases spelled with
  | openObject => exact ⟨_, .punctuation rfl, tokens_mark rfl rfl rest⟩
  | closeObject => exact ⟨_, .punctuation rfl, tokens_mark rfl rfl rest⟩
  | openList => exact ⟨_, .punctuation rfl, tokens_mark rfl rfl rest⟩
  | closeList => exact ⟨_, .punctuation rfl, tokens_mark rfl rfl rest⟩
  | colon => exact ⟨_, .punctuation rfl, tokens_mark rfl rfl rest⟩
  | comma => exact ⟨_, .punctuation rfl, tokens_mark rfl rfl rest⟩
  | null =>
    obtain ⟨shown, after⟩ := word_shows "ull" .null rfl rfl rfl rest
    have read := tokens_literal (c := 'n') rfl rfl rfl shown.skipped
    rw [after] at read
    exact ⟨_, .literal rfl shown, read⟩
  | true =>
    obtain ⟨shown, after⟩ := word_shows "rue" (.boolean true) rfl rfl rfl rest
    have read := tokens_literal (c := 't') rfl rfl rfl shown.skipped
    rw [after] at read
    exact ⟨_, .literal rfl shown, read⟩
  | false =>
    obtain ⟨shown, after⟩ := word_shows "alse" (.boolean false) rfl rfl rfl rest
    have read := tokens_literal (c := 'f') rfl rfl rfl shown.skipped
    rw [after] at read
    exact ⟨_, .literal rfl shown, read⟩
  | @number sign whole fraction exponent proper =>
    obtain ⟨value, literal, kept⟩ := Numeral.numeral_proper proper (ended _ rfl)
    obtain ⟨c, more, same, start⟩ := start_of_proper proper
    obtain ⟨solid, mark, found⟩ := numeral_start start (more ++ rest)
    rw [same] at literal kept ⊢
    rw [← List.cons_append, literal] at found
    exact ⟨_, .literal rfl ⟨rfl, kept, rfl⟩, tokens_literal solid mark found rfl⟩
  | @string body units inside =>
    obtain ⟨shown, after⟩ := quotation_shows inside rest
    have read := tokens_literal (c := '"') rfl rfl rfl shown.skipped
    rw [after] at read
    rw [List.cons_append, List.append_assoc]
    exact ⟨_, .literal rfl shown, read⟩

theorem tokens_of_lexed {text : List Char} {lexemes : List Lexeme} (lexed : Lexed text lexemes)
    (parted : Parted lexemes) : List.Forall₂ Token.Shows (tokens text) lexemes := by
  induction lexed with
  | nil =>
    rw [tokens]
    exact .nil
  | blank blank _ ih =>
    rw [tokens_blank blank]
    exact ih parted
  | @cons lexeme spelling rest lexemes spelled more ih =>
    obtain ⟨next, others⟩ := List.isChain_cons.mp parted
    have ended : ∀ literal, lexeme = .number literal → Numeral.Ended rest := by
      rintro literal rfl
      exact ended_of_lexed more next
    obtain ⟨token, shown, read⟩ := tokens_of_spelled spelled ended
    rw [read]
    exact .cons shown (ih others)

/-- Marks come next, or nothing. -/
def Marked (rest : List Lexeme) : Prop := ∀ next ∈ rest.head?, next.punctuation?.isSome = true

theorem parted_cons {lexeme : Lexeme} {rest : List Lexeme} (parted : Parted rest) (marked : Marked rest) :
    Parted (lexeme :: rest) := by
  refine List.isChain_cons.mpr ⟨fun next first => ?_, parted⟩
  cases lexeme with
  | number => exact marked next first
  | _ => exact trivial

theorem parted_mark {mark : Lexeme} {rest : List Lexeme} (isMark : mark.punctuation?.isSome = true)
    (parted : Parted rest) : Parted (mark :: rest) := by
  refine List.isChain_cons.mpr ⟨fun next _ => ?_, parted⟩
  cases mark with
  | number => exact absurd isMark (by simp [Lexeme.punctuation?])
  | _ => exact trivial

theorem parted_separator (first : Bool) {rest : List Lexeme} (parted : Parted rest) :
    Parted (separator first ++ rest) := by
  cases first with
  | false => exact parted_mark rfl parted
  | true => exact parted

theorem marked_cons {mark : Lexeme} (isMark : mark.punctuation?.isSome = true) (rest : List Lexeme) :
    Marked (mark :: rest) := by
  intro next first
  cases first
  exact isMark

/-- A value may stand wherever a mark comes next. -/
def PartsFromMarks (value : Value) : Prop :=
  ∀ rest, Parted rest → Marked rest → Parted (value.lexemes ++ rest)

theorem parted_items {items : List Value} (each : ∀ item ∈ items, PartsFromMarks item) (first : Bool)
    {mark : Lexeme} (isMark : mark.punctuation?.isSome = true) {rest : List Lexeme} (parted : Parted rest) :
    Parted (itemLexemes first items ++ mark :: rest) := by
  induction items generalizing first with
  | nil => exact parted_mark isMark parted
  | cons item items ih =>
    obtain ⟨own, others⟩ := List.forall_mem_cons.mp each
    have marked : Marked (itemLexemes false items ++ mark :: rest) := by
      cases items with
      | nil => exact marked_cons isMark rest
      | cons => exact marked_cons rfl _
    simp only [itemLexemes, List.append_assoc]
    exact parted_separator first (own _ (ih others false) marked)

theorem parted_members {members : List (List Nat × Value)} (each : ∀ member ∈ members, PartsFromMarks member.2)
    (first : Bool) {mark : Lexeme} (isMark : mark.punctuation?.isSome = true) {rest : List Lexeme}
    (parted : Parted rest) : Parted (memberLexemes first members ++ mark :: rest) := by
  induction members generalizing first with
  | nil => exact parted_mark isMark parted
  | cons member members ih =>
    obtain ⟨key, value⟩ := member
    obtain ⟨own, others⟩ := List.forall_mem_cons.mp each
    have marked : Marked (memberLexemes false members ++ mark :: rest) := by
      cases members with
      | nil => exact marked_cons isMark rest
      | cons => exact marked_cons rfl _
    simp only [memberLexemes, List.append_assoc, List.cons_append]
    apply parted_separator first
    apply parted_cons _ (marked_cons rfl _)
    exact parted_mark rfl (own _ (ih others false) marked)

theorem partsFromMarks (value : Value) : PartsFromMarks value := by
  induction value using Value.induction with
  | scalar value lexeme single =>
    intro rest parted marked
    rw [single]
    exact parted_cons parted marked
  | list items each =>
    intro rest parted _
    rw [Value.lexemes, List.cons_append, List.append_assoc]
    exact parted_mark rfl (parted_items each true rfl parted)
  | object members each =>
    intro rest parted _
    rw [Value.lexemes, List.cons_append, List.append_assoc]
    exact parted_mark rfl (parted_members each true rfl parted)

theorem tokens_of_denotes {text : String} {value : Value} (denotes : Denotes text value) :
    List.Forall₂ Token.Shows (tokens text.toList) value.lexemes := by
  have parted := partsFromMarks value [] .nil nofun
  rw [List.append_nil] at parted
  exact tokens_of_lexed denotes parted

end GrammarCheck.Json
