import GrammarCheck.Proofs.Json.Number
import GrammarCheck.Proofs.Json.Tokens
import Mathlib.Data.List.TakeWhile

/-! Literals that the reader gets past, whether it keeps them or passes over them. Main statement: what
such a literal was scanned from is the spelling of one lexeme, be it a word, a number or a string. -/
namespace GrammarCheck.Json

section
variable {α β : Type}

theorem map_eq_ok {result : Except Fault α} {f : α → β} {value : β} :
    f <$> result = .ok value ↔ ∃ x, result = .ok x ∧ f x = value := by
  cases result <;> simp [Functor.map, Except.map]

theorem bind_eq_ok {result : Except Fault α} {next : α → Except Fault β} {value : β} :
    result >>= next = .ok value ↔ ∃ x, result = .ok x ∧ next x = .ok value := by
  cases result <;> simp [bind, Except.bind]

end

theorem hexDigit_of_hexDigit? {c : Char} {value : Nat} (found : hexDigit? c = some value) : HexDigit c value := by
  rw [hexDigit?] at found
  split at found
  · next range =>
    cases found
    exact .digit range.1 range.2
  · split at found
    · next range =>
      cases found
      have lower : 97 ≤ c.toNat := range.1
      have same : c.toNat - 87 = 10 + (c.toNat - 'a'.toNat) := by
        show c.toNat - 87 = 10 + (c.toNat - 97)
        omega
      exact same ▸ .small range.1 range.2
    · split at found
      · next range =>
        cases found
        have lower : 65 ≤ c.toNat := range.1
        have same : c.toNat - 55 = 10 + (c.toNat - 'A'.toNat) := by
          show c.toNat - 55 = 10 + (c.toNat - 65)
          omega
        exact same ▸ .capital range.1 range.2
      · contradiction

theorem hexDigits_of_hexValue? {a b c d : Char} {code : Nat} (found : hexValue? [a, b, c, d] = some code) :
    ∃ i j k l, HexDigit a i ∧ HexDigit b j ∧ HexDigit c k ∧ HexDigit d l ∧
      code = 0x1000 * i + 0x100 * j + 0x10 * k + l := by
  simp only [hexValue?, List.foldlM_cons, List.foldlM_nil, Option.bind_eq_bind, Option.bind_eq_some_iff,
    Option.map_eq_some_iff, Option.pure_def, Option.some.injEq] at found
  obtain ⟨_, ⟨i, first, rfl⟩, _, ⟨j, second, rfl⟩, _, ⟨k, third, rfl⟩, _, ⟨l, fourth, rfl⟩, rfl⟩ := found
  refine ⟨i, j, k, l, hexDigit_of_hexDigit? first, hexDigit_of_hexDigit? second, hexDigit_of_hexDigit? third,
    hexDigit_of_hexDigit? fourth, ?_⟩
  omega

theorem mem_escapes {letter c : Char} (found : escapeValue? letter = some c) : (letter, c) ∈ escapes := by
  unfold escapeValue? at found
  split at found
  case h_9 => contradiction
  all_goals
    cases found
    decide

namespace Quotation

theorem spells_of_closed {text after : List Char} (closed : (scan text).ending = .closed after) :
    ∃ body units, text = body ++ '"' :: after ∧ Spells body units := by
  fun_induction scan text with
  | case2 rest =>
    cases closed
    exact ⟨[], [], rfl, .nil⟩
  | case3 a b c d rest code found ih =>
    obtain ⟨body, units, rfl, more⟩ := ih closed
    obtain ⟨i, j, k, l, first, second, third, fourth, _⟩ := hexDigits_of_hexValue? found
    exact ⟨_, _, rfl, .unit first second third fourth more⟩
  | case5 rest _ => by_cases short : bytes rest < 4 <;> simp [short] at closed
  | case6 c rest _ _ value found ih =>
    obtain ⟨body, units, rfl, more⟩ := ih closed
    exact ⟨_, _, rfl, .escape (mem_escapes found) more⟩
  | case10 c rest quote _ _ follows alone visible ih =>
    obtain ⟨body, units, same, more⟩ := ih closed
    have backslash : c ≠ '\\' := by
      intro escape
      cases rest with
      | nil => exact alone escape rfl
      | cons letter rest => exact follows letter rest escape rfl
    refine ⟨c :: body, _, congrArg (c :: ·) same, .plain (Char.not_lt.mp visible) quote backslash more⟩
  | _ => contradiction

theorem closed_of_keep {ending : Ending} {pieces : List Piece} {text : List Char}
    (kept : keep ending pieces = .ok text) : ∃ after, ending = .closed after := by
  fun_induction keep ending pieces generalizing text with
  | case2 faultless =>
    cases ending with
    | closed after => exact ⟨after, rfl⟩
    | _ => contradiction
  | case3 | case4 | case6 | case11 =>
    rename_i ih
    obtain ⟨_, kept, _⟩ := map_eq_ok.mp kept
    exact ih kept
  | _ => contradiction

end Quotation

namespace Numeral

theorem digit_of_isDigit {c : Char} (digit : c.isDigit = true) : '0' ≤ c ∧ c ≤ '9' := by
  simpa [Char.isDigit, Char.le_def] using digit

theorem digits_takeWhile (text : List Char) : ∀ c ∈ text.takeWhile Char.isDigit, '0' ≤ c ∧ c ≤ '9' :=
  fun _ inside => digit_of_isDigit (List.mem_takeWhile_imp inside)

section
variable {negative : Bool} {whole : List Char} {place after : Place} {parts : Parts}

theorem power_of_found {fraction : Option (List Char)}
    (found : scanExponent negative whole fraction place = .found parts after) :
    ∃ exponent, Power exponent ∧ place = exponent ++ after := by
  revert found
  fun_cases scanExponent negative whole fraction place with
  | case3 e rest letter down c more digit signed =>
    intro found
    cases found
    have sign : ∃ sign, (sign = [] ∨ sign = ['+'] ∨ sign = ['-']) ∧ rest = sign ++ c :: more := by
      split at signed
      · cases signed; exact ⟨['+'], .inr (.inl rfl), rfl⟩
      · cases signed; exact ⟨['-'], .inr (.inr rfl), rfl⟩
      · cases signed; exact ⟨[], .inl rfl, rfl⟩
    obtain ⟨sign, known, rfl⟩ := sign
    refine ⟨e :: (sign ++ c :: more.takeWhile Char.isDigit), .inr ⟨e, sign, _, letter, known, ⟨by simp, ?_⟩, rfl⟩, ?_⟩
    · exact List.forall_mem_cons.mpr ⟨digit_of_isDigit digit, digits_takeWhile more⟩
    · simp [List.takeWhile_append_dropWhile]
  | case1 | case5 =>
    intro found
    cases found
    exact ⟨[], .inl rfl, rfl⟩
  | case2 | case4 => intro broken; contradiction

theorem point_of_found (found : scanFraction negative whole place = .found parts after) :
    ∃ fraction exponent, Point fraction ∧ Power exponent ∧ place = fraction ++ (exponent ++ after) := by
  revert found
  fun_cases scanFraction negative whole place with
  | case1 => intro broken; contradiction
  | case2 rest some =>
    intro found
    obtain ⟨exponent, power, left⟩ := power_of_found found
    refine ⟨'.' :: rest.takeWhile Char.isDigit, exponent, .inr ⟨_, ⟨some, digits_takeWhile rest⟩, rfl⟩, power, ?_⟩
    rw [← left, List.cons_append, List.takeWhile_append_dropWhile]
  | case3 =>
    intro found
    obtain ⟨exponent, power, left⟩ := power_of_found found
    exact ⟨[], exponent, .inl rfl, power, left⟩

theorem magnitude_of_found (found : scanMagnitude negative place = .found parts after) :
    ∃ whole fraction exponent, Proper [] whole fraction exponent ∧
      place = whole ++ fraction ++ exponent ++ after := by
  revert found
  fun_cases scanMagnitude negative place with
  | case2 rest alone =>
    intro found
    obtain ⟨fraction, exponent, point, power, rfl⟩ := point_of_found found
    refine ⟨['0'], fraction, exponent, ⟨.inl rfl, ⟨by simp, ?_⟩, fun _ => rfl, point, power⟩, by simp⟩
    simp
  | case4 c rest zero digit =>
    intro found
    obtain ⟨fraction, exponent, point, power, left⟩ := point_of_found found
    refine ⟨c :: rest.takeWhile Char.isDigit, fraction, exponent, ⟨.inl rfl, ⟨by simp, ?_⟩, ?_, point, power⟩, ?_⟩
    · exact List.forall_mem_cons.mpr ⟨digit_of_isDigit digit, digits_takeWhile rest⟩
    · intro leading
      exact absurd (Option.some.inj leading) zero
    · simp only [List.cons_append, List.append_assoc]
      rw [← left, List.takeWhile_append_dropWhile]
  | case1 | case3 | case5 => intro broken; contradiction

theorem proper_of_found (found : scan place = .found parts after) :
    ∃ sign whole fraction exponent, Proper sign whole fraction exponent ∧
      place = sign ++ whole ++ fraction ++ exponent ++ after := by
  revert found
  fun_cases scan place with
  | case1 rest =>
    intro found
    obtain ⟨whole, fraction, exponent, proper, rfl⟩ := magnitude_of_found found
    exact ⟨['-'], whole, fraction, exponent, { proper with signed := .inr rfl }, by simp⟩
  | case2 =>
    intro found
    obtain ⟨whole, fraction, exponent, proper, rfl⟩ := magnitude_of_found found
    exact ⟨[], whole, fraction, exponent, proper, by simp⟩

end
end Numeral

/-- A literal that the reader gets past, keeping it or not. -/
def Literal.Accepted (literal : Literal) : Prop := literal.skipFault? = none ∨ ∃ value, literal.value = .ok value

/-- The literal was scanned from the front of the text, where this lexeme stands. -/
structure Literal.Stands (literal : Literal) (text : List Char) (lexeme : Lexeme) : Prop where
  scalar : lexeme.punctuation? = none
  quoted : literal.isQuoted = lexeme.isString
  skipped : literal.skipFault? = none
  spelled : ∃ spelling, lexeme.Spelled spelling ∧ text = spelling ++ literal.after

namespace Literal

theorem quotation_stands {rest : Place} (accepted : (quotation rest).Accepted) :
    ∃ lexeme, (quotation rest).Stands ('"' :: rest) lexeme := by
  have closed : ∃ after, (Quotation.scan rest).ending = .closed after := by
    rcases accepted with passed | ⟨value, kept⟩
    · have passed : (Quotation.scan rest).ending.skipFault? = none := passed
      cases ending : (Quotation.scan rest).ending with
      | closed after => exact ⟨after, rfl⟩
      | _ => rw [ending] at passed; contradiction
    · obtain ⟨_, text, _⟩ := map_eq_ok.mp kept
      obtain ⟨_, kept, _⟩ := map_eq_ok.mp text
      exact Quotation.closed_of_keep kept
  obtain ⟨after, closed⟩ := closed
  obtain ⟨body, units, rfl, inside⟩ := Quotation.spells_of_closed closed
  have left : (quotation (body ++ '"' :: after)).after = after := by simp [quotation, Quotation.Scan.after, closed]
  refine ⟨.string units, rfl, rfl, ?_, '"' :: (body ++ ['"']), .string inside, ?_⟩
  · simp [quotation, closed, Quotation.Ending.skipFault?]
  · simp [left]

theorem numeral_stands {place : Place} (accepted : (numeral place).Accepted) :
    ∃ lexeme, (numeral place).Stands place lexeme := by
  cases scanned : Numeral.scan place with
  | broken kept skipped => simp [Accepted, numeral, scanned] at accepted
  | found parts after =>
    obtain ⟨sign, whole, fraction, exponent, proper, same⟩ := Numeral.proper_of_found scanned
    refine ⟨.number _, ⟨rfl, ?_, ?_, _, .number proper, ?_⟩⟩ <;> simp only [numeral, scanned]
    · rfl
    · exact same

theorem eq_append_of_matchWord {word : List Char} {place after : Place}
    (matched : matchWord word place = .ok after) : place = word ++ after := by
  fun_induction matchWord word place with
  | case1 => cases matched; rfl
  | case3 => rename_i ih; exact congrArg _ (ih matched)
  | _ => contradiction

theorem word_stands {value : Scalar} {letters : String} {c : Char} {rest : Place} {lexeme : Lexeme}
    (scalar : lexeme.punctuation? = none) (bare : lexeme.isString = false)
    (spelled : lexeme.Spelled (c :: letters.toList)) (accepted : (word value letters rest).Accepted) :
    (word value letters rest).Stands (c :: rest) lexeme := by
  cases matched : matchWord letters.toList rest with
  | error fault => simp [Accepted, word, matched] at accepted
  | ok after =>
    refine ⟨scalar, ?_, ?_, _, spelled, ?_⟩ <;> simp only [word, matched]
    · exact bare.symm
    · exact congrArg _ (eq_append_of_matchWord matched)

theorem stands_of_scan? {c : Char} {rest : Place} {literal : Literal} (found : scan? c rest = some literal)
    (accepted : literal.Accepted) : ∃ lexeme, literal.Stands (c :: rest) lexeme := by
  unfold scan? at found
  split at found
  · cases found
    exact quotation_stands accepted
  · cases found
    exact ⟨.null, word_stands rfl rfl .null accepted⟩
  · cases found
    exact ⟨.boolean true, word_stands rfl rfl .true accepted⟩
  · cases found
    exact ⟨.boolean false, word_stands rfl rfl .false accepted⟩
  · split at found
    · cases found
      exact numeral_stands accepted
    · contradiction

end Literal
end GrammarCheck.Json
