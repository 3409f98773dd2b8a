import GrammarCheck.Proofs.RegistryFile.Tokens

/-! The spellings of tokens, which are freer than those of JSON: a string may hold anything but a bare quote
or backslash, an unknown escape stands for its letter, a plus sign may stand for the first digit of an
escape, and a number may start with zeros and have no digits on one side of its point. Main statements: a
row of spellings is read as its tokens, and what is read is spelled so, if a bracket is the last of it. -/
namespace GrammarCheck.RegistryFile
open Json.Quotation (isHighHalf isLowHalf joinHalves)
open Json.Numeral (Stops Ended pointOf powerOf)

/-- The inside of a string, and the text that is read. -/
inductive Inside : List Char → List Char → Prop
  | nil : Inside [] []
  | plain {c : Char} {body text : List Char} (quote : c ≠ '"') (backslash : c ≠ '\\') (more : Inside body text) :
      Inside (c :: body) (c :: text)
  | escape {letter : Char} {body text : List Char} (single : letter ≠ 'u') (more : Inside body text) :
      Inside ('\\' :: letter :: body) (escapeValue letter :: text)
  | unit {a b c d : Char} {code : Nat} {body text : List Char} (found : hexValue? [a, b, c, d] = some code)
      (high : isHighHalf code = false) (low : isLowHalf code = false) (more : Inside body text) :
      Inside ('\\' :: 'u' :: a :: b :: c :: d :: body) (Char.ofNat code :: text)
  | pair {a b c d a' b' c' d' : Char} {high low : Nat} {body text : List Char}
      (first : hexValue? [a, b, c, d] = some high) (second : hexValue? [a', b', c', d'] = some low)
      (isHigh : isHighHalf high = true) (isLow : isLowHalf low = true) (more : Inside body text) :
      Inside ('\\' :: 'u' :: a :: b :: c :: d :: '\\' :: 'u' :: a' :: b' :: c' :: d' :: body)
        (joinHalves high low :: text)

inductive Token.Spelled : Token → List Char → Prop
  | openObject : Spelled .openObject ['{']
  | closeObject : Spelled .closeObject ['}']
  | openList : Spelled .openList ['[']
  | closeList : Spelled .closeList [']']
  | colon : Spelled .colon [':']
  | comma : Spelled .comma [',']
  | null : Spelled .null ['n', 'u', 'l', 'l']
  | true : Spelled (.boolean true) ['t', 'r', 'u', 'e']
  | false : Spelled (.boolean false) ['f', 'a', 'l', 's', 'e']
  | positive {whole fraction exponent : List Char} {value : Number} (parts : Parts whole fraction exponent)
      (digits : whole ≠ []) (fits : numberValue false whole (pointOf fraction) (powerOf exponent) = .ok value) :
      Spelled (.number value) (whole ++ (fraction ++ exponent))
  | negative {whole fraction exponent : List Char} {value : Number} (parts : Parts whole fraction exponent)
      (fits : numberValue true whole (pointOf fraction) (powerOf exponent) = .ok value) :
      Spelled (.number value) ('-' :: (whole ++ (fraction ++ exponent)))
  | string {body text : List Char} (inside : Inside body text) :
      Spelled (.string (String.ofList text)) ('"' :: (body ++ ['"']))

/-- A text as a row of tokens, with blanks between them. A number does not go on in what stands after it. -/
inductive Scanned : List Char → List Token → Prop
  | nil : Scanned [] []
  | blank {c : Char} {rest : List Char} {row : List Token} (blank : isBlank c = true) (more : Scanned rest row) :
      Scanned (c :: rest) row
  | cons {token : Token} {spelling rest : List Char} {row : List Token} (spelled : token.Spelled spelling)
      (ended : ∀ value, token = .number value → rest ≠ [] ∧ Ended rest) (more : Scanned rest row) :
      Scanned (spelling ++ rest) (token :: row)

theorem quotation_inside {body text : List Char} (inside : Inside body text) (quoteLast : Bool) (rest : List Char) :
    quotation quoteLast (body ++ '"' :: rest) = .ok ⟨text, rest⟩ := by
  induction inside generalizing quoteLast with
  | nil => rfl
  | plain quote backslash _ ih =>
    rw [List.cons_append, quotation_plain quote backslash, ih]
    rfl
  | escape single _ ih =>
    rw [List.cons_append, List.cons_append, quotation_escape single, ih]
    rfl
  | unit found high low _ ih =>
    simp only [List.cons_append]
    rw [quotation_unit found high low, ih]
    rfl
  | pair first second isHigh isLow _ ih =>
    simp only [List.cons_append]
    rw [quotation_pair first second isHigh isLow, ih]
    rfl

theorem cons_eq_ok {c : Char} {read : Except Fault Quotation} {result : Quotation}
    (ok : (·.cons c) <$> read = .ok result) : ∃ inner, read = .ok inner ∧ inner.cons c = result := by
  cases read with
  | error => contradiction
  | ok inner => exact ⟨inner, rfl, Except.ok.inj ok⟩

/-- A string ends at its closing quote, or with the text. -/
theorem inside_of_quotation {quoteLast : Bool} {chars : List Char} {result : Quotation}
    (ok : quotation quoteLast chars = .ok result) :
    result.after = [] ∨ ∃ body, Inside body result.text ∧ chars = body ++ '"' :: result.after := by
  fun_induction quotation quoteLast chars generalizing result with
  | case1 => cases ok; exact .inl rfl
  | case3 => cases ok; exact .inr ⟨[], .nil, rfl⟩
  | case8 _ a b c d code first _ high a' b' c' d' rest low second isLow ih =>
    obtain ⟨inner, read, rfl⟩ := cons_eq_ok ok
    obtain ended | ⟨body, inside, rfl⟩ := ih read
    · exact .inl ended
    · exact .inr ⟨_, .pair first second high isLow inside, rfl⟩
  | case12 _ a b c d rest code found low high ih =>
    obtain ⟨inner, read, rfl⟩ := cons_eq_ok ok
    obtain ended | ⟨body, inside, rfl⟩ := ih read
    · exact .inl ended
    · exact .inr ⟨_, .unit found (by simpa using high) (by simpa using low) inside, rfl⟩
  | case14 _ letter rest _ single ih =>
    obtain ⟨inner, read, rfl⟩ := cons_eq_ok ok
    obtain ended | ⟨body, inside, rfl⟩ := ih read
    · exact .inl ended
    · exact .inr ⟨_, .escape single inside, rfl⟩
  | case15 _ c rest quote alone _ _ paired ih =>
    obtain ⟨inner, read, rfl⟩ := cons_eq_ok ok
    have backslash : c ≠ '\\' := by
      intro same
      cases rest with
      | nil => exact alone same rfl
      | cons letter rest => exact paired letter rest same rfl
    obtain ended | ⟨body, inside, rfl⟩ := ih read
    · exact .inl ended
    · exact .inr ⟨_, .plain quote backslash inside, rfl⟩
  | _ => contradiction

theorem token_spelled {token : Token} {spelling : List Char} (spelled : token.Spelled spelling) {rest : List Char}
    (ended : ∀ value, token = .number value → Ended rest) : ∃ c more, spelling = c :: more ∧ isBlank c = false ∧
      RegistryFile.token c (more ++ rest) = (token, rest) := by
  cases spelled with
  | string inside =>
    refine ⟨_, _, rfl, rfl, ?_⟩
    have read := quotation_inside inside true rest
    rw [List.append_assoc, List.singleton_append, RegistryFile.token, read]
  | @positive whole fraction exponent value parts digits fits =>
    obtain ⟨c, more, rfl⟩ := List.exists_cons_of_ne_nil digits
    have read := number_of_parts parts (ended value rfl) false
    obtain ⟨solid, digit⟩ := token_digit (parts.digits c (.head _)) (more ++ (fraction ++ (exponent ++ rest)))
    refine ⟨c, more ++ (fraction ++ exponent), by simp, solid, ?_⟩
    rw [List.append_assoc, List.append_assoc, digit, numeral_eq, ← List.cons_append, read, fits]
    rfl
  | @negative whole fraction exponent value parts fits =>
    have read := number_of_parts parts (ended value rfl) true
    refine ⟨'-', whole ++ (fraction ++ exponent), rfl, rfl, ?_⟩
    rw [List.append_assoc, List.append_assoc]
    show numeral true _ = _
    rw [numeral_eq, read, fits]
    rfl
  | _ => exact ⟨_, _, rfl, rfl, rfl⟩

theorem tokens_scanned {front : List Char} {row : List Token} (scanned : Scanned front row) (rest : List Char) :
    tokens (front ++ rest) = row ++ tokens rest := by
  induction scanned with
  | nil => rfl
  | blank blank _ ih => rw [List.cons_append, tokens, if_pos blank, ih]
  | @cons token spelling after row spelled ended _ ih =>
    have going : ∀ value, token = .number value → Ended (after ++ rest) := by
      intro value same
      obtain ⟨nonempty, ended⟩ := ended value same
      obtain ⟨c, after, rfl⟩ := List.exists_cons_of_ne_nil nonempty
      exact ⟨ended.digits, ended.point, ended.power⟩
    obtain ⟨c, more, rfl, solid, read⟩ := token_spelled spelled going
    rw [List.cons_append, List.cons_append, List.append_assoc, tokens, solid, read, ih]
    rfl

/-- The text ends here, in a fault or in a string that is not closed. -/
def EndsIn (token : Token) (rest : List Char) : Prop := rest = [] ∧ token ≠ .closeObject

theorem word_spelled {value token : Token} {letters : String} {c : Char} {text rest : List Char}
    (read : word value letters c text = (token, rest)) :
    EndsIn token rest ∨ token = value ∧ text = letters.toList ++ rest := by
  unfold word afterWord? at read
  split at read
  · next found =>
    cases read
    split at found
    · next known =>
      obtain ⟨more, rfl⟩ := List.isPrefixOf_iff_prefix.mp known
      rw [List.drop_left] at found
      cases found
      exact .inr ⟨rfl, rfl⟩
    · contradiction
  · cases read
    exact .inl ⟨rfl, by simp⟩

theorem numeral_spelled {negative : Bool} {text rest : List Char} {token : Token}
    (read : numeral negative text = (token, rest)) :
    EndsIn token rest ∨ ∃ value fraction exponent, token = .number value ∧
      Parts (text.takeWhile Char.isDigit) fraction exponent ∧
      text = text.takeWhile Char.isDigit ++ (fraction ++ (exponent ++ rest)) ∧ Stops Char.isDigit rest ∧
      numberValue negative (text.takeWhile Char.isDigit) (pointOf fraction) (powerOf exponent) = .ok value := by
  unfold numeral at read
  split at read
  · next value after found =>
    cases read
    exact .inr ⟨value, (parts_of_number found).imp fun _ known => known.imp fun _ known => ⟨rfl, known⟩⟩
  · cases read
    exact .inl ⟨rfl, by simp⟩

/-- What is read is spelled so, unless the text ends in it. -/
theorem spelled_of_token {c : Char} {text rest : List Char} {token : Token}
    (read : RegistryFile.token c text = (token, rest)) :
    EndsIn token rest ∨ ∃ spelling, token.Spelled spelling ∧ c :: text = spelling ++ rest ∧
      ∀ value, token = .number value → Stops Char.isDigit rest := by
  unfold RegistryFile.token at read
  split at read
  · cases read; exact .inr ⟨_, .openObject, rfl, by simp⟩
  · cases read; exact .inr ⟨_, .closeObject, rfl, by simp⟩
  · cases read; exact .inr ⟨_, .openList, rfl, by simp⟩
  · cases read; exact .inr ⟨_, .closeList, rfl, by simp⟩
  · cases read; exact .inr ⟨_, .colon, rfl, by simp⟩
  · cases read; exact .inr ⟨_, .comma, rfl, by simp⟩
  · split at read
    · next result ok =>
      cases read
      obtain ended | ⟨body, inside, rfl⟩ := inside_of_quotation ok
      · exact .inl ⟨ended, by simp⟩
      · exact .inr ⟨_, .string inside, by simp, by simp⟩
    · cases read
      exact .inl ⟨rfl, by simp⟩
  · obtain ended | ⟨rfl, rfl⟩ := word_spelled read
    · exact .inl ended
    · exact .inr ⟨_, .null, rfl, by simp⟩
  · obtain ended | ⟨rfl, rfl⟩ := word_spelled read
    · exact .inl ended
    · exact .inr ⟨_, .true, rfl, by simp⟩
  · obtain ended | ⟨rfl, rfl⟩ := word_spelled read
    · exact .inl ended
    · exact .inr ⟨_, .false, rfl, by simp⟩
  · obtain ended | ⟨value, fraction, exponent, rfl, parts, same, stops, fits⟩ := numeral_spelled read
    · exact .inl ended
    · refine .inr ⟨_, .negative parts fits, ?_, fun _ _ => stops⟩
      rw [List.cons_append, List.append_assoc, List.append_assoc, ← same]
  · split at read
    · next digit =>
      obtain ended | ⟨value, fraction, exponent, rfl, parts, same, stops, fits⟩ := numeral_spelled read
      · exact .inl ended
      · have digits : (c :: text).takeWhile Char.isDigit ≠ [] := by simp [digit]
        refine .inr ⟨_, .positive parts digits fits, ?_, fun _ _ => stops⟩
        rw [List.append_assoc, List.append_assoc, ← same]
    · cases read
      exact .inl ⟨rfl, by simp⟩

theorem start_of_spelled {token : Token} {c : Char} {more : List Char} (spelled : token.Spelled (c :: more)) :
    c ≠ '.' ∧ c ≠ 'e' ∧ c ≠ 'E' := by
  generalize same : c :: more = spelling at spelled
  cases spelled with
  | positive parts digits _ =>
    obtain ⟨d, whole, rfl⟩ := List.exists_cons_of_ne_nil digits
    cases same
    have first := parts.digits c (.head _)
    exact ⟨Json.Numeral.digit_ne first rfl, Json.Numeral.digit_ne first rfl, Json.Numeral.digit_ne first rfl⟩
  | _ => cases same; decide

/-- No token, and no blank, starts with a point or the letter of an exponent. -/
theorem start_of_scanned {front : List Char} {row : List Token} (scanned : Scanned front row) :
    ∀ c ∈ front.head?, c ≠ '.' ∧ c ≠ 'e' ∧ c ≠ 'E' := by
  intro c first
  cases scanned with
  | nil => contradiction
  | blank blank =>
    cases first
    refine ⟨?_, ?_, ?_⟩ <;> rintro rfl <;> contradiction
  | cons spelled =>
    obtain ⟨d, more, rfl, _⟩ := token_spelled spelled fun _ _ => Json.Numeral.ended_nil
    cases first
    exact start_of_spelled spelled

theorem scanned_ne_nil {front : List Char} {token : Token} {row : List Token} (scanned : Scanned front (token :: row)) :
    front ≠ [] := by
  rintro rfl
  have read := tokens_scanned scanned []
  rw [List.nil_append, tokens] at read
  contradiction

theorem scanned_of_tokens {row more : List Token} (last : row.getLast? = some .closeObject) {text : List Char}
    (read : tokens text = row ++ more) : ∃ front rest, text = front ++ rest ∧ Scanned front row := by
  fun_induction tokens text generalizing row with
  | case1 =>
    obtain ⟨rfl, _⟩ := List.append_eq_nil_iff.mp read.symm
    contradiction
  | case2 c rest blank ih =>
    obtain ⟨front, after, rfl, scanned⟩ := ih last read
    exact ⟨c :: front, after, rfl, .blank blank scanned⟩
  | case3 c text solid ih =>
    cases found : RegistryFile.token c text with
    | mk first after =>
      rw [found] at ih read
      cases row with
      | nil => contradiction
      | cons token row =>
        obtain ⟨rfl, others⟩ := List.cons.inj read
        have known := spelled_of_token found
        cases row with
        | nil =>
          cases last
          obtain ⟨_, other⟩ | ⟨spelling, spelled, same, _⟩ := known
          · contradiction
          · exact ⟨spelling ++ [], after, by rw [same, List.append_nil], .cons spelled (by simp) .nil⟩
        | cons next row =>
          obtain ⟨rfl, _⟩ | ⟨spelling, spelled, same, stops⟩ := known
          · rw [tokens] at others
            contradiction
          · -- what the row goes on with starts no point and no exponent, so a number has ended here
            have inner : (next :: row).getLast? = some .closeObject := by simpa using last
            obtain ⟨front, rest, rfl, scanned⟩ := ih inner others
            obtain ⟨d, front, rfl⟩ := List.exists_cons_of_ne_nil (scanned_ne_nil scanned)
            refine ⟨spelling ++ d :: front, rest, by rw [same, List.append_assoc], .cons spelled ?_ scanned⟩
            intro value number
            obtain ⟨point, small, capital⟩ := start_of_scanned scanned d rfl
            exact ⟨by simp, stops value number, by simp [point], by simp [small, capital]⟩

end GrammarCheck.RegistryFile
