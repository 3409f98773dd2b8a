import GrammarCheck.Proofs.Json.Quotation
import GrammarCheck.RegistryFile.Quotation

/-! Strings of a registry file that are proper JSON. Main statement: however units are spelled, with
letters, escapes, numbers or pairs of numbers, what is read is their text, and half a character that
stands alone is a fault. -/
namespace GrammarCheck.RegistryFile
open Json (HexDigit Spells)
open Json.Quotation (isHighHalf isLowHalf joinHalves charUnits_head_not_low)
open Text (charUnits units)

/-- The text of these units, unless half a character stands alone among them. -/
def textOf : List Nat → Except Fault (List Char)
  | [] => .ok []
  | code :: rest =>
    if isLowHalf code then .error .loneLowSurrogate
    else if isHighHalf code then
      match rest with
      | [] => .error .loneHighSurrogate
      | low :: rest =>
        if isLowHalf low then (joinHalves code low :: ·) <$> textOf rest else .error .loneHighSurrogate
    else (Char.ofNat code :: ·) <$> textOf rest

theorem textOf_single {code : Nat} (high : isHighHalf code = false) (low : isLowHalf code = false) (rest : List Nat) :
    textOf (code :: rest) = (Char.ofNat code :: ·) <$> textOf rest := by
  cases rest <;> simp [textOf, high, low]

theorem textOf_pair {high low : Nat} (isHigh : isHighHalf high = true) (isLow : isLowHalf low = true)
    (rest : List Nat) : textOf (high :: low :: rest) = (joinHalves high low :: ·) <$> textOf rest := by
  simp [textOf, isHigh, isLow, Text.isLowHalf_of_isHighHalf isHigh]

theorem textOf_half {high : Nat} (isHigh : isHighHalf high = true) {rest : List Nat}
    (alone : ∀ low ∈ rest.head?, isLowHalf low = false) : textOf (high :: rest) = .error .loneHighSurrogate := by
  cases rest with
  | nil => simp [textOf, isHigh, Text.isLowHalf_of_isHighHalf isHigh]
  | cons next rest => simp [textOf, isHigh, Text.isLowHalf_of_isHighHalf isHigh, alone next rfl]

theorem textOf_charUnits_append (c : Char) (rest : List Nat) :
    textOf (charUnits c ++ rest) = (c :: ·) <$> textOf rest := by
  obtain ⟨single, notHigh, notLow⟩ | ⟨high, low, pair, isHigh, isLow, joined⟩ := Text.charUnits_cases c
  · rw [single, List.singleton_append, textOf_single notHigh notLow, Char.ofNat_toNat]
  · rw [pair, List.cons_append, List.singleton_append, textOf_pair isHigh isLow, joined]

@[simp] theorem textOf_units (text : List Char) : textOf (units text) = .ok text := by
  induction text with
  | nil => rfl
  | cons c text ih => rw [Text.units_cons, textOf_charUnits_append, ih]; rfl

theorem textOf_low {code : Nat} (low : isLowHalf code = true) (rest : List Nat) :
    textOf (code :: rest) = .error .loneLowSurrogate := by
  cases rest <;> simp [textOf, low]

theorem hexValue?_eq_some {a b c d : Char} {i j k l : Nat} (first : HexDigit a i) (second : HexDigit b j)
    (third : HexDigit c k) (fourth : HexDigit d l) :
    hexValue? [a, b, c, d] = some (0x1000 * i + 0x100 * j + 0x10 * k + l) := by
  have sign : a ≠ '+' := by
    intro same
    subst same
    exact nomatch Json.hexDigit?_eq_some first
  have value : hexValue? [a, b, c, d] = Json.hexValue? [a, b, c, d] := by simp [hexValue?, sign]
  rw [value, Json.hexValue?_eq_some first second third fourth]

theorem escapeValue_of_known {letter c : Char} (known : (letter, c) ∈ Json.escapes) :
    letter ≠ 'u' ∧ escapeValue letter = c := by
  have all : ∀ pair ∈ Json.escapes, pair.1 ≠ 'u' ∧ escapeValue pair.1 = pair.2 := by decide
  exact all _ known

section
attribute [local simp] quotation

theorem quotation_plain {c : Char} (quote : c ≠ '"') (backslash : c ≠ '\\') (quoteLast : Bool) (rest : List Char) :
    quotation quoteLast (c :: rest) = (·.cons c) <$> quotation false rest := by
  simp [backslash]

theorem quotation_escape {letter : Char} (single : letter ≠ 'u') (quoteLast : Bool) (rest : List Char) :
    quotation quoteLast ('\\' :: letter :: rest) =
      (·.cons (escapeValue letter)) <$> quotation (letter == '"') rest := by
  simp [single]

theorem quotation_unit {a b c d : Char} {code : Nat} (found : hexValue? [a, b, c, d] = some code)
    (high : isHighHalf code = false) (low : isLowHalf code = false) (quoteLast : Bool) (rest : List Char) :
    quotation quoteLast ('\\' :: 'u' :: a :: b :: c :: d :: rest) =
      (·.cons (Char.ofNat code)) <$> quotation false rest := by
  simp [found, high, low]

theorem quotation_pair {a b c d a' b' c' d' : Char} {high low : Nat} (first : hexValue? [a, b, c, d] = some high)
    (second : hexValue? [a', b', c', d'] = some low) (isHigh : isHighHalf high = true)
    (isLow : isLowHalf low = true) (quoteLast : Bool) (rest : List Char) :
    quotation quoteLast ('\\' :: 'u' :: a :: b :: c :: d :: '\\' :: 'u' :: a' :: b' :: c' :: d' :: rest) =
      (·.cons (joinHalves high low)) <$> quotation false rest := by
  have notLow := Text.isLowHalf_of_isHighHalf isHigh
  simp [first, second, isHigh, isLow, notLow]

theorem quotation_low {a b c d : Char} {code : Nat} (found : hexValue? [a, b, c, d] = some code)
    (low : isLowHalf code = true) (quoteLast : Bool) (rest : List Char) :
    quotation quoteLast ('\\' :: 'u' :: a :: b :: c :: d :: rest) = .error .loneLowSurrogate := by
  simp [found, low]

/-- What stands after the first half of a character is no second half. -/
theorem quotation_half {a b c d : Char} {high : Nat} (found : hexValue? [a, b, c, d] = some high)
    (isHigh : isHighHalf high = true) {rest : List Char} (other : ∀ more, rest ≠ '\\' :: 'u' :: more)
    (quoteLast : Bool) : quotation quoteLast ('\\' :: 'u' :: a :: b :: c :: d :: rest) = .error .loneHighSurrogate := by
  simp [found, isHigh, Text.isLowHalf_of_isHighHalf isHigh, other]

theorem quotation_unpaired {a b c d a' b' c' d' : Char} {high low : Nat} (first : hexValue? [a, b, c, d] = some high)
    (second : hexValue? [a', b', c', d'] = some low) (isHigh : isHighHalf high = true)
    (notLow : isLowHalf low = false) (quoteLast : Bool) (rest : List Char) :
    quotation quoteLast ('\\' :: 'u' :: a :: b :: c :: d :: '\\' :: 'u' :: a' :: b' :: c' :: d' :: rest) =
      .error .loneHighSurrogate := by
  simp [first, second, isHigh, notLow, Text.isLowHalf_of_isHighHalf isHigh]

end

/-- The body of a string is read as the text of its units, also right after the first half of a character. -/
structure ReadsUnits (body : List Char) (units : List Nat) : Prop where
  whole : ∀ quoteLast rest, quotation quoteLast (body ++ '"' :: rest) = (⟨·, rest⟩) <$> textOf units
  half : ∀ a b c d high, hexValue? [a, b, c, d] = some high → isHighHalf high = true → ∀ quoteLast rest,
    quotation quoteLast ('\\' :: 'u' :: a :: b :: c :: d :: (body ++ '"' :: rest)) =
      (⟨·, rest⟩) <$> textOf (high :: units)

theorem map_cons (c : Char) (rest : List Char) (result : Except Fault (List Char)) :
    (Quotation.cons c ·) <$> ((⟨·, rest⟩ : List Char → Quotation) <$> result) =
      (⟨·, rest⟩) <$> ((c :: ·) <$> result) := by
  cases result <;> rfl

theorem readsUnits_of_spells {body : List Char} {units : List Nat} (spelled : Spells body units) :
    ReadsUnits body units := by
  induction spelled with
  | nil =>
    constructor
    · exact fun _ _ => rfl
    · intro a b c d high found isHigh quoteLast rest
      rw [List.nil_append, quotation_half found isHigh (by simp), textOf_half isHigh (by simp)]
      rfl
  | @plain c body units _ quote backslash _ ih =>
    constructor
    · intro quoteLast rest
      rw [List.cons_append, quotation_plain quote backslash, ih.whole, textOf_charUnits_append]
      exact map_cons c rest _
    · intro _ _ _ _ high found isHigh quoteLast rest
      rw [List.cons_append, quotation_half found isHigh (by simp [backslash]),
        textOf_half isHigh (charUnits_head_not_low c units)]
      rfl
  | @escape letter c body units known _ ih =>
    obtain ⟨single, value⟩ := escapeValue_of_known known
    constructor
    · intro quoteLast rest
      rw [List.cons_append, List.cons_append, quotation_escape single, ih.whole, textOf_charUnits_append, value]
      exact map_cons c rest _
    · intro _ _ _ _ high found isHigh quoteLast rest
      rw [List.cons_append, List.cons_append, quotation_half found isHigh (by simp [single]),
        textOf_half isHigh (charUnits_head_not_low c units)]
      rfl
  | @unit a b c d i j k l body units first second third fourth _ ih =>
    have found := hexValue?_eq_some first second third fourth
    generalize 0x1000 * i + 0x100 * j + 0x10 * k + l = code at found
    constructor
    · intro quoteLast rest
      simp only [List.cons_append]
      by_cases low : isLowHalf code = true
      · rw [quotation_low found low, textOf_low low]
        rfl
      · by_cases high : isHighHalf code = true
        · -- only what follows tells whether this half is completed
          exact ih.half a b c d code found high quoteLast rest
        · simp only [Bool.not_eq_true] at low high
          rw [quotation_unit found high low, ih.whole, textOf_single high low]
          exact map_cons (Char.ofNat code) rest _
    · intro a' b' c' d' high before isHigh quoteLast rest
      simp only [List.cons_append]
      by_cases low : isLowHalf code = true
      · rw [quotation_pair before found isHigh low, ih.whole, textOf_pair isHigh low]
        exact map_cons _ rest _
      · simp only [Bool.not_eq_true] at low
        rw [quotation_unpaired before found isHigh low, textOf_half isHigh (by simpa using low)]
        rfl

end GrammarCheck.RegistryFile
