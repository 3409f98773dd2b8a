import GrammarCheck.Proofs.Json.Literal
import GrammarCheck.RegistryFile.Number

/-! Numbers of a registry file, which are spelled more freely than in JSON. Main statements: the parts of a
number are found where they stand, whatever follows that does not go on with them, and a number of JSON is
out of range only if it is an integer of more than 128 bits. -/
namespace GrammarCheck.RegistryFile
open Json.Numeral (Stops Ended Proper Power pointOf powerOf takeWhile_digits dropWhile_digits digits_takeWhile)

/-- The parts of a number after its sign. Zeros may come first, and one side of the point may lack digits. -/
structure Parts (whole fraction exponent : List Char) : Prop where
  digits : ∀ c ∈ whole, '0' ≤ c ∧ c ≤ '9'
  point : fraction = [] ∨ ∃ digits, (∀ c ∈ digits, '0' ≤ c ∧ c ≤ '9') ∧ fraction = '.' :: digits
  power : Power exponent

section
variable {whole fraction exponent rest : List Char} (parts : Parts whole fraction exponent) (ended : Ended rest)
include parts ended

theorem Parts.stops : Stops Char.isDigit (fraction ++ (exponent ++ rest)) := by
  obtain rfl | ⟨digits, _, rfl⟩ := parts.point
  · exact (parts.power.stops ended).1
  · simp [Stops]

theorem fraction_of_parts :
    RegistryFile.fraction (fraction ++ (exponent ++ rest)) = (pointOf fraction, exponent ++ rest) := by
  obtain ⟨stops, other⟩ := parts.power.stops ended
  obtain rfl | ⟨digits, all, rfl⟩ := parts.point
  · rw [List.nil_append, RegistryFile.fraction]
    · rfl
    · intro more same
      rw [same] at other
      exact other rfl
  · rw [List.cons_append, RegistryFile.fraction, takeWhile_digits all stops, dropWhile_digits all stops]
    rfl

theorem exponent_of_parts : RegistryFile.exponent (exponent ++ rest) = (powerOf exponent, rest) := by
  obtain ⟨_, _, rfl | ⟨e, sign, digits, letter, signed, ⟨nonempty, all⟩, rfl⟩⟩ := parts
  · cases rest with
    | nil => rfl
    | cons c rest =>
      have other : ¬ (c = 'e' ∨ c = 'E') := not_or.mpr (ended.power c rfl)
      simp [RegistryFile.exponent, other, powerOf]
  · obtain ⟨d, more, rfl⟩ := List.exists_cons_of_ne_nil nonempty
    have first := all d (.head _)
    have plus : d ≠ '+' := Json.Numeral.digit_ne first rfl
    have minus : d ≠ '-' := Json.Numeral.digit_ne first rfl
    have taken := takeWhile_digits all ended.digits
    have left := dropWhile_digits all ended.digits
    rw [List.cons_append] at taken left
    rcases signed with rfl | rfl | rfl <;>
      simp [RegistryFile.exponent, letter, powerOf, plus, minus, taken, left]

theorem number_of_parts (negative : Bool) : number negative (whole ++ (fraction ++ (exponent ++ rest))) =
    (numberValue negative whole (pointOf fraction) (powerOf exponent), rest) := by
  have stops := parts.stops ended
  rw [number, dropWhile_digits parts.digits stops, takeWhile_digits parts.digits stops,
    fraction_of_parts parts ended]
  simp only [exponent_of_parts parts ended]

end

theorem stops_dropWhile (text : List Char) : Stops Char.isDigit (text.dropWhile Char.isDigit) := by
  intro c first
  have other := List.head?_dropWhile_not Char.isDigit text
  rw [first] at other
  exact other

/-- What a text starts with that is read as a point and digits. -/
theorem fraction_parts (text : List Char) (stops : Stops Char.isDigit text) : ∃ fraction rest,
    RegistryFile.fraction text = (pointOf fraction, rest) ∧ text = fraction ++ rest ∧ Stops Char.isDigit rest ∧
      (fraction = [] ∨ ∃ digits, (∀ c ∈ digits, '0' ≤ c ∧ c ≤ '9') ∧ fraction = '.' :: digits) := by
  unfold RegistryFile.fraction
  split
  · next rest =>
    refine ⟨'.' :: rest.takeWhile Char.isDigit, rest.dropWhile Char.isDigit, rfl, ?_, stops_dropWhile rest,
      .inr ⟨_, digits_takeWhile rest, rfl⟩⟩
    rw [List.cons_append, List.takeWhile_append_dropWhile]
  · exact ⟨[], text, rfl, rfl, stops, .inl rfl⟩

theorem powerOf_digits {e : Char} {sign digits : List Char} (signed : sign = [] ∨ sign = ['+'] ∨ sign = ['-'])
    (known : Json.Digits digits) : powerOf (e :: (sign ++ digits)) = some (sign == ['-'], digits) := by
  obtain ⟨nonempty, all⟩ := known
  obtain ⟨d, more, rfl⟩ := List.exists_cons_of_ne_nil nonempty
  have plus : d ≠ '+' := Json.Numeral.digit_ne (all d (.head _)) rfl
  have minus : d ≠ '-' := Json.Numeral.digit_ne (all d (.head _)) rfl
  rcases signed with rfl | rfl | rfl <;> simp [powerOf, plus, minus]

/-- What a text starts with that is read as an exponent, if it has digits. -/
theorem exponent_parts (text : List Char) (stops : Stops Char.isDigit text)
    (digits : ∀ power ∈ (RegistryFile.exponent text).1, power.2 ≠ []) : ∃ exponent rest,
    RegistryFile.exponent text = (powerOf exponent, rest) ∧ text = exponent ++ rest ∧ Stops Char.isDigit rest ∧
      Power exponent := by
  revert digits
  fun_cases RegistryFile.exponent text with
  | case1 => exact fun _ => ⟨[], [], rfl, rfl, stops, .inl rfl⟩
  | case2 e rest letter down after signed =>
    intro digits
    have known : Json.Digits (after.takeWhile Char.isDigit) := ⟨digits _ rfl, digits_takeWhile after⟩
    have sign : ∃ sign, (sign = [] ∨ sign = ['+'] ∨ sign = ['-']) ∧ rest = sign ++ after ∧ down = (sign == ['-']) := by
      split at signed
      · cases signed; exact ⟨['+'], .inr (.inl rfl), rfl, rfl⟩
      · cases signed; exact ⟨['-'], .inr (.inr rfl), rfl, rfl⟩
      · cases signed; exact ⟨[], .inl rfl, rfl, rfl⟩
    obtain ⟨sign, form, rfl, rfl⟩ := sign
    refine ⟨e :: (sign ++ after.takeWhile Char.isDigit), after.dropWhile Char.isDigit, ?_, ?_, stops_dropWhile after,
      .inr ⟨e, sign, _, letter, form, known, rfl⟩⟩
    · rw [powerOf_digits form known]
    · simp [List.takeWhile_append_dropWhile]
  | case3 e rest other => exact fun _ => ⟨[], e :: rest, rfl, rfl, stops, .inl rfl⟩

theorem powered_of_fits {negative : Bool} {whole : List Char} {point : Option (List Char)}
    {power : Option (Bool × List Char)} {value : Number} (fits : numberValue negative whole point power = .ok value) :
    ∀ given ∈ power, given.2 ≠ [] := by
  rintro ⟨down, digits⟩ same empty
  cases same
  cases empty
  unfold numberValue at fits
  cases point <;> simp at fits

/-- The parts of a number that is in range, as they stand in a text. -/
theorem parts_of_number {negative : Bool} {text rest : List Char} {value : Number}
    (ok : number negative text = (.ok value, rest)) :
    ∃ fraction exponent, Parts (text.takeWhile Char.isDigit) fraction exponent ∧
      text = text.takeWhile Char.isDigit ++ (fraction ++ (exponent ++ rest)) ∧ Stops Char.isDigit rest ∧
      numberValue negative (text.takeWhile Char.isDigit) (pointOf fraction) (powerOf exponent) = .ok value := by
  obtain ⟨fraction, after, read, same, stops, point⟩ := fraction_parts _ (stops_dropWhile text)
  have found : number negative text = (numberValue negative (text.takeWhile Char.isDigit) (pointOf fraction)
      (RegistryFile.exponent after).1, (RegistryFile.exponent after).2) := by rw [number, read]
  rw [found, Prod.mk.injEq] at ok
  obtain ⟨fits, left⟩ := ok
  obtain ⟨exponent, last, power_read, rfl, ended, power⟩ := exponent_parts after stops (powered_of_fits fits)
  rw [power_read] at fits left
  subst left
  refine ⟨fraction, exponent, ⟨digits_takeWhile text, point, power⟩, ?_, ended, fits⟩
  rw [← same, List.takeWhile_append_dropWhile]

/-- What a literal that stands alone amounts to. -/
def numberOf : List Char → Except Fault Number
  | '-' :: digits => (number true digits).1
  | digits => (number false digits).1

/-- The integer that a literal without a point or an exponent names. -/
def integer? : List Char → Option Int
  | '-' :: digits => if digits.all Char.isDigit then some (-(Nat.ofDigitChars 10 digits 0 : Int)) else none
  | digits => if digits.all Char.isDigit then some (Nat.ofDigitChars 10 digits 0 : Int) else none

/-- So many bits hold this integer, with or without a sign. -/
def FitsIn (bits : Nat) (n : Int) : Prop := -(Nat.pow 2 (bits - 1) : Int) ≤ n ∧ n < (Nat.pow 2 bits : Int)

/-- An integer of more than 64 bits. -/
def Number.Wide : Number → Prop
  | .wideUnsigned _ | .wideSigned _ => True
  | _ => False

/-- The integer of a sign and a magnitude. -/
def signed (negative : Bool) (magnitude : Nat) : Int := if negative then -(magnitude : Int) else magnitude

theorem integer_of_fits {negative : Bool} {magnitude : Nat} (fits : FitsIn 128 (signed negative magnitude)) :
    ∃ number, integer negative magnitude = .ok number ∧ (FitsIn 64 (signed negative magnitude) → ¬ number.Wide) := by
  obtain ⟨low, high⟩ := fits
  unfold integer
  cases negative with
  | true =>
    have bound : magnitude ≤ Nat.pow 2 127 := Int.ofNat_le.mp (Int.le_of_neg_le_neg low)
    by_cases small : magnitude ≤ Nat.pow 2 63
    · exact ⟨.signed (-magnitude), by simp [small], fun _ => id⟩
    · refine ⟨.wideSigned (-magnitude), by simp [small, bound], fun ⟨below, _⟩ => absurd ?_ small⟩
      exact Int.ofNat_le.mp (Int.le_of_neg_le_neg below)
  | false =>
    have bound : magnitude < Nat.pow 2 128 := Int.ofNat_lt.mp high
    by_cases small : magnitude < Nat.pow 2 64
    · exact ⟨.unsigned magnitude, by simp [small], fun _ => id⟩
    · refine ⟨.wideUnsigned magnitude, by simp [small, bound], fun ⟨_, above⟩ => absurd ?_ small⟩
      exact Int.ofNat_lt.mp above

section
variable {sign whole fraction exponent : List Char} (proper : Proper sign whole fraction exponent)
include proper

theorem parts_of_proper : Parts whole fraction exponent where
  digits := proper.digits.2
  point := proper.point.imp id fun ⟨digits, known, same⟩ => ⟨digits, known.2, same⟩
  power := proper.power

theorem numberOf_proper : numberOf (sign ++ whole ++ fraction ++ exponent) =
    numberValue (sign == ['-']) whole (pointOf fraction) (powerOf exponent) := by
  have read := number_of_parts (parts_of_proper proper) Json.Numeral.ended_nil
  simp only [List.append_nil] at read
  rcases proper.signed with rfl | rfl
  · obtain ⟨d, more, rfl⟩ := List.exists_cons_of_ne_nil proper.digits.1
    have minus : d ≠ '-' := Json.Numeral.digit_ne (proper.digits.2 d (.head _)) rfl
    have plain : numberOf ([] ++ (d :: more) ++ fraction ++ exponent) =
        (number false ((d :: more) ++ (fraction ++ exponent))).1 := by
      simp [numberOf, minus]
    rw [plain, read]
    rfl
  · have signed : numberOf (['-'] ++ whole ++ fraction ++ exponent) =
        (number true (whole ++ (fraction ++ exponent))).1 := by
      simp [numberOf]
    rw [signed, read]
    rfl

theorem integer?_proper : integer? (sign ++ whole) = some (signed (sign == ['-']) (digitsValue whole)) := by
  have digits : whole.all Char.isDigit = true :=
    List.all_eq_true.mpr fun c inside => Json.Numeral.isDigit_of_digit (proper.digits.2 c inside)
  rcases proper.signed with rfl | rfl
  · obtain ⟨d, more, rfl⟩ := List.exists_cons_of_ne_nil proper.digits.1
    have minus : d ≠ '-' := Json.Numeral.digit_ne (proper.digits.2 d (.head _)) rfl
    rw [List.nil_append, integer?]
    · exact if_pos digits
    · simp [minus]
  · exact if_pos digits

/-- A number of JSON is an integer, or in range. -/
theorem numberOf_cases :
    (integer? (sign ++ whole ++ fraction ++ exponent) = some (signed (sign == ['-']) (digitsValue whole)) ∧
      numberOf (sign ++ whole ++ fraction ++ exponent) = integer (sign == ['-']) (digitsValue whole)) ∨
    ∃ value, numberOf (sign ++ whole ++ fraction ++ exponent) = .ok (.decimal value) := by
  rw [numberOf_proper proper]
  obtain ⟨d, digits, nonempty⟩ := List.exists_cons_of_ne_nil proper.digits.1
  rcases proper.power with rfl | ⟨e, sign, power, _, form, known, rfl⟩
  · rcases proper.point with rfl | ⟨more, _, rfl⟩
    · refine .inl ⟨?_, ?_⟩
      · rw [List.append_nil, List.append_nil, integer?_proper proper]
      · simp [numberValue, pointOf, powerOf, nonempty]
    · exact .inr ⟨_, by simp [numberValue, pointOf, powerOf, nonempty]; rfl⟩
  · obtain ⟨d, power, rfl⟩ := List.exists_cons_of_ne_nil known.1
    right
    rw [powerOf_digits form known]
    cases pointOf fraction <;> simp [numberValue, nonempty]

end

end GrammarCheck.RegistryFile
