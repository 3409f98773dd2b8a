import GrammarCheck.Json.Token
import GrammarCheck.Proofs.Json.Spelling

/-! Numbers that are proper JSON. Main statements: a literal that nothing goes on with is scanned to its
end, what it amounts to does not depend on what follows, and the integers that are read are the integer
literals that fit, but for minus zero. -/
namespace GrammarCheck.Json.Numeral

theorem isDigit_of_digit {c : Char} (digit : '0' ≤ c ∧ c ≤ '9') : c.isDigit = true := by
  simpa [Char.isDigit, Char.le_def] using digit

/-- No character of this kind comes next. -/
def Stops (p : Char → Bool) (rest : Place) : Prop := ∀ c ∈ rest.head?, p c = false

/-- What stands after a number does not go on with it. -/
structure Ended (rest : Place) : Prop where
  digits : Stops Char.isDigit rest
  point : rest.head? ≠ some '.'
  power : ∀ c ∈ rest.head?, c ≠ 'e' ∧ c ≠ 'E'

theorem ended_nil : Ended [] := ⟨nofun, nofun, nofun⟩

theorem takeWhile_of_stops {p : Char → Bool} {rest : Place} (stops : Stops p rest) : rest.takeWhile p = [] := by
  cases rest with
  | nil => rfl
  | cons c rest => exact List.takeWhile_cons_of_neg (by simp [stops c rfl])

theorem dropWhile_of_stops {p : Char → Bool} {rest : Place} (stops : Stops p rest) : rest.dropWhile p = rest := by
  cases rest with
  | nil => rfl
  | cons c rest => exact List.dropWhile_cons_of_neg (by simp [stops c rfl])

section
variable {digits rest : List Char} (all : ∀ c ∈ digits, '0' ≤ c ∧ c ≤ '9') (stops : Stops Char.isDigit rest)
include all stops

theorem takeWhile_digits : (digits ++ rest).takeWhile Char.isDigit = digits := by
  rw [List.takeWhile_append_of_pos fun c inside => isDigit_of_digit (all c inside), takeWhile_of_stops stops,
    List.append_nil]

theorem dropWhile_digits : (digits ++ rest).dropWhile Char.isDigit = rest := by
  rw [List.dropWhile_append_of_pos fun c inside => isDigit_of_digit (all c inside), dropWhile_of_stops stops]

theorem toOption_exponentValue (value : Nat) :
    (exponentValue value (digits ++ rest)).toOption = (exponentValue value digits).toOption := by
  induction digits generalizing value with
  | nil =>
    cases rest with
    | nil => rfl
    | cons c rest => simp [exponentValue, stops c rfl]
  | cons c digits ih =>
    obtain ⟨first, others⟩ := List.forall_mem_cons.mp all
    simp only [List.cons_append, exponentValue, isDigit_of_digit first, if_true]
    split
    · exact ih others _
    · rfl

end

/-- The same parts in a text that goes on after them. -/
def Parts.before (parts : Parts) (rest : Place) : Parts :=
  { parts with exponent := parts.exponent.map fun (down, digits) => (down, digits ++ rest) }

/-- Parts that stand alone: there is nothing but digits in the exponent. -/
def Parts.Alone (parts : Parts) : Prop :=
  ∀ power ∈ parts.exponent, ∀ c ∈ power.2, '0' ≤ c ∧ c ≤ '9'

theorem Parts.scale_before (parts : Parts) (rest : Place) : (parts.before rest).scale = parts.scale := rfl

theorem Parts.toOption_decimal {parts : Parts} (alone : parts.Alone) {rest : Place}
    (stops : Stops Char.isDigit rest) (after : Place) :
    ((parts.before rest).decimal after).toOption = (parts.decimal []).toOption := by
  rw [decimal, decimal, scale_before]
  obtain ⟨coefficient, shift⟩ := parts.scale
  obtain ⟨negative, whole, fraction, exponent⟩ := parts
  cases exponent with
  | none =>
    simp only [before, Option.map_none]
    split <;> rfl
  | some power =>
    obtain ⟨down, digits⟩ := power
    have same := toOption_exponentValue (alone _ rfl) stops 0
    simp only [before, Option.map_some]
    cases first : exponentValue 0 (digits ++ rest) <;> cases second : exponentValue 0 digits <;>
      rw [first, second] at same
    · dsimp only
      split <;> rfl
    · exact nomatch same
    · exact nomatch same
    · cases same
      dsimp only
      split <;> rfl

theorem Parts.toOption_value {parts : Parts} (alone : parts.Alone) {rest : Place}
    (stops : Stops Char.isDigit rest) (after : Place) :
    ((parts.before rest).value after).toOption = (parts.value []).toOption := by
  have decimal := toOption_decimal alone stops after
  obtain ⟨negative, whole, fraction, exponent⟩ := parts
  cases fraction with
  | some fraction => simpa only [value, before] using decimal
  | none =>
    cases exponent with
    | some power => exact decimal
    | none =>
      simp only [value, before, Option.map_none]
      split
      · rfl
      · exact decimal

/-- Whether an exponent is negative, and its digits. -/
def powerOf : List Char → Option (Bool × Place)
  | [] => none
  | _ :: '-' :: digits => some (true, digits)
  | _ :: '+' :: digits => some (false, digits)
  | _ :: digits => some (false, digits)

def pointOf : List Char → Option (List Char)
  | [] => none
  | _ :: digits => some digits

/-- A scan that finds these parts wherever the literal stands. -/
structure Finds (scan : Place → Scan) (literal : List Char) (parts : Parts) : Prop where
  alone : parts.Alone
  found : ∀ rest, Ended rest → scan (literal ++ rest) = .found (parts.before rest) rest

def Power (exponent : List Char) : Prop :=
  exponent = [] ∨ ∃ e sign digits, (e = 'e' ∨ e = 'E') ∧ (sign = [] ∨ sign = ['+'] ∨ sign = ['-']) ∧
    Digits digits ∧ exponent = e :: (sign ++ digits)

def Point (fraction : List Char) : Prop := fraction = [] ∨ ∃ digits, Digits digits ∧ fraction = '.' :: digits

theorem digit_ne {c d : Char} (digit : '0' ≤ c ∧ c ≤ '9') (other : d.isDigit = false) : c ≠ d := by
  rintro rfl
  exact absurd (isDigit_of_digit digit) (by simp [other])

theorem Power.stops {exponent rest : List Char} (power : Power exponent) (ended : Ended rest) :
    Stops Char.isDigit (exponent ++ rest) ∧ (exponent ++ rest).head? ≠ some '.' := by
  rcases power with rfl | ⟨e, sign, digits, letter, _, _, rfl⟩
  · exact ⟨ended.digits, ended.point⟩
  · rcases letter with rfl | rfl <;> simp [Stops]

theorem Point.stops {fraction exponent rest : List Char} (point : Point fraction) (power : Power exponent)
    (ended : Ended rest) : Stops Char.isDigit (fraction ++ (exponent ++ rest)) := by
  rcases point with rfl | ⟨digits, _, rfl⟩
  · exact (power.stops ended).1
  · simp [Stops]

section
variable (negative : Bool) (whole : List Char) {exponent : List Char} (power : Power exponent)
include power

theorem scanExponent_finds (fraction : Option (List Char)) :
    Finds (scanExponent negative whole fraction) exponent ⟨negative, whole, fraction, powerOf exponent⟩ := by
  rcases power with rfl | ⟨e, sign, digits, letter, signed, ⟨nonempty, all⟩, rfl⟩
  · refine ⟨nofun, fun rest ended => ?_⟩
    cases rest with
    | nil => rfl
    | cons c rest =>
      have other : ¬ (c = 'e' ∨ c = 'E') := not_or.mpr (ended.power c rfl)
      simp [scanExponent, other, Parts.before, powerOf]
  · obtain ⟨d, more, rfl⟩ := List.exists_cons_of_ne_nil nonempty
    obtain ⟨first, others⟩ := List.forall_mem_cons.mp all
    have plus : d ≠ '+' := digit_ne first rfl
    have minus : d ≠ '-' := digit_ne first rfl
    have split : powerOf (e :: (sign ++ d :: more)) = some (sign == ['-'], d :: more) := by
      rcases signed with rfl | rfl | rfl <;> simp [powerOf, plus, minus]
    rw [split]
    refine ⟨?_, fun rest ended => ?_⟩
    · intro power found
      cases found
      exact all
    · have left := dropWhile_digits others ended.digits
      have digit := isDigit_of_digit first
      rcases signed with rfl | rfl | rfl <;>
        simp [scanExponent, letter, digit, left, plus, minus, Parts.before]

variable {fraction : List Char} (point : Point fraction)
include point

theorem scanFraction_finds : Finds (scanFraction negative whole) (fraction ++ exponent)
    ⟨negative, whole, pointOf fraction, powerOf exponent⟩ := by
  obtain ⟨alone, found⟩ := scanExponent_finds negative whole power (pointOf fraction)
  refine ⟨alone, fun rest ended => ?_⟩
  rcases point with rfl | ⟨digits, ⟨nonempty, all⟩, rfl⟩
  · have other := (power.stops ended).2
    rw [List.nil_append, scanFraction]
    · exact found rest ended
    · intro more same
      rw [same] at other
      exact other rfl
  · have stops := (power.stops ended).1
    rw [List.cons_append, List.cons_append, List.append_assoc, scanFraction, takeWhile_digits all stops,
      dropWhile_digits all stops]
    split
    · contradiction
    · exact found rest ended

omit whole in
theorem scanMagnitude_finds {whole : List Char} (digits : Digits whole)
    (leading : whole.head? = some '0' → whole = ['0']) :
    Finds (scanMagnitude negative) (whole ++ fraction ++ exponent)
      ⟨negative, whole, pointOf fraction, powerOf exponent⟩ := by
  obtain ⟨alone, found⟩ := scanFraction_finds negative whole power point
  refine ⟨alone, fun rest ended => ?_⟩
  have stops := point.stops power ended
  obtain ⟨c, more, rfl⟩ := List.exists_cons_of_ne_nil digits.1
  obtain ⟨first, others⟩ := List.forall_mem_cons.mp digits.2
  have found := found rest ended
  rw [List.append_assoc] at found
  rw [List.append_assoc, List.append_assoc, List.cons_append]
  by_cases zero : c = '0'
  · subst zero
    obtain ⟨rfl⟩ : more = [] := by simpa using leading rfl
    rw [List.nil_append, scanMagnitude, takeWhile_of_stops stops]
    exact found
  · rw [scanMagnitude, if_pos (isDigit_of_digit first), takeWhile_digits others stops,
      dropWhile_digits others stops]
    · exact found
    · simpa using zero

end

section
variable {sign whole fraction exponent : List Char} (proper : Proper sign whole fraction exponent)
include proper

theorem scan_finds : Finds scan (sign ++ whole ++ fraction ++ exponent)
    ⟨sign == ['-'], whole, pointOf fraction, powerOf exponent⟩ := by
  obtain ⟨signed, digits, leading, point, power⟩ := proper
  have found (negative : Bool) := scanMagnitude_finds negative power point digits leading
  rcases signed with rfl | rfl
  · refine ⟨(found false).alone, fun rest ended => ?_⟩
    refine Eq.trans ?_ ((found false).found rest ended)
    rw [List.nil_append]
    obtain ⟨c, more, rfl⟩ := List.exists_cons_of_ne_nil digits.1
    have minus : c ≠ '-' := digit_ne (digits.2 c (.head _)) rfl
    simp [scan, minus]
  · exact ⟨(found true).alone, fun rest ended => (found true).found rest ended⟩

end

end GrammarCheck.Json.Numeral

namespace GrammarCheck.Json

/-- What a literal that stands alone amounts to, if it is in range. -/
def Number.ofLiteral? (literal : List Char) : Option Number :=
  match Numeral.scan literal with
  | .found parts _ => (parts.value []).toOption
  | .broken _ _ => none

namespace Numeral

section
variable {sign whole fraction exponent : List Char} (proper : Proper sign whole fraction exponent)
include proper

theorem ofLiteral?_proper : Number.ofLiteral? (sign ++ whole ++ fraction ++ exponent) =
    (Parts.value ⟨sign == ['-'], whole, pointOf fraction, powerOf exponent⟩ []).toOption := by
  obtain ⟨alone, found⟩ := scan_finds proper
  have found := found [] ended_nil
  rw [List.append_nil] at found
  rw [Number.ofLiteral?, found]
  exact Parts.toOption_value alone ended_nil.digits []

theorem numeral_proper {rest : Place} (ended : Ended rest) :
    ∃ value, Literal.numeral (sign ++ whole ++ fraction ++ exponent ++ rest) = ⟨false, value, none, rest⟩ ∧
      value.toOption = (Number.ofLiteral? (sign ++ whole ++ fraction ++ exponent)).map Scalar.number := by
  obtain ⟨alone, found⟩ := scan_finds proper
  refine ⟨Scalar.number <$> Parts.value _ rest, by rw [Literal.numeral, found rest ended], ?_⟩
  rw [ofLiteral?_proper proper, ← Parts.toOption_value alone ended.digits rest]
  cases Parts.value _ rest <;> rfl

end

theorem le_ofDigitChars (digits : List Char) (start : Nat) : start ≤ Nat.ofDigitChars 10 digits start := by
  induction digits generalizing start with
  | nil => exact Nat.le_refl start
  | cons c digits ih =>
    rw [Nat.ofDigitChars_cons]
    have more := ih (10 * start + (c.toNat - '0'.toNat))
    omega

theorem accumulate_digits {digits : List Char} {start : Nat}
    (fits : Nat.ofDigitChars 10 digits start < wordLimit) :
    accumulate start digits = (Nat.ofDigitChars 10 digits start, []) := by
  induction digits generalizing start with
  | nil => rfl
  | cons c digits ih =>
    rw [Nat.ofDigitChars_cons] at fits ⊢
    have next : 10 * start + digit c < wordLimit := Nat.lt_of_le_of_lt (le_ofDigitChars digits _) fits
    rw [accumulate, if_pos next]
    exact ih fits

theorem digits_toDigits (n : Nat) : Digits (Nat.toDigits 10 n) := by
  refine ⟨Nat.toDigits_ne_nil, fun c inside => ?_⟩
  have digit := Nat.isDigit_of_mem_toDigits (by decide) (by decide) inside
  simpa [Char.isDigit, Char.le_def] using digit

theorem leading_toDigits (n : Nat) (zero : (Nat.toDigits 10 n).head? = some '0') : Nat.toDigits 10 n = ['0'] := by
  induction n using Nat.strongRecOn with
  | ind n ih =>
    by_cases small : n < 10
    · rw [Nat.toDigits_of_lt_base small] at zero ⊢
      simpa using zero
    · have split := Nat.toDigits_of_base_le (by decide) (Nat.le_of_not_lt small)
      obtain ⟨c, more, same⟩ := List.exists_cons_of_ne_nil (Nat.toDigits_ne_nil (b := 10) (n := n / 10))
      have front : (Nat.toDigits 10 (n / 10)).head? = some '0' := by
        rw [split, same] at zero
        rw [same]
        exact zero
      -- so the front is zero, and there is no front to a number of one digit
      have none := Nat.ofDigitChars_ten_toDigits (n := n / 10)
      rw [ih (n / 10) (by omega) front] at none
      have least : Nat.ofDigitChars 10 ['0'] 0 = 0 := rfl
      omega

/-- An integer literal with its value: decimal digits, or a minus and decimal digits. -/
inductive Integer : List Char → Int → Prop
  | plain {digits : List Char} (proper : Proper [] digits [] []) : Integer digits (Nat.ofDigitChars 10 digits 0)
  | minus {digits : List Char} (proper : Proper ['-'] digits [] []) :
      Integer ('-' :: digits) (-(Nat.ofDigitChars 10 digits 0 : Int))

theorem ne_minusZero_of_digits {text : List Char} (digits : Digits text) : text ≠ ['-', '0'] := by
  rintro rfl
  exact absurd (digits.2 '-' (.head _)).1 (by decide)

/-- With no zeros in front there is one way to write zero. -/
theorem eq_zero_of_ofDigitChars {sign digits : List Char} (proper : Proper sign digits [] [])
    (zero : Nat.ofDigitChars 10 digits 0 = 0) : digits = ['0'] := by
  obtain ⟨c, more, rfl⟩ := List.exists_cons_of_ne_nil proper.digits.1
  refine proper.leading ?_
  rw [Nat.ofDigitChars_cons] at zero
  have least := le_ofDigitChars more (10 * 0 + (c.toNat - '0'.toNat))
  have above : '0'.toNat ≤ c.toNat := (proper.digits.2 c (.head _)).1
  have same : c.toNat = '0'.toNat := by omega
  rw [List.head?_cons, Char.toNat_inj.mp same]

/-- An integer that fits is read as such. Minus zero is not, for there is no such integer of 64 bits. -/
theorem ofLiteral?_integer {literal : List Char} {value : Int} (integer : Integer literal value)
    (signed : literal ≠ ['-', '0']) (least : -0x8000000000000000 ≤ value) (most : value < wordLimit) :
    Number.ofLiteral? literal = some (.integer value) := by
  cases integer with
  | @plain digits proper =>
    have literal := ofLiteral?_proper proper
    simp only [List.append_nil, List.nil_append] at literal
    have whole := accumulate_digits (Int.ofNat_lt.mp most)
    rw [literal]
    simp [Parts.value, pointOf, powerOf, whole, Except.toOption]
  | @minus digits proper =>
    have literal := ofLiteral?_proper proper
    simp only [List.append_nil, List.singleton_append] at literal
    have positive : Nat.ofDigitChars 10 digits 0 ≠ 0 := by
      intro zero
      exact signed (congrArg _ (eq_zero_of_ofDigitChars proper zero))
    have bounds : 0 < Nat.ofDigitChars 10 digits 0 ∧ Nat.ofDigitChars 10 digits 0 ≤ Nat.pow 2 63 := by
      have limit : Nat.pow 2 63 = 0x8000000000000000 := rfl
      omega
    have whole : accumulate 0 digits = (Nat.ofDigitChars 10 digits 0, []) :=
      accumulate_digits (Nat.lt_of_le_of_lt bounds.2 (by decide))
    rw [literal]
    simp [Parts.value, pointOf, powerOf, whole, bounds, Except.toOption]

theorem accumulate_eq {digits : List Char} {start total : Nat} (all : accumulate start digits = (total, [])) :
    total = Nat.ofDigitChars 10 digits start := by
  induction digits generalizing start with
  | nil =>
    cases all
    rfl
  | cons c digits ih =>
    rw [accumulate] at all
    split at all
    · exact Nat.ofDigitChars_cons ▸ ih all
    · cases all

theorem Parts.decimal_ne_integer (parts : Parts) (after : Place) (value : Int) :
    (parts.decimal after).toOption ≠ some (.integer value) := by
  rw [decimal]
  obtain ⟨coefficient, shift⟩ := parts.scale
  obtain ⟨negative, whole, fraction, exponent⟩ := parts
  cases exponent with
  | none =>
    dsimp only
    split <;> simp [Except.toOption]
  | some power =>
    dsimp only
    split
    · split <;> simp [Except.toOption]
    · split <;> simp [Except.toOption]

theorem pointOf_eq_none {fraction : List Char} : pointOf fraction = none ↔ fraction = [] := by
  cases fraction <;> simp [pointOf]

theorem powerOf_eq_none {exponent : List Char} : powerOf exponent = none ↔ exponent = [] := by
  unfold powerOf
  split <;> simp

/-- Nothing else is read as an integer: a number with a point or an exponent is a double, whole or not. -/
theorem integer_of_ofLiteral? {sign whole fraction exponent : List Char} (proper : Proper sign whole fraction exponent)
    {value : Int} (read : Number.ofLiteral? (sign ++ whole ++ fraction ++ exponent) = some (.integer value)) :
    Integer (sign ++ whole ++ fraction ++ exponent) value ∧ sign ++ whole ++ fraction ++ exponent ≠ ['-', '0'] := by
  rw [ofLiteral?_proper proper, Parts.value] at read
  split at read
  · next magnitude point power all =>
    obtain rfl := pointOf_eq_none.mp point
    obtain rfl := powerOf_eq_none.mp power
    obtain rfl := accumulate_eq all
    rw [List.append_nil, List.append_nil]
    obtain rfl | rfl := proper.signed
    · obtain rfl : (Nat.ofDigitChars 10 whole 0 : Int) = value := by simpa [Except.toOption] using read
      exact ⟨.plain proper, ne_minusZero_of_digits proper.digits⟩
    · simp only [beq_self_eq_true, Bool.not_true, Bool.false_eq_true, if_false] at read
      split at read
      · next bounds =>
        obtain rfl : -(Nat.ofDigitChars 10 whole 0 : Int) = value := by simpa [Except.toOption] using read
        refine ⟨.minus proper, fun same => ?_⟩
        obtain rfl : whole = ['0'] := (List.cons.inj same).2
        exact absurd bounds.1 (by decide)
      · simp [Except.toOption] at read
  · exact absurd read (Parts.decimal_ne_integer _ _ _)

end Numeral

/-- An integer in decimal digits, with a minus in front if it is below zero. -/
def decimalDigits (value : Int) : List Char :=
  (if value < 0 then ['-'] else []) ++ Nat.toDigits 10 value.natAbs

namespace Numeral

theorem proper_decimalDigits (value : Int) :
    Proper (if value < 0 then ['-'] else []) (Nat.toDigits 10 value.natAbs) [] [] where
  signed := by split <;> simp
  digits := digits_toDigits value.natAbs
  leading := leading_toDigits value.natAbs
  point := .inl rfl
  power := .inl rfl

theorem integer_decimalDigits (value : Int) : Integer (decimalDigits value) value := by
  have digits := Nat.ofDigitChars_ten_toDigits (n := value.natAbs)
  have proper := proper_decimalDigits value
  rw [decimalDigits]
  by_cases negative : value < 0
  · rw [if_pos negative] at proper ⊢
    have integer := Integer.minus proper
    rwa [digits, ← Int.eq_neg_natAbs_of_nonpos (Int.le_of_lt negative)] at integer
  · rw [if_neg negative] at proper ⊢
    have integer := Integer.plain proper
    rwa [digits, Int.natAbs_of_nonneg (Int.not_lt.mp negative)] at integer

theorem decimalDigits_ne_minusZero (value : Int) : decimalDigits value ≠ ['-', '0'] := by
  intro same
  rw [decimalDigits] at same
  split at same
  · next negative =>
    have digits := Nat.ofDigitChars_ten_toDigits (n := value.natAbs)
    have rest : Nat.toDigits 10 value.natAbs = ['0'] := (List.cons.inj same).2
    have zero : Nat.ofDigitChars 10 ['0'] 0 = 0 := rfl
    rw [rest, zero] at digits
    omega
  · exact ne_minusZero_of_digits (digits_toDigits value.natAbs) same

theorem ofLiteral?_decimalDigits {value : Int} (small : value.natAbs ≤ Nat.pow 2 63) :
    Number.ofLiteral? (decimalDigits value) = some (.integer value) := by
  have limits : Nat.pow 2 63 = 0x8000000000000000 ∧ wordLimit = 0x10000000000000000 := ⟨rfl, rfl⟩
  exact ofLiteral?_integer (integer_decimalDigits value) (decimalDigits_ne_minusZero value) (by omega) (by omega)

end Numeral
end GrammarCheck.Json
