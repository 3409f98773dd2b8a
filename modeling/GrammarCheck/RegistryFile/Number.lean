import GrammarCheck.Decimal.Nearest
import GrammarCheck.Decimal.Style
import GrammarCheck.RegistryFile.Fault

/-! Numbers of a registry file. None of its fields is a number, but a number can stand under an unknown
key, and a fault names the one it is about. -/
namespace GrammarCheck.RegistryFile

/-- A number by the narrowest of the forms it fits: with or without sign, 64 or 128 bits, or a double. -/
inductive Number where
  | unsigned (value : Nat)
  | signed (value : Int)
  | wideUnsigned (value : Nat)
  | wideSigned (value : Int)
  | decimal (value : Float)

def Number.description : Number → String
  | .unsigned value => s!"u64 {value}"
  | .signed value => s!"i64 {value}"
  | .wideUnsigned value => s!"u128 {value}"
  | .wideSigned value => s!"i128 {value}"
  | .decimal value => "f64 " ++ Decimal.Style.plain.write value

def fraction : List Char → Option (List Char) × List Char
  | '.' :: rest => (some (rest.takeWhile Char.isDigit), rest.dropWhile Char.isDigit)
  | rest => (none, rest)

def exponent : List Char → Option (Bool × List Char) × List Char
  | [] => (none, [])
  | e :: rest =>
    if e = 'e' ∨ e = 'E' then
      let (down, rest) :=
        match rest with
        | '+' :: rest => (false, rest)
        | '-' :: rest => (true, rest)
        | rest => (false, rest)
      (some (down, rest.takeWhile Char.isDigit), rest.dropWhile Char.isDigit)
    else (none, e :: rest)

def digitsValue (digits : List Char) : Nat := digits.foldl (fun value c => 10 * value + (c.toNat - 48)) 0

def double (negative : Bool) (coefficient : Nat) (exponent : Int) : Float :=
  let x := Decimal.nearestDecimal coefficient exponent
  if negative then -x else x

def integer (negative : Bool) (magnitude : Nat) : Except Fault Number :=
  if negative then
    if magnitude ≤ Nat.pow 2 63 then .ok (.signed (-magnitude))
    else if magnitude ≤ Nat.pow 2 127 then .ok (.wideSigned (-magnitude))
    else .error (.outOfRange (Decimal.Style.plain.write (double negative magnitude 0)))
  else if magnitude < Nat.pow 2 64 then .ok (.unsigned magnitude)
  else if magnitude < Nat.pow 2 128 then .ok (.wideUnsigned magnitude)
  else .error (.outOfRange (Decimal.Style.plain.write (double negative magnitude 0)))

/-- What the parts of a number amount to. A point needs a digit before or after it, and an exponent
one of its own. -/
def numberValue (negative : Bool) (whole : List Char) (fraction : Option (List Char))
    (exponent : Option (Bool × List Char)) : Except Fault Number :=
  let digits := whole ++ fraction.getD []
  let shift : Int := -(fraction.getD []).length
  if digits.isEmpty then .error (.outOfRange "0")
  else
    match fraction, exponent with
    | none, none => integer negative (digitsValue digits)
    | some _, none => .ok (.decimal (double negative (digitsValue digits) shift))
    | _, some (_, []) => .error (.outOfRange "0")
    | _, some (down, power) =>
      let power : Int := digitsValue power
      .ok (.decimal (double negative (digitsValue digits) (if down then shift - power else shift + power)))

def number (negative : Bool) (text : List Char) : Except Fault Number × List Char :=
  let (point, rest) := fraction (text.dropWhile Char.isDigit)
  let (power, rest) := exponent rest
  (numberValue negative (text.takeWhile Char.isDigit) point power, rest)

theorem length_dropWhile_le (text : List Char) : (text.dropWhile Char.isDigit).length ≤ text.length :=
  (List.dropWhile_sublist _).length_le

theorem length_after_fraction (text : List Char) : (fraction text).2.length ≤ text.length := by
  unfold fraction
  split
  · exact Nat.le_succ_of_le (length_dropWhile_le _)
  · exact Nat.le_refl _

theorem length_after_exponent (text : List Char) : (exponent text).2.length ≤ text.length := by
  fun_cases exponent text with
  | case2 e rest _ down sign =>
    have := length_dropWhile_le sign
    have : sign.length ≤ rest.length := by grind
    simp only [List.length_cons]
    omega
  | _ => simp

theorem length_after_number (negative : Bool) (text : List Char) :
    (number negative text).2.length ≤ (text.dropWhile Char.isDigit).length :=
  Nat.le_trans (length_after_exponent _) (length_after_fraction _)

end GrammarCheck.RegistryFile
