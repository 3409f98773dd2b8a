import GrammarCheck.Json.Fault
import GrammarCheck.Decimal.Nearest
import GrammarCheck.Decimal.Style

/-! Number literals. One scan finds the parts of a number and where it ends; what the parts amount to
is worked out only for a number that is kept. Integers of 64 bits are exact and every other number is
a double. -/
namespace GrammarCheck.Json

inductive Number where
  | integer (value : Int)
  | decimal (value : Float)

def Number.description : Number → String
  | .integer value => s!"integer `{value}`"
  | .decimal value => s!"floating point `{Decimal.Style.marked.write value}`"

namespace Numeral

def digit (c : Char) : Nat := c.toNat - 48

/-- The parts of a number literal. The digits of the exponent are given by the place they start at. -/
structure Parts where
  negative : Bool
  whole : List Char
  fraction : Option (List Char)
  exponent : Option (Bool × Place)

/-- How the scan of a number ends: with its parts and what is left after them, or with the faults of
keeping it and of passing over it. -/
inductive Scan where
  | found (parts : Parts) (after : Place)
  | broken (kept skipped : Fault)

def scanExponent (negative : Bool) (whole : List Char) (fraction : Option (List Char)) : Place → Scan
  | [] => .found ⟨negative, whole, fraction, none⟩ []
  | e :: rest =>
    if e = 'e' ∨ e = 'E' then
      let (down, place) :=
        match rest with
        | '+' :: place => (false, place)
        | '-' :: place => (true, place)
        | place => (false, place)
      match place with
      | [] => .broken (Cause.endInValue.here []) (Cause.invalidNumber.here [])
      | c :: after =>
        if c.isDigit then
          .found ⟨negative, whole, fraction, some (down, place)⟩ (after.dropWhile Char.isDigit)
        else .broken (Cause.invalidNumber.next place) (Cause.invalidNumber.next place)
    else .found ⟨negative, whole, fraction, none⟩ (e :: rest)

def scanFraction (negative : Bool) (whole : List Char) : Place → Scan
  | '.' :: rest =>
    match rest.takeWhile Char.isDigit with
    | [] =>
      .broken ((if rest.isEmpty then Cause.endInValue else Cause.invalidNumber).next rest)
        (Cause.invalidNumber.next rest)
    | digits => scanExponent negative whole (some digits) (rest.dropWhile Char.isDigit)
  | place => scanExponent negative whole none place

/-- A number without its sign. A zero in front is the only digit before the point. -/
def scanMagnitude (negative : Bool) : Place → Scan
  | [] => .broken (Cause.endInValue.here []) (Cause.invalidNumber.here [])
  | '0' :: rest =>
    if (rest.takeWhile Char.isDigit).isEmpty then scanFraction negative ['0'] rest
    else .broken (Cause.invalidNumber.next rest) (Cause.invalidNumber.next rest)
  | c :: rest =>
    if c.isDigit then
      scanFraction negative (c :: rest.takeWhile Char.isDigit) (rest.dropWhile Char.isDigit)
    else .broken (Cause.invalidNumber.next (c :: rest)) (Cause.invalidNumber.next (c :: rest))

def scan : Place → Scan
  | '-' :: rest => scanMagnitude true rest
  | place => scanMagnitude false place

def wordLimit : Nat := Nat.pow 2 64

/-- Reads digits into a 64-bit coefficient as long as they fit, and gives back the rest of them. -/
def accumulate (coefficient : Nat) : List Char → Nat × List Char
  | [] => (coefficient, [])
  | c :: rest =>
    if 10 * coefficient + digit c < wordLimit then accumulate (10 * coefficient + digit c) rest
    else (coefficient, c :: rest)

/-- The digits of a number as a coefficient and a power of ten. Digits before the point that do not
fit count as powers, and those after it are dropped. -/
def Parts.scale (parts : Parts) : Nat × Int :=
  let (coefficient, excess) := accumulate 0 parts.whole
  let fraction := parts.fraction.getD []
  let (coefficient, dropped) := accumulate coefficient fraction
  (coefficient, excess.length - (fraction.length - dropped.length))

/-- The exponent, or what is left of the text after the digit that takes it past 31 bits. -/
def exponentValue (value : Nat) : Place → Except Place Nat
  | [] => .ok value
  | c :: rest =>
    if c.isDigit then
      if 10 * value + digit c < Nat.pow 2 31 then exponentValue (10 * value + digit c) rest else .error rest
    else .ok value

def power (n : Nat) : Float := Decimal.nearest (Nat.pow 10 n) 1

/-- The number divided by a power of ten, in steps that powers can be written for. -/
def lowered (x : Float) (n : Nat) : Float :=
  if n ≤ 308 then x / power n
  else if x == 0 then x
  else lowered (x / power 308) (n - 308)
termination_by n
decreasing_by omega

def scaled (x : Float) (exponent : Int) : Option Float :=
  if exponent < 0 then some (lowered x exponent.natAbs)
  else if 308 < exponent then if x == 0 then some x else none
  else
    let product := x * power exponent.toNat
    if product.isInf then none else some product

def signed (negative : Bool) (x : Float) : Float := if negative then -x else x

def Parts.decimal (parts : Parts) (after : Place) : Except Fault Number :=
  let (coefficient, shift) := parts.scale
  let finish (exponent : Int) : Except Fault Number :=
    match scaled (Decimal.nearest coefficient 1) exponent with
    | some x => .ok (.decimal (signed parts.negative x))
    | none => .error (Cause.numberOutOfRange.here after)
  match parts.exponent with
  | none => finish shift
  | some (down, digits) =>
    match exponentValue 0 digits with
    | .ok value => finish (if down then shift - value else shift + value)
    | .error place =>
      if coefficient = 0 ∨ down then .ok (.decimal (signed parts.negative 0))
      else .error (Cause.numberOutOfRange.here place)

def Parts.value (parts : Parts) (after : Place) : Except Fault Number :=
  match parts.fraction, parts.exponent, accumulate 0 parts.whole with
  | none, none, (magnitude, []) =>
    if !parts.negative then .ok (.integer magnitude)
    else if 0 < magnitude ∧ magnitude ≤ Nat.pow 2 63 then .ok (.integer (-magnitude))
    else .ok (.decimal (signed true (Decimal.nearest magnitude 1)))
  | _, _, _ => parts.decimal after

def Scan.after : Scan → Place
  | .found _ after => after
  | .broken _ _ => []

theorem length_dropWhile_le (text : List Char) : (text.dropWhile Char.isDigit).length ≤ text.length :=
  (List.dropWhile_sublist _).length_le

theorem length_after_scanExponent (negative : Bool) (whole : List Char)
    (fraction : Option (List Char)) (place : Place) :
    (scanExponent negative whole fraction place).after.length ≤ place.length := by
  fun_cases scanExponent negative whole fraction place with
  | case3 e rest _ down c after _ same =>
    have := length_dropWhile_le after
    have : (c :: after).length ≤ rest.length := by grind
    simp only [Scan.after, List.length_cons] at *
    omega
  | _ => simp [Scan.after]

theorem length_after_scanFraction (negative : Bool) (whole : List Char) (place : Place) :
    (scanFraction negative whole place).after.length ≤ place.length := by
  fun_cases scanFraction negative whole place with
  | case1 => simp [Scan.after]
  | case2 rest _ =>
    have := length_after_scanExponent negative whole (some (rest.takeWhile Char.isDigit))
      (rest.dropWhile Char.isDigit)
    have := length_dropWhile_le rest
    simp only [List.length_cons]
    omega
  | case3 => exact length_after_scanExponent ..

theorem length_after_scanMagnitude (negative : Bool) (c : Char) (rest : Place) :
    (scanMagnitude negative (c :: rest)).after.length ≤ rest.length := by
  unfold scanMagnitude
  split
  · contradiction
  · next same =>
    obtain ⟨rfl, rfl⟩ := List.cons.inj same
    split
    · exact length_after_scanFraction ..
    · simp [Scan.after]
  · next same =>
    obtain ⟨rfl, rfl⟩ := List.cons.inj same
    split
    · exact Nat.le_trans (length_after_scanFraction ..) (length_dropWhile_le rest)
    · simp [Scan.after]

theorem length_after_scan (c : Char) (rest : Place) :
    (scan (c :: rest)).after.length ≤ rest.length := by
  unfold scan
  split
  · next same =>
    obtain ⟨rfl, rfl⟩ := List.cons.inj same
    cases rest with
    | nil => simp [scanMagnitude, Scan.after]
    | cons d rest => exact Nat.le_succ_of_le (length_after_scanMagnitude true d rest)
  · exact length_after_scanMagnitude false c rest

end Numeral
end GrammarCheck.Json
