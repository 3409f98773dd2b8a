import GrammarCheck.Decimal.Shortest

/-! How a double is written out: the shortest digits, with a point or with an exponent. -/
namespace GrammarCheck.Decimal

structure Style where
  /-- Whether a number is written without an exponent, by the place of its point: the number of
  digits before it, or with a minus sign the zeros right after it. -/
  isPositional : Int → Bool
  /-- Whether whole numbers end in `.0`. -/
  marksWhole : Bool
  /-- Which of two equally near decimals is written. -/
  tie : Tie

/-- Never an exponent, and a point only where something follows it. A tie goes away from zero. -/
def Style.plain : Style := ⟨fun _ => true, false, .up⟩

/-- An exponent with its sign from `1e+16` on and below `1e-5`, and always a point in front of it
or elsewhere, except in a single digit with an exponent. A tie goes to the even digit. -/
def Style.marked : Style := ⟨fun point => -5 < point && point ≤ 16, true, .toEven⟩

def Digits.write (style : Style) (d : Digits) : List Char :=
  let digits := Nat.toDigits 10 d.coefficient
  let point := d.exponent + digits.length
  let whole := if style.marksWhole then ['.', '0'] else []
  if d.coefficient = 0 then '0' :: whole
  else if style.isPositional point then
    if 0 ≤ d.exponent then digits ++ List.replicate d.exponent.toNat '0' ++ whole
    else if 0 < point then digits.take point.toNat ++ '.' :: digits.drop point.toNat
    else ['0', '.'] ++ List.replicate (-point).toNat '0' ++ digits
  else
    let head := digits.take 1
    let tail := digits.drop 1
    let sign := if 0 < point then ['+'] else []
    head ++ (if tail.isEmpty then [] else '.' :: tail) ++
      'e' :: sign ++ (toString (point - 1)).toList

def Style.write (style : Style) (x : Float) : String :=
  let bits := x.toBits.toNat
  let sign := if Nat.pow 2 63 ≤ bits then ['-'] else []
  if x.isNaN then "NaN"
  else if x.isInf then String.ofList (sign ++ ['i', 'n', 'f'])
  else String.ofList (sign ++ (shortest style.tie (bits % Nat.pow 2 63)).write style)

end GrammarCheck.Decimal
