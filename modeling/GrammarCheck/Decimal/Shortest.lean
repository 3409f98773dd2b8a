/-! The shortest decimal that reads back as a given double, by exact arithmetic on its bits: of the
decimals with the fewest digits inside the interval that rounds to the number, the nearest one, or of
two equally near ones the one that the tie rule picks. -/
namespace GrammarCheck.Decimal

/-- The positive number `numerator / denominator`, with the interval of reals that round to it:
`below / denominator` under it and `above / denominator` over it, ends included if `closed`. -/
structure Rounded where
  numerator : Nat
  denominator : Nat
  below : Nat
  above : Nat
  closed : Bool

/-- The finite double with these bits, its sign left out. -/
def Rounded.ofBits (bits : Nat) : Rounded :=
  let field := bits / Nat.pow 2 52 % Nat.pow 2 11
  let fraction := bits % Nat.pow 2 52
  let mantissa := if field = 0 then fraction else Nat.pow 2 52 + fraction
  let power := if field = 0 then 1 else field
  let unit := Nat.pow 2 (power - 1075)
  { numerator := 4 * mantissa * unit
    denominator := 4 * Nat.pow 2 (1075 - power)
    below := if fraction = 0 ∧ 1 < field then unit else 2 * unit
    above := 2 * unit
    closed := mantissa % 2 = 0 }

structure Digits where
  coefficient : Nat
  exponent : Int

def Rounded.contains (x : Rounded) (d : Digits) : Bool :=
  let value := d.coefficient * Nat.pow 10 d.exponent.toNat * x.denominator
  let scale := Nat.pow 10 (-d.exponent).toNat
  let low := (x.numerator - x.below) * scale
  let high := (x.numerator + x.above) * scale
  if x.closed then low ≤ value && value ≤ high else low < value && value < high

/-- Which of two equally near decimals comes first: the one farther from zero, or the one with
an even last digit. -/
inductive Tie where
  | up
  | toEven

/-- Whether the lower of two neighbours on a grid comes first, from its coefficient and from twice
the distance to it against the step of the grid. -/
def Tie.prefersFloor (tie : Tie) (coefficient doubled step : Nat) : Bool :=
  match compare doubled step, tie with
  | .lt, _ => true
  | .gt, _ => false
  | .eq, .up => false
  | .eq, .toEven => coefficient % 2 == 0

/-- The neighbours of `x` among the multiples of `10 ^ exponent`, the nearer one first. -/
def Rounded.neighbours (x : Rounded) (tie : Tie) (exponent : Int) : List Digits :=
  let top := x.numerator * Nat.pow 10 (-exponent).toNat
  let step := x.denominator * Nat.pow 10 exponent.toNat
  let floor : Digits := ⟨top / step, exponent⟩
  let ceiling : Digits := ⟨top / step + 1, exponent⟩
  if tie.prefersFloor (top / step) (2 * (top % step)) step then [floor, ceiling]
  else [ceiling, floor]

/-- The number of digits before the point, or with a minus sign the zeros right after it. -/
def Rounded.magnitude (x : Rounded) : Int :=
  if x.denominator ≤ x.numerator then (Nat.toDigits 10 (x.numerator / x.denominator)).length
  else 1 - (Nat.toDigits 10 ((x.denominator - 1) / x.numerator)).length

/-- The first grid, from one digit on, that has a point where it rounds to `x`. -/
def Rounded.search (x : Rounded) (tie : Tie) : Nat → Nat → Digits
  | 0, digits => ⟨0, digits⟩
  | fuel + 1, digits =>
    match (x.neighbours tie (x.magnitude - digits)).find? x.contains with
    | some found => found
    | none => x.search tie fuel (digits + 1)

def Digits.trimmed (d : Digits) : Digits :=
  if d.coefficient = 0 ∨ d.coefficient % 10 ≠ 0 then d
  else Digits.trimmed ⟨d.coefficient / 10, d.exponent + 1⟩
termination_by d.coefficient
decreasing_by omega

/-- The shortest decimal that reads back as the finite double with these bits. Seventeen digits
always suffice. -/
def shortest (tie : Tie) (bits : Nat) : Digits :=
  let x := Rounded.ofBits bits
  if x.numerator = 0 then ⟨0, 0⟩ else (x.search tie 17 1).trimmed

end GrammarCheck.Decimal
