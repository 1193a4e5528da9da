import MetadataDump.Decimal.Binary

namespace MetadataDump.Decimal

/-- The number `digits * 10 ^ scale`. -/
structure Scientific where
  digits : Nat
  scale : Int
  deriving DecidableEq, Repr

/-- Which of two equally near decimals is taken. -/
inductive Tie
  | up
  | even

/-- The value and the ends of the interval that rounds to it, over one denominator. -/
structure Interval where
  low : Nat
  value : Nat
  high : Nat
  denominator : Nat
  /-- The ends round to the value too. -/
  closed : Bool

namespace Interval

/-- The interval around `mantissa * 2 ^ scale`: half a unit of the last place on each side, but a
quarter below a number whose lower neighbour is nearer. -/
def around (mantissa : Nat) (scale : Int) (narrowBelow : Bool) : Interval :=
  let unit := Nat.pow 2 (scale - 2).toNat
  { low := (4 * mantissa - if narrowBelow then 1 else 2) * unit
    value := 4 * mantissa * unit
    high := (4 * mantissa + 2) * unit
    denominator := Nat.pow 2 (2 - scale).toNat
    closed := mantissa % 2 = 0 }

def inUnits (i : Interval) (scale : Int) : Interval :=
  let up := Nat.pow 10 (-scale).toNat
  { i with
    low := i.low * up
    value := i.value * up
    high := i.high * up
    denominator := i.denominator * Nat.pow 10 scale.toNat }

def holds (i : Interval) (n : Nat) : Bool :=
  let x := n * i.denominator
  if i.closed then i.low ≤ x ∧ x ≤ i.high else i.low < x ∧ x < i.high

/-- The integer in the interval that is nearest to the value, if there is one. -/
def nearest? (i : Interval) (tie : Tie) : Option Nat :=
  let below := i.value / i.denominator
  let above := below + 1
  match i.holds below, i.holds above with
  | false, false => none
  | true, false => some below
  | false, true => some above
  | true, true =>
    let twice := 2 * (i.value % i.denominator)
    if twice < i.denominator then some below
    else if i.denominator < twice then some above
    else match tie with
      | .up => some above
      | .even => some (if below % 2 = 0 then below else above)

/-- The greatest `k` with `10 ^ k` at most the value, which is positive. -/
def magnitude (i : Interval) : Int :=
  if i.denominator ≤ i.value then
    (Nat.toDigits 10 (i.value / i.denominator)).length - 1
  else
    let width := (Nat.toDigits 10 (i.denominator / i.value)).length
    if i.denominator ≤ i.value * Nat.pow 10 (width - 1) then -(width - 1 : Int) else -width

/-- The first decimal found on the grids `10 ^ scale`, `10 ^ (scale - 1)`, … -/
def search (i : Interval) (tie : Tie) : Nat → Int → Scientific
  | 0, scale => ⟨(i.inUnits scale).value / (i.inUnits scale).denominator, scale⟩
  | grids + 1, scale =>
    match (i.inUnits scale).nearest? tie with
    | some n => ⟨n, scale⟩
    | none => search i tie grids (scale - 1)

end Interval

/-- Moves trailing zeros from the digits to the scale; `width` bounds their number. -/
def Scientific.normalize (width : Nat) (s : Scientific) : Scientific :=
  match width with
  | 0 => s
  | w + 1 =>
    if s.digits ≠ 0 ∧ s.digits % 10 = 0 then normalize w ⟨s.digits / 10, s.scale + 1⟩ else s

/-- The shortest decimal of a positive number. Seventeen digits always suffice for 64 bits. -/
def shortest (tie : Tie) (mantissa : Nat) (scale : Int) (narrowBelow : Bool) : Scientific :=
  let i := Interval.around mantissa scale narrowBelow
  (i.search tie 17 i.magnitude).normalize 20

end MetadataDump.Decimal
