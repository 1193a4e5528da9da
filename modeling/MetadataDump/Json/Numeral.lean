import MetadataDump.Json.Basic
import MetadataDump.Decimal.Layout

namespace MetadataDump.Numeral

def ofInt (n : Int) : Numeral := ⟨n < 0, n.natAbs, [], none⟩

def digitChar (d : Fin 10) : Char := d.val.digitChar

def digit? (c : Char) : Option (Fin 10) :=
  if '0' ≤ c ∧ c ≤ '9' then some (.ofNat 10 (c.toNat - '0'.toNat)) else none

def chars (n : Numeral) : List Char :=
  (if n.negative then ['-'] else []) ++ Nat.toDigits 10 n.whole ++
    (if n.fraction.isEmpty then [] else '.' :: n.fraction.map digitChar) ++
    match n.exponent with
    | none => []
    | some e => 'e' :: (if e < 0 then '-' else '+') :: Nat.toDigits 10 e.natAbs

def digits : List Char → List (Fin 10) × List Char
  | [] => ([], [])
  | c :: cs =>
    match digit? c with
    | some d => let (ds, rest) := digits cs; (d :: ds, rest)
    | none => ([], c :: cs)

def value (ds : List (Fin 10)) : Nat := ds.foldl (fun n d ↦ 10 * n + d.val) 0

/-- The whole part: one zero, or digits that do not start with one. -/
def scanWhole (cs : List Char) : Option (Nat × List Char) :=
  match digits cs with
  | ([], _) => none
  | (0 :: _, _) => some (0, cs.drop 1)
  | (ds, rest) => some (value ds, rest)

def scanFraction : List Char → Option (List (Fin 10) × List Char)
  | '.' :: cs =>
    match digits cs with
    | ([], _) => none
    | found => some found
  | cs => some ([], cs)

def scanPower (negative : Bool) (cs : List Char) : Option (Option Int × List Char) :=
  match digits cs with
  | ([], _) => none
  | (ds, rest) => some (some (if negative then -(value ds : Int) else value ds), rest)

def scanExponent : List Char → Option (Option Int × List Char)
  | 'e' :: cs | 'E' :: cs =>
    match cs with
    | '-' :: ds => scanPower true ds
    | '+' :: ds => scanPower false ds
    | ds => scanPower false ds
  | cs => some (none, cs)

def scan (cs : List Char) : Option (Numeral × List Char) := do
  let (negative, cs) := match cs with
    | '-' :: rest => (true, rest)
    | cs => (false, cs)
  let (whole, cs) ← scanWhole cs
  let (fraction, cs) ← scanFraction cs
  let (exponent, cs) ← scanExponent cs
  return (⟨negative, whole, fraction, exponent⟩, cs)

def ofString? (s : String) : Option Numeral :=
  match scan s.toList with
  | some (n, []) => some n
  | _ => none

/-- The integer of a numeral without fraction and exponent. Negative zero is not an integer. -/
def toInt? (n : Numeral) : Option Int :=
  if n.fraction.isEmpty ∧ n.exponent.isNone ∧ ¬ (n.negative ∧ n.whole = 0) then
    some (if n.negative then -n.whole else n.whole)
  else none

/-- Appends digits to a significand as long as it stays below `2 ^ 64`; also the number of digits
that were left. -/
def accumulate (significand : Nat) : List (Fin 10) → Nat × Nat
  | [] => (significand, 0)
  | d :: ds =>
    if significand * 10 + d.val < 0x10000000000000000 then accumulate (significand * 10 + d.val) ds
    else (significand, ds.length + 1)

/-- `x * 10 ^ power` in 64-bit arithmetic, one multiplication or division at a time; `none` if the
number is too large. Two divisions by `10 ^ 308` leave nothing of a significand. -/
def scaled (x : Float) (power : Int) : Nat → Option Float
  | 0 => some 0
  | steps + 1 =>
    if power.natAbs ≤ 308 then
      let factor := Float.ofScientific 1 false power.natAbs
      if 0 ≤ power then
        let y := x * factor
        if y.isInf then none else some y
      else some (x / factor)
    else if x == 0 then some x
    else if 0 ≤ power then none
    else scaled (x / Float.ofScientific 1 false 308) (power + 308) steps

/-- The bits of the 64-bit number that a numeral is read as. The significand keeps the leading
digits that fit 64 bits; an exponent of more than 31 bits gives zero or no number. -/
def toBinary64? (n : Numeral) : Option UInt64 := do
  let (significand, dropped) := accumulate 0 ((Nat.toDigits 10 n.whole).filterMap digit?)
  let (significand, left) := accumulate significand n.fraction
  let power := (dropped : Int) - (n.fraction.length - left : Nat)
  let exponent := n.exponent.getD 0
  let x ←
    if exponent.natAbs < 0x80000000 then scaled (Float.ofNat significand) (power + exponent) 3
    else if significand ≠ 0 ∧ 0 < exponent then none
    else some 0
  return (if n.negative then -x else x).toBits

def ofBinary64 (bits : UInt64) : Numeral :=
  (ofString? (Decimal.jsonNumber.text Decimal.binary64 bits.toNat)).getD ⟨false, 0, [], none⟩

end MetadataDump.Numeral
