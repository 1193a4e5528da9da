import MetadataDump.Decimal.Shortest

/-!
Layouts of floating-point numbers. Both write the shortest digits; they differ in where an exponent
is used, in whether a whole number keeps a point, and in how ties between two shortest decimals go.
-/

namespace MetadataDump.Decimal

structure Layout where
  tie : Tie
  /-- A whole number ends in `.0`. -/
  pointAlways : Bool
  /-- The places of the leading digit (1 for the units) that are written without an exponent. -/
  positional : Int → Bool

def plain : Layout := ⟨.up, false, fun _ ↦ true⟩

/-- Numbers of JSON text: an exponent from `10 ^ 16` up and below `10 ^ -5`. -/
def jsonNumber : Layout := ⟨.even, true, fun place ↦ -4 ≤ place ∧ place ≤ 16⟩

namespace Layout

def zeros (n : Nat) : String := String.ofList (List.replicate n '0')

def point (l : Layout) (digits : List Char) (place : Int) : String :=
  if digits.length ≤ place then
    String.ofList digits ++ zeros (place - digits.length).toNat ++
      if l.pointAlways then ".0" else ""
  else if 0 < place then
    String.ofList (digits.take place.toNat) ++ "." ++ String.ofList (digits.drop place.toNat)
  else
    "0." ++ zeros (-place).toNat ++ String.ofList digits

def withExponent (digits : List Char) (place : Int) : String :=
  String.ofList (digits.take 1) ++
    (if digits.length = 1 then "" else "." ++ String.ofList (digits.drop 1)) ++
    (if place < 1 then "e" else "e+") ++ toString (place - 1)

def scientific (l : Layout) (s : Scientific) : String :=
  let digits := Nat.toDigits 10 s.digits
  let place := s.scale + digits.length
  if l.positional place then l.point digits place else withExponent digits place

def text (l : Layout) (f : BinaryFormat) (bits : Nat) : String :=
  match f.decode bits with
  | .nan => "NaN"
  | .infinite negative => if negative then "-inf" else "inf"
  | .finite negative mantissa scale narrowBelow =>
    (if negative then "-" else "") ++
      if mantissa = 0 then l.point ['0'] 1
      else l.scientific (shortest l.tie mantissa scale narrowBelow)

end Layout

end MetadataDump.Decimal
