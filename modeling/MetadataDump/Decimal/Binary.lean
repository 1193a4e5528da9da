namespace MetadataDump.Decimal

/-- The widths, in bits, of the stored fraction and of the exponent field. -/
structure BinaryFormat where
  fraction : Nat
  exponent : Nat

def binary32 : BinaryFormat := ⟨23, 8⟩
def binary64 : BinaryFormat := ⟨52, 11⟩

/-- What a bit pattern stands for. A finite number is `mantissa * 2 ^ scale`; it is a power of two
whose lower neighbour is nearer than its upper one exactly when `narrowBelow` is set. -/
inductive BinaryValue
  | nan
  | infinite (negative : Bool)
  | finite (negative : Bool) (mantissa : Nat) (scale : Int) (narrowBelow : Bool)
  deriving DecidableEq, Repr

namespace BinaryFormat

def minScale (f : BinaryFormat) : Int := 2 - (Nat.pow 2 (f.exponent - 1) : Nat) - f.fraction

def decode (f : BinaryFormat) (bits : Nat) : BinaryValue :=
  let fraction := bits % Nat.pow 2 f.fraction
  let field := bits / Nat.pow 2 f.fraction % Nat.pow 2 f.exponent
  let negative := bits / Nat.pow 2 (f.fraction + f.exponent) % 2 = 1
  if field = Nat.pow 2 f.exponent - 1 then
    if fraction = 0 then .infinite negative else .nan
  else if field = 0 then
    .finite negative fraction f.minScale false
  else
    .finite negative (Nat.pow 2 f.fraction + fraction) (f.minScale + (field - 1 : Nat))
      (fraction = 0 ∧ field ≠ 1)

end BinaryFormat

end MetadataDump.Decimal
