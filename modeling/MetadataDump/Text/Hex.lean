namespace MetadataDump.Text

/-- The hexadecimal digits of `n`, in lower case and without leading zeros. -/
def hex (n : Nat) : String :=
  String.ofList (Nat.toDigits 16 n)

def upperHex (n : Nat) : String :=
  String.ofList ((Nat.toDigits 16 n).map Char.toUpper)

/-- The last `width` hexadecimal digits of `n`, in lower case and with leading zeros. -/
def fixedHex (width n : Nat) : List Char :=
  match width with
  | 0 => []
  | k + 1 => fixedHex k (n / 16) ++ [(n % 16).digitChar]

def byteHex (b : UInt8) : String :=
  String.ofList ((fixedHex 2 b.toNat).map Char.toUpper)

def hexValue? (c : Char) : Option Nat :=
  if '0' ≤ c ∧ c ≤ '9' then some (c.toNat - '0'.toNat)
  else if 'a' ≤ c ∧ c ≤ 'f' then some (c.toNat - 'a'.toNat + 10)
  else if 'A' ≤ c ∧ c ≤ 'F' then some (c.toNat - 'A'.toNat + 10)
  else none

end MetadataDump.Text
