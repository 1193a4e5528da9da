import MetadataDump.Json.Codec

namespace MetadataDump

structure Version where
  major : UInt32
  minor : UInt32
  deriving DecidableEq, Repr

namespace Version

def text (v : Version) : String := toString v.major.toNat ++ "." ++ toString v.minor.toNat

def cmp (v w : Version) : Ordering := (compare v.major w.major).then (compare v.minor w.minor)

/-- From version 21 on the metadata record custom attributes. -/
def hasAttributes (v : Version) : Bool := 21 ≤ v.major

/-- From version 29 on attributes are stored as data and not as generator functions. -/
def hasAttributeData (v : Version) : Bool := 29 ≤ v.major

/-- From version 24.1 on attributes are found by the token of their owner. -/
def hasAttributeTokens (v : Version) : Bool := (v.cmp ⟨24, 1⟩).isGE

def fieldNames : List String := ["major", "minor"]

instance : Json.Codec Version where
  encode v := .record fieldNames [Json.encode v.major, Json.encode v.minor]
  decode? := Json.readRecord fieldNames do
    return { major := ← Json.required, minor := ← Json.optional 0 }

end Version

end MetadataDump
