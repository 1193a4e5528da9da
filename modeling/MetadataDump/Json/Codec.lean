import MetadataDump.Json.Numeral
import Std.Data.ExtTreeMap

/-!
Types with a JSON form. A record is written as an object of all its fields in order. It is read from
an object, where unknown names are passed over and known ones may stand once, or from an array of
its fields in order, where the last ones may be missing.
-/

namespace MetadataDump.Json

class Codec (α : Type) where
  encode : α → Json
  decode? : Json → Option α

export Codec (encode decode?)

section Scalars

def int? : Json → Option Int
  | .number n => n.toInt?
  | _ => none

def intWithin? (low high : Int) (v : Json) : Option Int := do
  let n ← int? v
  if low ≤ n ∧ n ≤ high then some n else none

instance : Codec Bool where
  encode := .bool
  decode?
    | .bool b => some b
    | _ => none

instance : Codec String where
  encode := .string
  decode?
    | .string s => some s
    | _ => none

instance : Codec UInt8 where
  encode n := ofNat n.toNat
  decode? v := (fun n ↦ UInt8.ofNat n.toNat) <$> intWithin? 0 0xFF v

instance : Codec UInt16 where
  encode n := ofNat n.toNat
  decode? v := (fun n ↦ UInt16.ofNat n.toNat) <$> intWithin? 0 0xFFFF v

instance : Codec UInt32 where
  encode n := ofNat n.toNat
  decode? v := (fun n ↦ UInt32.ofNat n.toNat) <$> intWithin? 0 0xFFFFFFFF v

instance : Codec UInt64 where
  encode n := ofNat n.toNat
  decode? v := (fun n ↦ UInt64.ofNat n.toNat) <$> intWithin? 0 0xFFFFFFFFFFFFFFFF v

instance : Codec Int32 where
  encode n := ofInt n.toInt
  decode? v := Int32.ofInt <$> intWithin? (-0x80000000) 0x7FFFFFFF v

instance : Codec Int64 where
  encode n := ofInt n.toInt
  decode? v := Int64.ofInt <$> intWithin? (-0x8000000000000000) 0x7FFFFFFFFFFFFFFF v

end Scalars

section Containers

variable {α : Type} [Codec α]

instance : Codec (Option α) where
  encode := ofOption encode
  decode?
    | .null => some none
    | v => some <$> decode? v

instance : Codec (List α) where
  encode xs := .array (xs.map encode)
  decode?
    | .array items => items.mapM decode?
    | _ => none

instance : Codec (Array α) where
  encode xs := .array (xs.toList.map encode)
  decode?
    | .array items => List.toArray <$> items.mapM decode?
    | _ => none

instance : Codec ByteArray where
  encode bytes := .array (bytes.data.toList.map encode)
  decode?
    | .array items => (fun bs ↦ ⟨bs.toArray⟩) <$> items.mapM decode?
    | _ => none

end Containers

section Maps

class Key (κ : Type) where
  write : κ → String
  read? : Name → Option κ

instance : Key String := ⟨id, fun name ↦ some name.text⟩

def numeral? (name : Name) : Option Json :=
  if name.escaped then none else .number <$> Numeral.ofString? name.text

instance : Key UInt64 where
  write n := String.ofList (Numeral.ofInt n.toNat).chars
  read? name := numeral? name >>= decode?

instance : Key Int32 where
  write n := String.ofList (Numeral.ofInt n.toInt).chars
  read? name := numeral? name >>= decode?

variable {κ α : Type} [Ord κ] [Std.TransOrd κ] [Key κ] [Codec α]

/-- Takes a member into a map. The last member with a name counts. -/
def insertMember (m : Std.ExtTreeMap κ α) (member : Name × Json) :
    Option (Std.ExtTreeMap κ α) := do
  return m.insert (← Key.read? member.1) (← decode? member.2)

instance : Codec (Std.ExtTreeMap κ α) where
  encode m := .object (m.toList.map fun (k, a) ↦ (.ofString (Key.write k), encode a))
  decode?
    | .object members => members.foldlM insertMember ∅
    | _ => none

end Maps

section Records

def record (names : List String) (values : List Json) : Json :=
  .object ((names.map Name.ofString).zip values)

/-- The only member with a name; `none` if there are several, `some none` if there is none. -/
def single? (members : List (Name × Json)) (name : String) : Option (Option Json) :=
  match members.filter (·.1.text == name) with
  | [] => some none
  | [(_, v)] => some (some v)
  | _ => none

/-- The fields of a record in order, each with the value that is given for it. -/
def fields? (names : List String) : Json → Option (List (Option Json))
  | .object members => names.mapM (single? members)
  | .array items =>
    if items.length ≤ names.length then
      some (items.map some ++ List.replicate (names.length - items.length) none)
    else none
  | _ => none

abbrev FieldReader := StateT (List (Option Json)) Option

def nextField : FieldReader (Option Json) := do
  match ← get with
  | [] => failure
  | v :: rest => set rest; return v

variable {α : Type} [Codec α]

def optional (missing : α) : FieldReader α := do
  match ← nextField with
  | none => return missing
  | some v => decode? v

def required : FieldReader α := do
  match ← nextField with
  | none => failure
  | some v => decode? v

def readRecord {β : Type} (names : List String) (read : FieldReader β) (v : Json) : Option β := do
  read.run' (← fields? names v)

end Records

end MetadataDump.Json
