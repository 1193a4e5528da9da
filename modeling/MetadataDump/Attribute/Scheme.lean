import MetadataDump.Attribute.Record
import MetadataDump.Snapshot.Index

/-!
The two ways in which metadata store custom attributes, and the attribute lines of a declaration,
one attribute on each. Before version 29 only the attribute types and the address of a function that
generates the attributes are known. From then on the attributes are data, and data that cannot be
decoded never fail the declaration: what came before is kept and a comment tells what happened.
-/

namespace MetadataDump

namespace Address

def text (a : Address) : String :=
  "RVA: 0x" ++ Text.upperHex a.rva.toNat ++ " Offset: 0x" ++ Text.upperHex a.offset.toNat ++
    " VA: 0x" ++ Text.upperHex a.va.toNat

end Address

namespace RecordReader

/-- The attributes that can be read, up to `n` of them, and what stopped the reading. -/
def readUpTo (s : Snapshot) : Nat → RecordReader → List Attribute × Option Error
  | 0, _ => ([], none)
  | n + 1, r =>
    match next s r with
    | .error e _ => ([], some e)
    | .ok a r =>
      let (as, failure) := readUpTo s n r
      (a :: as, failure)

end RecordReader

inductive AttributeScheme
  | generator | data
  deriving DecidableEq, Repr

namespace AttributeScheme

def ofVersion? (v : Version) : Option AttributeScheme :=
  if !v.hasAttributes then none
  else if v.hasAttributeData then some .data
  else some .generator

def generatedLine (indent name : String) (address : Address) : String :=
  indent ++ "[" ++ name ++ "] // " ++ address.text ++ "\n"

def generatorLines (s : Snapshot) (i : Nat) (indent : String) : Except Error String := do
  let address := s.address (s.attributeGenerator i)
  let names ← (← s.attributeTypesOf i).mapM s.typeName
  return String.join (names.map (generatedLine indent · address))

/-- The data of an attribute range, which end where the next range starts. -/
def rangeData (s : Snapshot) (i : Nat) : Except Error ByteArray := do
  let start ← s.attributeDataOffset i
  let stop ← s.attributeDataOffset (i + 1)
  s.attributeDataSlice start stop

/-- The attributes of a range of attribute data that can be read, and what stopped the reading. A
range without data has no attributes. -/
def rangeAttributes (s : Snapshot) (i : Nat) : List Attribute × Option Error :=
  match rangeData s i with
  | .error e => ([], some e)
  | .ok bytes =>
    if bytes.isEmpty then ([], none)
    else
      match RecordReader.ofBytes bytes with
      | .error e => ([], some e)
      | .ok r => r.readUpTo s r.count.toNat

def attributeLine (indent : String) (a : Attribute) : String := indent ++ a.text ++ "\n"

section

variable [Places]

def failureLine (indent : String) (e : Error) : String :=
  indent ++ "/* Undecodable custom attribute data: " ++ e.message ++ " */\n"

def dataLines (s : Snapshot) (i : Nat) (indent : String) : String :=
  let (attributes, failure) := rangeAttributes s i
  String.join (attributes.map (attributeLine indent)) ++
    String.join (failure.toList.map (failureLine indent))

def lines (scheme : AttributeScheme) (s : Snapshot) (i : Nat) (indent : String) :
    Except Error String :=
  match scheme with
  | .generator => generatorLines s i indent
  | .data => .ok (dataLines s i indent)

end

end AttributeScheme

namespace Metadata

def attributeLines [Places] (m : Metadata) (image : ImageRow) (index : Int32) (token : UInt32)
    (indent : String) : Except Error String :=
  match AttributeScheme.ofVersion? m.version, m.attributeIndex? image index token with
  | some scheme, some i => scheme.lines m.toSnapshot i indent
  | _, _ => .ok ""

end Metadata

end MetadataDump
