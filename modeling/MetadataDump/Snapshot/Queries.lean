import MetadataDump.Error
import MetadataDump.Snapshot.Basic

namespace MetadataDump

/-- Where code lies: relative to the image base, in the file, and in memory. -/
structure Address where
  rva : UInt64
  offset : UInt64
  va : UInt64
  deriving DecidableEq, Repr

def greatestPosition : Int := 0x7FFFFFFFFFFFFFFF

def lookup {α : Type} (table : Table) (rows : Array α) (i : Int) : Except Error α :=
  let found := if i < 0 then none else rows[i.toNat]?
  match found with
  | some row => .ok row
  | none => .error (.dangling table (min i greatestPosition))

namespace Section

def contains (s : Section) (va : UInt64) : Bool :=
  s.virtualAddress ≤ va ∧ va - s.virtualAddress < s.size

end Section

namespace Snapshot

def typeDef (s : Snapshot) (i : Int) : Except Error TypeRow := lookup .typeDefs s.typeDefs i
def fieldDef (s : Snapshot) (i : Int) : Except Error FieldRow := lookup .fields s.fields i
def propertyDef (s : Snapshot) (i : Int) : Except Error PropertyRow :=
  lookup .properties s.properties i
def methodDef (s : Snapshot) (i : Int) : Except Error MethodRow := lookup .methods s.methods i
def parameterDef (s : Snapshot) (i : Int) : Except Error ParameterRow :=
  lookup .parameters s.parameters i
def interfaceIndex (s : Snapshot) (i : Int) : Except Error Int32 :=
  lookup .interfaceIndices s.interfaceIndices i
def text (s : Snapshot) (i : UInt32) : Except Error String := lookup .strings s.strings i.toNat
def typeEntry (s : Snapshot) (i : Int32) : Except Error TypeEntry := lookup .types s.types i.toInt

def typeReference (s : Snapshot) (i : Int32) : Except Error TypeReference :=
  TypeEntry.reference <$> s.typeEntry i

def typeName (s : Snapshot) (i : Int32) : Except Error String := TypeEntry.name <$> s.typeEntry i

def typeFullName (s : Snapshot) (i : Int32) : Except Error String :=
  (fun e ↦ e.fullName.getD e.name) <$> s.typeEntry i

def enumElement (s : Snapshot) (i : Int32) : Except Error UInt8 := do
  let entry ← s.typeEntry i
  match entry.enumElement with
  | some tag => return tag
  | none => throw (.malformed (.notAnEnum entry.name))

def genericParams (s : Snapshot) (i : Int32) : Except Error String :=
  GenericContainer.text <$> lookup .genericContainers s.genericContainers i.toInt

def genericSuffix (s : Snapshot) (container : Int32) : Except Error String :=
  if container < 0 then .ok "" else s.genericParams container

def qualifier (s : Snapshot) (row : TypeRow) : Except Error String := do
  let space ← s.text row.namespaceIndex
  return if space.isEmpty then "" else space ++ "."

def typeDefName (s : Snapshot) (i : Int) (full generic : Bool) : Except Error String := do
  let row ← s.typeDef i
  let front ← if full then s.qualifier row else pure ""
  let name ← s.text row.nameIndex
  let back ← if generic then s.genericSuffix row.genericContainerIndex else pure ""
  return front ++ name ++ back

/-- The size of the header of a boxed value: two pointers, or 0 if that does not fit 31 bits. -/
def headerSize (s : Snapshot) : Int32 :=
  let size := 2 * s.pointerSize.toNat
  if size < 0x80000000 then Int32.ofInt size else 0

def recordedOffset? (s : Snapshot) (type position : Nat) : Option Int32 := do
  (← s.fieldOffsets[UInt64.ofNat type]?)[position]?

/-- The offset of a field. Instance fields of value types are recorded as in a boxed object. -/
def fieldOffset (s : Snapshot) (type position : Nat) (isValueType isStatic : Bool) : Int32 :=
  let offset := (s.recordedOffset? type position).getD 0
  if isValueType && !isStatic then offset - s.headerSize else offset

/-- The row that a token names, counted from 1. -/
def tokenRow (token : UInt32) : Nat := token.toNat % 0x1000000

def methodPointer (s : Snapshot) (image : String) (token : UInt32) : UInt64 :=
  match tokenRow token with
  | 0 => 0
  | row + 1 => ((s.methodPointers[image]?).bind (·[row]?)).getD 0

/-- The address of a pointer. The sum with the file offset wraps as in a release build; a debug
build stops where it does not fit 64 bits. -/
def address (s : Snapshot) (pointer : UInt64) : Address :=
  { rva := pointer - s.imageBase
    offset :=
      match s.sections.find? (·.contains pointer) with
      | some found => pointer - found.virtualAddress + found.fileOffset
      | none => 0
    va := pointer }

def address? (s : Snapshot) (pointer : UInt64) : Option Address :=
  if pointer = 0 then none else some (s.address pointer)

def fieldDefault? (s : Snapshot) (i : Nat) : Option DefaultRow := s.fieldDefaults[UInt64.ofNat i]?

def parameterDefault? (s : Snapshot) (i : Nat) : Option DefaultRow :=
  s.parameterDefaults[UInt64.ofNat i]?

def defaultValue (s : Snapshot) (dataIndex : Int32) : DefaultValue :=
  s.literals[dataIndex]?.getD (.unresolved (s.defaultDataOffset + dataIndex.toUInt32))

def attributeGenerator (s : Snapshot) (i : Nat) : UInt64 := s.attributeGenerators[i]?.getD 0

def attributeTypesOf (s : Snapshot) (i : Nat) : Except Error (List Int32) := do
  let range ← lookup .attributeTypeRanges s.attributeTypeRanges i
  let start := range.start.toNat
  let stop := start + range.count.toNat
  if stop ≤ s.attributeTypes.length then
    return (s.attributeTypes.drop start).take range.count.toNat
  else
    throw (.dangling .attributeTypes stop)

def attributeDataOffset (s : Snapshot) (i : Nat) : Except Error UInt32 :=
  AttributeDataRange.startOffset <$> lookup .attributeDataRanges s.attributeDataRanges i

def attributeDataSlice (s : Snapshot) (start stop : UInt32) : Except Error ByteArray :=
  if stop < start then .error (.malformed (.invertedRange start stop))
  else if s.attributeData.size < stop.toNat then .error (.outOfBounds .attributeData)
  else .ok (s.attributeData.extract start.toNat stop.toNat)

end Snapshot

end MetadataDump
