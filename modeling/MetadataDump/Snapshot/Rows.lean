import MetadataDump.Json.Codec

namespace MetadataDump

/-- Positions in a table, given by a signed start and a count. -/
structure RowRange where
  start : Int32
  count : UInt16
  deriving DecidableEq, Repr

namespace RowRange

def stop (r : RowRange) : Int := r.start.toInt + r.count.toNat

def positions (r : RowRange) : List Int :=
  (List.range r.count.toNat).map fun (i : Nat) ↦ r.start.toInt + (i : Int)

end RowRange

structure ImageRow where
  nameIndex : UInt32
  typeStart : UInt32
  typeCount : UInt32
  customAttributeStart : UInt32
  customAttributeCount : UInt32
  token : UInt32
  deriving DecidableEq, Repr

namespace ImageRow

def typeStop (r : ImageRow) : Nat := r.typeStart.toNat + r.typeCount.toNat

def typeIndices (r : ImageRow) : List Nat := List.range' r.typeStart.toNat r.typeCount.toNat

def fieldNames : List String :=
  ["name_index", "type_start", "type_count", "custom_attribute_start", "custom_attribute_count",
    "token"]

instance : Json.Codec ImageRow where
  encode r := .record fieldNames
    [Json.encode r.nameIndex, Json.encode r.typeStart, Json.encode r.typeCount,
      Json.encode r.customAttributeStart, Json.encode r.customAttributeCount, Json.encode r.token]
  decode? := Json.readRecord fieldNames do
    return {
      nameIndex := ← Json.optional 0
      typeStart := ← Json.optional 0
      typeCount := ← Json.optional 0
      customAttributeStart := ← Json.optional 0
      customAttributeCount := ← Json.optional 0
      token := ← Json.optional 0 }

end ImageRow

structure TypeRow where
  nameIndex : UInt32
  namespaceIndex : UInt32
  parentIndex : Int32
  elementTypeIndex : Int32
  genericContainerIndex : Int32
  flags : UInt32
  fieldStart : Int32
  methodStart : Int32
  propertyStart : Int32
  interfacesStart : Int32
  methodCount : UInt16
  propertyCount : UInt16
  fieldCount : UInt16
  interfacesCount : UInt16
  bitfield : UInt32
  customAttributeIndex : Int32
  token : UInt32
  deriving DecidableEq, Repr

namespace TypeRow

def isValueType (r : TypeRow) : Bool := r.bitfield.toNat % 2 = 1

def isEnum (r : TypeRow) : Bool := r.bitfield.toNat / 2 % 2 = 1

def fieldRange (r : TypeRow) : RowRange := ⟨r.fieldStart, r.fieldCount⟩
def propertyRange (r : TypeRow) : RowRange := ⟨r.propertyStart, r.propertyCount⟩
def methodRange (r : TypeRow) : RowRange := ⟨r.methodStart, r.methodCount⟩
def interfaceRange (r : TypeRow) : RowRange := ⟨r.interfacesStart, r.interfacesCount⟩

def fieldNames : List String :=
  ["name_index", "namespace_index", "parent_index", "element_type_index",
    "generic_container_index", "flags", "field_start", "method_start", "property_start",
    "interfaces_start", "method_count", "property_count", "field_count", "interfaces_count",
    "bitfield", "custom_attribute_index", "token"]

instance : Json.Codec TypeRow where
  encode r := .record fieldNames
    [Json.encode r.nameIndex, Json.encode r.namespaceIndex, Json.encode r.parentIndex,
      Json.encode r.elementTypeIndex, Json.encode r.genericContainerIndex, Json.encode r.flags,
      Json.encode r.fieldStart, Json.encode r.methodStart, Json.encode r.propertyStart,
      Json.encode r.interfacesStart, Json.encode r.methodCount, Json.encode r.propertyCount,
      Json.encode r.fieldCount, Json.encode r.interfacesCount, Json.encode r.bitfield,
      Json.encode r.customAttributeIndex, Json.encode r.token]
  decode? := Json.readRecord fieldNames do
    return {
      nameIndex := ← Json.optional 0
      namespaceIndex := ← Json.optional 0
      parentIndex := ← Json.optional (-1)
      elementTypeIndex := ← Json.optional (-1)
      genericContainerIndex := ← Json.optional (-1)
      flags := ← Json.optional 0
      fieldStart := ← Json.optional 0
      methodStart := ← Json.optional 0
      propertyStart := ← Json.optional 0
      interfacesStart := ← Json.optional 0
      methodCount := ← Json.optional 0
      propertyCount := ← Json.optional 0
      fieldCount := ← Json.optional 0
      interfacesCount := ← Json.optional 0
      bitfield := ← Json.optional 0
      customAttributeIndex := ← Json.optional (-1)
      token := ← Json.optional 0 }

end TypeRow

structure FieldRow where
  nameIndex : UInt32
  typeIndex : Int32
  customAttributeIndex : Int32
  token : UInt32
  deriving DecidableEq, Repr

namespace FieldRow

def fieldNames : List String := ["name_index", "type_index", "custom_attribute_index", "token"]

instance : Json.Codec FieldRow where
  encode r := .record fieldNames
    [Json.encode r.nameIndex, Json.encode r.typeIndex, Json.encode r.customAttributeIndex,
      Json.encode r.token]
  decode? := Json.readRecord fieldNames do
    return {
      nameIndex := ← Json.optional 0
      typeIndex := ← Json.optional (-1)
      customAttributeIndex := ← Json.optional (-1)
      token := ← Json.optional 0 }

end FieldRow

/-- A property; its accessors are counted from the first method of its type. -/
structure PropertyRow where
  nameIndex : UInt32
  get : Int32
  set : Int32
  attrs : UInt32
  customAttributeIndex : Int32
  token : UInt32
  deriving DecidableEq, Repr

namespace PropertyRow

def fieldNames : List String :=
  ["name_index", "get", "set", "attrs", "custom_attribute_index", "token"]

instance : Json.Codec PropertyRow where
  encode r := .record fieldNames
    [Json.encode r.nameIndex, Json.encode r.get, Json.encode r.set, Json.encode r.attrs,
      Json.encode r.customAttributeIndex, Json.encode r.token]
  decode? := Json.readRecord fieldNames do
    return {
      nameIndex := ← Json.optional 0
      get := ← Json.optional (-1)
      set := ← Json.optional (-1)
      attrs := ← Json.optional 0
      customAttributeIndex := ← Json.optional (-1)
      token := ← Json.optional 0 }

end PropertyRow

structure MethodRow where
  nameIndex : UInt32
  declaringType : UInt32
  returnType : Int32
  parameterStart : Int32
  genericContainerIndex : Int32
  token : UInt32
  flags : UInt16
  iflags : UInt16
  slot : UInt16
  parameterCount : UInt16
  customAttributeIndex : Int32
  deriving DecidableEq, Repr

namespace MethodRow

def parameterRange (r : MethodRow) : RowRange := ⟨r.parameterStart, r.parameterCount⟩

def noSlot : UInt16 := 0xFFFF

def slot? (r : MethodRow) : Option UInt16 := if r.slot = noSlot then none else some r.slot

def fieldNames : List String :=
  ["name_index", "declaring_type", "return_type", "parameter_start", "generic_container_index",
    "token", "flags", "iflags", "slot", "parameter_count", "custom_attribute_index"]

instance : Json.Codec MethodRow where
  encode r := .record fieldNames
    [Json.encode r.nameIndex, Json.encode r.declaringType, Json.encode r.returnType,
      Json.encode r.parameterStart, Json.encode r.genericContainerIndex, Json.encode r.token,
      Json.encode r.flags, Json.encode r.iflags, Json.encode r.slot, Json.encode r.parameterCount,
      Json.encode r.customAttributeIndex]
  decode? := Json.readRecord fieldNames do
    return {
      nameIndex := ← Json.optional 0
      declaringType := ← Json.optional 0
      returnType := ← Json.optional (-1)
      parameterStart := ← Json.optional 0
      genericContainerIndex := ← Json.optional (-1)
      token := ← Json.optional 0
      flags := ← Json.optional 0
      iflags := ← Json.optional 0
      slot := ← Json.optional noSlot
      parameterCount := ← Json.optional 0
      customAttributeIndex := ← Json.optional (-1) }

end MethodRow

structure ParameterRow where
  nameIndex : UInt32
  token : UInt32
  typeIndex : Int32
  deriving DecidableEq, Repr

namespace ParameterRow

def fieldNames : List String := ["name_index", "token", "type_index"]

instance : Json.Codec ParameterRow where
  encode r := .record fieldNames
    [Json.encode r.nameIndex, Json.encode r.token, Json.encode r.typeIndex]
  decode? := Json.readRecord fieldNames do
    return {
      nameIndex := ← Json.optional 0
      token := ← Json.optional 0
      typeIndex := ← Json.optional (-1) }

end ParameterRow

structure TypeReference where
  attrs : UInt16
  kind : UInt8
  byref : Bool
  deriving DecidableEq, Repr

namespace TypeReference

def fieldNames : List String := ["attrs", "kind", "byref"]

instance : Json.Codec TypeReference where
  encode r := .record fieldNames [Json.encode r.attrs, Json.encode r.kind, Json.encode r.byref]
  decode? := Json.readRecord fieldNames do
    return {
      attrs := ← Json.optional 0
      kind := ← Json.optional 0
      byref := ← Json.optional false }

end TypeReference

structure DefaultRow where
  typeIndex : Int32
  dataIndex : Int32
  deriving DecidableEq, Repr

namespace DefaultRow

def fieldNames : List String := ["type_index", "data_index"]

instance : Json.Codec DefaultRow where
  encode r := .record fieldNames [Json.encode r.typeIndex, Json.encode r.dataIndex]
  decode? := Json.readRecord fieldNames do
    return { typeIndex := ← Json.required, dataIndex := ← Json.required }

end DefaultRow

end MetadataDump
