import MetadataDump.Literal
import MetadataDump.Snapshot.Rows
import MetadataDump.Version

namespace MetadataDump

structure Section where
  virtualAddress : UInt64
  size : UInt64
  fileOffset : UInt64
  deriving DecidableEq, Repr

namespace Section

def fieldNames : List String := ["virtual_address", "size", "file_offset"]

instance : Json.Codec Section where
  encode s := .record fieldNames
    [Json.encode s.virtualAddress, Json.encode s.size, Json.encode s.fileOffset]
  decode? := Json.readRecord fieldNames do
    return {
      virtualAddress := ← Json.optional 0
      size := ← Json.optional 0
      fileOffset := ← Json.optional 0 }

end Section

structure TypeEntry where
  name : String
  fullName : Option String
  attrs : UInt16
  kind : UInt8
  byref : Bool
  /-- The tag of the underlying type, if the type is an enum. -/
  enumElement : Option UInt8
  deriving DecidableEq, Repr

namespace TypeEntry

def reference (e : TypeEntry) : TypeReference := ⟨e.attrs, e.kind, e.byref⟩

def fieldNames : List String := ["name", "full_name", "attrs", "kind", "byref", "enum_element"]

instance : Json.Codec TypeEntry where
  encode e := .record fieldNames
    [Json.encode e.name, Json.encode e.fullName, Json.encode e.attrs, Json.encode e.kind,
      Json.encode e.byref, Json.encode e.enumElement]
  decode? := Json.readRecord fieldNames do
    return {
      name := ← Json.optional ""
      fullName := ← Json.optional none
      attrs := ← Json.optional 0
      kind := ← Json.optional 0
      byref := ← Json.optional false
      enumElement := ← Json.optional none }

end TypeEntry

structure GenericContainer where
  params : List String
  deriving DecidableEq, Repr

namespace GenericContainer

def text (c : GenericContainer) : String := "<" ++ ", ".intercalate c.params ++ ">"

def fieldNames : List String := ["params"]

instance : Json.Codec GenericContainer where
  encode c := .record fieldNames [Json.encode c.params]
  decode? := Json.readRecord fieldNames do
    return { params := ← Json.optional [] }

end GenericContainer

/-- A specialization of a generic method; its pointer is 0 if the code is not known. -/
structure MethodSpec where
  method : UInt64
  typeName : String
  methodName : String
  pointer : UInt64
  deriving DecidableEq, Repr

namespace MethodSpec

def fieldNames : List String := ["method_definition_index", "type_name", "method_name", "pointer"]

instance : Json.Codec MethodSpec where
  encode s := .record fieldNames
    [Json.encode s.method, Json.encode s.typeName, Json.encode s.methodName, Json.encode s.pointer]
  decode? := Json.readRecord fieldNames do
    return {
      method := ← Json.optional 0
      typeName := ← Json.optional ""
      methodName := ← Json.optional ""
      pointer := ← Json.optional 0 }

end MethodSpec

structure AttributeTypeRange where
  token : UInt32
  start : UInt32
  count : UInt32
  deriving DecidableEq, Repr

namespace AttributeTypeRange

def fieldNames : List String := ["token", "start", "count"]

instance : Json.Codec AttributeTypeRange where
  encode r := .record fieldNames [Json.encode r.token, Json.encode r.start, Json.encode r.count]
  decode? := Json.readRecord fieldNames do
    return {
      token := ← Json.optional 0
      start := ← Json.optional 0
      count := ← Json.optional 0 }

end AttributeTypeRange

/-- Where the attribute data of one owner start, from version 29 on. They end where the next ones
start. -/
structure AttributeDataRange where
  token : UInt32
  startOffset : UInt32
  deriving DecidableEq, Repr

namespace AttributeDataRange

def fieldNames : List String := ["token", "start_offset"]

instance : Json.Codec AttributeDataRange where
  encode r := .record fieldNames [Json.encode r.token, Json.encode r.startOffset]
  decode? := Json.readRecord fieldNames do
    return {
      token := ← Json.optional 0
      startOffset := ← Json.optional 0 }

end AttributeDataRange

structure Snapshot where
  version : Version
  imageBase : UInt64
  /-- The width of a pointer in bytes. -/
  pointerSize : UInt32
  sections : List Section
  strings : Array String
  images : List ImageRow
  typeDefs : Array TypeRow
  fields : Array FieldRow
  properties : Array PropertyRow
  methods : Array MethodRow
  parameters : Array ParameterRow
  interfaceIndices : Array Int32
  types : Array TypeEntry
  genericContainers : Array GenericContainer
  /-- The field offsets of a type, by position among its fields. -/
  fieldOffsets : Std.ExtTreeMap UInt64 (List Int32)
  /-- The method pointers of an image, by the row that a method's token names, counted from 1. -/
  methodPointers : Std.ExtTreeMap String (List UInt64)
  fieldDefaults : Std.ExtTreeMap UInt64 DefaultRow
  parameterDefaults : Std.ExtTreeMap UInt64 DefaultRow
  /-- Where the default value data lie in the metadata. -/
  defaultDataOffset : UInt32
  literals : Std.ExtTreeMap Int32 DefaultValue
  methodSpecs : Array MethodSpec
  attributeTypeRanges : Array AttributeTypeRange
  attributeTypes : List Int32
  attributeGenerators : Array UInt64
  attributeDataRanges : Array AttributeDataRange
  attributeData : ByteArray

namespace Snapshot

def fieldNames : List String :=
  ["version", "image_base", "pointer_size", "sections", "strings", "images", "type_defs", "fields",
    "properties", "methods", "parameters", "interface_indices", "types", "generic_containers",
    "field_offsets", "method_pointers", "field_default_values", "parameter_default_values",
    "default_value_data_offset", "literals", "method_specs", "attribute_type_ranges",
    "attribute_types", "attribute_generators", "attribute_data_ranges", "attribute_data"]

instance : Json.Codec Snapshot where
  encode s := .record fieldNames
    [Json.encode s.version, Json.encode s.imageBase, Json.encode s.pointerSize,
      Json.encode s.sections, Json.encode s.strings, Json.encode s.images, Json.encode s.typeDefs,
      Json.encode s.fields, Json.encode s.properties, Json.encode s.methods,
      Json.encode s.parameters, Json.encode s.interfaceIndices, Json.encode s.types,
      Json.encode s.genericContainers, Json.encode s.fieldOffsets, Json.encode s.methodPointers,
      Json.encode s.fieldDefaults, Json.encode s.parameterDefaults,
      Json.encode s.defaultDataOffset, Json.encode s.literals, Json.encode s.methodSpecs,
      Json.encode s.attributeTypeRanges, Json.encode s.attributeTypes,
      Json.encode s.attributeGenerators, Json.encode s.attributeDataRanges,
      Json.encode s.attributeData]
  decode? := Json.readRecord fieldNames do
    return {
      version := ← Json.optional ⟨0, 0⟩
      imageBase := ← Json.optional 0
      pointerSize := ← Json.optional 0
      sections := ← Json.optional []
      strings := ← Json.optional #[]
      images := ← Json.optional []
      typeDefs := ← Json.optional #[]
      fields := ← Json.optional #[]
      properties := ← Json.optional #[]
      methods := ← Json.optional #[]
      parameters := ← Json.optional #[]
      interfaceIndices := ← Json.optional #[]
      types := ← Json.optional #[]
      genericContainers := ← Json.optional #[]
      fieldOffsets := ← Json.optional ∅
      methodPointers := ← Json.optional ∅
      fieldDefaults := ← Json.optional ∅
      parameterDefaults := ← Json.optional ∅
      defaultDataOffset := ← Json.optional 0
      literals := ← Json.optional ∅
      methodSpecs := ← Json.optional #[]
      attributeTypeRanges := ← Json.optional #[]
      attributeTypes := ← Json.optional []
      attributeGenerators := ← Json.optional #[]
      attributeDataRanges := ← Json.optional #[]
      attributeData := ← Json.optional .empty }

end Snapshot

end MetadataDump
