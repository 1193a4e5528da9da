import MetadataDump.Json.Codec
import MetadataDump.Json.Printer

namespace MetadataDump

structure Config where
  methods : Bool
  fields : Bool
  properties : Bool
  attributes : Bool
  fieldOffsets : Bool
  methodOffsets : Bool
  typeIndex : Bool
  text : Bool
  json : Bool
  /-- Images may be assembled at the same time. The result does not depend on it. -/
  parallel : Bool
  deriving DecidableEq, Repr

namespace Config

def full : Config := ⟨true, true, true, true, true, true, true, true, true, false⟩

def declarationsOnly : Config :=
  { full with
    attributes := false, fieldOffsets := false, methodOffsets := false, typeIndex := false }

def fieldNames : List String :=
  ["DumpMethod", "DumpField", "DumpProperty", "DumpAttribute", "DumpFieldOffset",
    "DumpMethodOffset", "DumpTypeDefIndex", "DumpToCs", "DumpToJson", "Parallel"]

instance : Json.Codec Config where
  encode c := .record fieldNames
    [Json.encode c.methods, Json.encode c.fields, Json.encode c.properties,
      Json.encode c.attributes, Json.encode c.fieldOffsets, Json.encode c.methodOffsets,
      Json.encode c.typeIndex, Json.encode c.text, Json.encode c.json, Json.encode c.parallel]
  decode? := Json.readRecord fieldNames do
    return {
      methods := ← Json.optional full.methods
      fields := ← Json.optional full.fields
      properties := ← Json.optional full.properties
      attributes := ← Json.optional full.attributes
      fieldOffsets := ← Json.optional full.fieldOffsets
      methodOffsets := ← Json.optional full.methodOffsets
      typeIndex := ← Json.optional full.typeIndex
      text := ← Json.optional full.text
      json := ← Json.optional full.json
      parallel := ← Json.optional full.parallel }

end Config

end MetadataDump
