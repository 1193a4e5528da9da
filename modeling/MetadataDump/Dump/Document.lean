import MetadataDump.Config
import MetadataDump.Declaration.Basic
import MetadataDump.Json.Printer

namespace MetadataDump.Dump.Document

def modifiers (ms : List Modifier) : Json := .strings (ms.map Modifier.keyword)

def default (d : Option Literal) : Json := .ofOption (fun d ↦ .string d.text) d

def field (f : FieldDecl) : Json :=
  .object [
    ("attributes", .string f.attributes),
    ("visibility", modifiers f.modifiers),
    ("type", .string f.typeName),
    ("name", .string f.name),
    ("defaultValue", default f.default),
    ("offset", .ofInt (f.offset.getD 0).toInt)]

def accessor (name : String) (a : Accessor) : Json :=
  .object [
    ("modifiers", modifiers a.modifiers),
    ("returnType", .string a.typeName),
    ("name", .string name)]

def property (p : PropertyDecl) : Json :=
  .object [
    ("attributes", .string p.attributes),
    ("modifiers", modifiers ((p.primary.map Accessor.modifiers).getD [])),
    ("type", .ofOption (fun a ↦ .string a.typeName) p.primary),
    ("name", .string p.name),
    ("accessors", .strings p.accessorNames),
    ("get", .ofOption (accessor p.name) p.getter),
    ("set", .ofOption (accessor p.name) p.setter)]

def parameter (p : ParameterDecl) : Json :=
  .object [
    ("keyword", .string p.direction.keyword),
    ("typeName", .string p.typeName),
    ("name", .string p.name),
    ("defaultValue", default p.default)]

def address (a : Option Address) : Json.Members :=
  let a := a.getD ⟨0, 0, 0⟩
  [("rva", .ofNat a.rva.toNat), ("offset", .ofNat a.offset.toNat), ("va", .ofNat a.va.toNat)]

def instantiation (a : Option Address) (i : Instantiation) : Json :=
  let result : Json.Members := [("returnType", .string i.typeName), ("name", .string i.methodName)]
  .object (result ++ address a)

def group (g : GenericGroup) : List Json := g.instances.map (instantiation g.address)

def method (m : MethodDecl) : Json :=
  let signature : Json.Members := [
    ("attributes", .string m.attributes),
    ("modifiers", modifiers m.modifiers),
    ("returnsByRef", .bool m.returnsByRef),
    ("returnType", .string m.returnType),
    ("name", .string m.name),
    ("parameters", .array (m.parameters.map parameter))]
  let rest : Json.Members := [
    ("slot", .ofOption (fun slot ↦ .ofNat slot.toNat) m.slot),
    ("isAbstract", .bool m.isAbstract),
    ("genericInstances", .array (m.generics.flatMap group))]
  .object (signature ++ address m.address ++ rest)

def type (c : Config) (t : TypeDecl) : Json :=
  let header : Json.Members := [
    ("namespace", .string t.space),
    ("extends", .strings t.bases),
    ("attributes", .string t.attributeLines),
    ("visibility", modifiers t.headerModifiers),
    ("category", .string t.category.keyword),
    ("typeName", .string t.name)]
  let index : Json.Members := if c.typeIndex then [("typeDefIndex", .ofNat t.index)] else []
  let body : Json.Members := [
    ("fields", .array (t.fields.map field)),
    ("properties", .array (t.properties.map property)),
    ("methods", .array (t.methods.map method))]
  .object (header ++ index ++ body)

section

variable [Places]

def image (c : Config) : Outcome → Json
  | .assembled decl =>
    .object [("name", .string decl.name), ("typedObjects", .array (decl.types.map (type c)))]
  | .failed f =>
    .object [("name", .string f.name), ("error", .string f.error.message),
      ("typedObjects", .array [])]

def ofOutcomes (c : Config) (outcomes : List Outcome) : Json :=
  .object [("images", .array (outcomes.map (image c)))]

def render (c : Config) (outcomes : List Outcome) : String := (ofOutcomes c outcomes).pretty

end

end MetadataDump.Dump.Document
