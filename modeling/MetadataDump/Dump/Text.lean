import MetadataDump.Attribute.Scheme
import MetadataDump.Config
import MetadataDump.Declaration.Basic

namespace MetadataDump.Dump.Text

def words (ws : List String) : String := String.join (ws.map (· ++ " "))

def modifiers (ms : List Modifier) : String := words (ms.map Modifier.keyword)

def address : Option Address → String
  | some a => a.text
  | none => "RVA: -1 Offset: -1"

def suffix (default : Option Literal) : String := (default.map Literal.suffix).getD ""

def offsetComment : Option Int32 → String
  | some offset => " // 0x" ++ Text.upperHex offset.toUInt32.toNat
  | none => ""

def field (f : FieldDecl) : String :=
  f.attributes ++ "\t" ++ modifiers f.modifiers ++ f.typeName ++ " " ++ f.name ++
    suffix f.default ++ ";" ++ offsetComment f.offset ++ "\n"

/-- A property without accessors shows its name alone. -/
def propertyBody (p : PropertyDecl) : String :=
  match p.primary with
  | none => p.name ++ " \x7b \x7d"
  | some accessor =>
    modifiers accessor.modifiers ++ accessor.typeName ++ " " ++ p.name ++ " \x7b " ++
      String.join (p.accessorNames.map (· ++ "; ")) ++ "\x7d"

def property (p : PropertyDecl) : String :=
  p.attributes ++ "\t" ++ propertyBody p ++ "\n"

def parameter (p : ParameterDecl) : String :=
  words ([p.direction.keyword].filter (· ≠ "")) ++ p.typeName ++ " " ++ p.name ++ suffix p.default

def addressLine (c : Config) (m : MethodDecl) : String :=
  if c.methodOffsets then
    "\t// " ++ address m.address ++
      ((m.slot.map fun slot ↦ " Slot: " ++ toString slot.toNat).getD "") ++ "\n"
  else ""

def signature (m : MethodDecl) : String :=
  "\t" ++ modifiers m.modifiers ++ (if m.returnsByRef then "ref " else "") ++ m.returnType ++ " " ++
    m.name ++ "(" ++ ", ".intercalate (m.parameters.map parameter) ++
    (if m.isAbstract then ");\n" else ") \x7b \x7d\n")

def instanceLine (i : Instantiation) : String :=
  "\t|-" ++ i.typeName ++ "." ++ i.methodName ++ "\n"

def group (g : GenericGroup) : String :=
  "\t|\n\t|-" ++ address g.address ++ "\n" ++ String.join (g.instances.map instanceLine)

def generics (groups : List GenericGroup) : String :=
  if groups.isEmpty then ""
  else "\t/* GenericInstMethod :\n" ++ String.join (groups.map group) ++ "\t*/\n"

def method (c : Config) (m : MethodDecl) : String :=
  "\n" ++ m.attributes ++ addressLine c m ++ signature m ++ generics m.generics

/-- The members of one kind under their title, if they are shown and there are any. -/
def memberSection {α : Type} (isShown : Bool) (title : String) (write : α → String)
    (members : List α) : String :=
  if isShown && !members.isEmpty then
    "\n\t// " ++ title ++ "\n" ++ String.join (members.map write)
  else ""

def bases (names : List String) : String :=
  if names.isEmpty then "" else " : " ++ ", ".intercalate names

def indexComment (c : Config) (index : Nat) : String :=
  if c.typeIndex then " // TypeDefIndex: " ++ toString index else ""

def header (c : Config) (t : TypeDecl) : String :=
  modifiers t.headerModifiers ++ t.category.keyword ++ " " ++ t.name ++ bases t.bases ++
    indexComment c t.index ++ "\n"

def type (c : Config) (t : TypeDecl) : String :=
  "\n// Namespace: " ++ t.space ++ "\n" ++ (if c.attributes then t.attributeLines else "") ++
    header c t ++ "\x7b" ++ memberSection c.fields "Fields" field t.fields ++
    memberSection c.properties "Properties" property t.properties ++
    memberSection c.methods "Methods" (method c) t.methods ++ "\x7d\n"

def imageLine (o : Outcome) : String :=
  "// Image " ++ toString o.index ++ ": " ++ o.name ++ " - " ++ toString o.typeStart.toNat ++ "\n"

section

variable [Places]

def failure (f : Failure) : String :=
  "/*ERROR: Some errors in dumping image " ++ f.name ++ "\n" ++ f.error.message ++ "*/\n"

def image (c : Config) : Outcome → String
  | .assembled decl => String.join (decl.types.map (type c))
  | .failed f => failure f

def render (c : Config) (outcomes : List Outcome) : String :=
  String.join (outcomes.map imageLine) ++ String.join (outcomes.map (image c))

end

end MetadataDump.Dump.Text
