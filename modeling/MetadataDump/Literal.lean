import MetadataDump.Json.Codec
import MetadataDump.Text.Quoted

namespace MetadataDump

inductive DefaultValue
  | string (s : String)
  | char (unit : UInt16)
  | bool (b : Bool)
  | int (n : Int64)
  | uint (n : UInt64)
  /-- A 64-bit floating-point number, as its bits. -/
  | float (bits : UInt64)
  | null
  /-- A value that is there but could not be decoded. -/
  | unresolved (offset : UInt32)
  deriving DecidableEq, Repr

inductive Literal
  | value (text : String)
  | unresolved (offset : UInt32)
  deriving DecidableEq, Repr

namespace DefaultValue

def literal : DefaultValue → Literal
  | .string s => .value (Text.Quoted.quote s)
  | .char unit => .value (Text.Quoted.charLiteral unit)
  | .bool b => .value (if b then "true" else "false")
  | .int n => .value (toString n.toInt)
  | .uint n => .value (toString n.toNat)
  | .float bits => .value (Decimal.plain.text Decimal.binary64 bits.toNat)
  | .null => .value "null"
  | .unresolved offset => .unresolved offset

def kind : DefaultValue → String
  | .string _ => "string"
  | .char _ => "char"
  | .bool _ => "bool"
  | .int _ => "int"
  | .uint _ => "uint"
  | .float _ => "float"
  | .null => "null"
  | .unresolved _ => "unresolved"

def content? : DefaultValue → Option Json
  | .string s => some (Json.encode s)
  | .char unit => some (Json.encode unit)
  | .bool b => some (Json.encode b)
  | .int n => some (Json.encode n)
  | .uint n => some (Json.encode n)
  | .float bits => some (.number (Numeral.ofBinary64 bits))
  | .null => none
  | .unresolved offset => some (Json.encode offset)

def float? : Json → Option UInt64
  | .number n => n.toBinary64?
  | _ => none

def ofContent? (kind : String) (content : Json) : Option DefaultValue :=
  match kind with
  | "string" => .string <$> Json.decode? content
  | "char" => .char <$> Json.decode? content
  | "bool" => .bool <$> Json.decode? content
  | "int" => .int <$> Json.decode? content
  | "uint" => .uint <$> Json.decode? content
  | "float" => .float <$> float? content
  | "null" => match content with
    | .null => some .null
    | _ => none
  | "unresolved" => .unresolved <$> Json.decode? content
  | _ => none

/-- In an object, a kind is written as its name, or as an object with that name alone and `null`. -/
def kind? : Json → Option String
  | .string kind => some kind
  | .object [(kind, .null)] => some kind.text
  | _ => none

/-- Reads an object of kind and value, where only `null` may lack the value, or the pair of both. -/
def ofJson? : Json → Option DefaultValue
  | .object members => do
    let kind ← (← Json.single? members "kind") >>= kind?
    match ← Json.single? members "value" with
    | some content => ofContent? kind content
    | none => if kind = "null" then some .null else none
  | .array [kind, content] => do ofContent? (← Json.decode? kind) content
  | _ => none

instance : Json.Codec DefaultValue where
  encode v := .object
    (("kind", .string v.kind) :: (v.content?.map fun content ↦ (↑"value", content)).toList)
  decode? := ofJson?

end DefaultValue

namespace Literal

def unresolvedText (offset : UInt32) : String :=
  "/*Metadata offset 0x" ++ Text.upperHex offset.toNat ++ "*/"

def text : Literal → String
  | .value text => text
  | .unresolved offset => unresolvedText offset

/-- What follows the name of a member in its declaration. -/
def suffix : Literal → String
  | .value text => " = " ++ text
  | .unresolved offset => " " ++ unresolvedText offset

end Literal

end MetadataDump
