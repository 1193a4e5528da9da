import MetadataDump.Decimal.Layout
import MetadataDump.Text.Quoted

namespace MetadataDump

/-- An argument of a custom attribute. Floating-point numbers are given by their bits. -/
inductive Argument
  | null
  | bool (b : Bool)
  | char (unit : UInt16)
  | i1 (n : Int8)
  | u1 (n : UInt8)
  | i2 (n : Int16)
  | u2 (n : UInt16)
  | i4 (n : Int32)
  | u4 (n : UInt32)
  | i8 (n : Int64)
  | u8 (n : UInt64)
  | r4 (bits : UInt32)
  | r8 (bits : UInt64)
  | string (s : String)
  /-- A type, by its printable name. -/
  | type (name : String)
  | array (elements : List Argument)
  /-- A value of an enum type. -/
  | enumeration (name : String) (value : Argument)
  deriving Inhabited

structure NamedArgument where
  name : String
  value : Argument

structure Attribute where
  typeName : String
  fixed : List Argument
  named : List NamedArgument

namespace Argument

mutual

def text : Argument → String
  | .null => "null"
  | .bool b => if b then "true" else "false"
  | .char unit => Text.Quoted.charLiteral unit
  | .i1 n => toString n.toInt
  | .u1 n => toString n.toNat
  | .i2 n => toString n.toInt
  | .u2 n => toString n.toNat
  | .i4 n => toString n.toInt
  | .u4 n => toString n.toNat
  | .i8 n => toString n.toInt
  | .u8 n => toString n.toNat
  | .r4 bits => Decimal.plain.text Decimal.binary32 bits.toNat
  | .r8 bits => Decimal.plain.text Decimal.binary64 bits.toNat
  | .string s => Text.Quoted.quote s
  | .type name => "typeof(" ++ name ++ ")"
  | .array elements => "new[] \x7b " ++ ", ".intercalate (texts elements) ++ " \x7d"
  | .enumeration name value => "(" ++ name ++ ")" ++ text value

def texts : List Argument → List String
  | [] => []
  | a :: as => text a :: texts as

end

end Argument

def NamedArgument.text (a : NamedArgument) : String := a.name ++ " = " ++ a.value.text

namespace Attribute

def arguments (a : Attribute) : List String :=
  Argument.texts a.fixed ++ a.named.map NamedArgument.text

def text (a : Attribute) : String :=
  "[" ++ a.typeName ++
    (if a.arguments.isEmpty then "" else "(" ++ ", ".intercalate a.arguments ++ ")") ++ "]"

end Attribute

end MetadataDump
