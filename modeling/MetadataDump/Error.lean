import MetadataDump.Text.Hex
import MetadataDump.Text.Utf8

namespace MetadataDump

inductive Table
  | typeDefs | fields | properties | methods | parameters | interfaceIndices | strings | types
  | genericContainers | methodSpecs | attributeTypeRanges | attributeTypes | attributeDataRanges
  deriving DecidableEq, Repr

def Table.name : Table → String
  | .typeDefs => "type_defs"
  | .fields => "fields"
  | .properties => "properties"
  | .methods => "methods"
  | .parameters => "parameters"
  | .interfaceIndices => "interface_indices"
  | .strings => "strings"
  | .types => "types"
  | .genericContainers => "generic_containers"
  | .methodSpecs => "method_specs"
  | .attributeTypeRanges => "attribute_type_ranges"
  | .attributeTypes => "attribute_types"
  | .attributeDataRanges => "attribute_data_ranges"

inductive Damage
  | invalidText (start stop : Nat) (fault : Text.Utf8.Fault)
  | compressedLead (lead : UInt8)
  | invertedRange (start stop : UInt32)
  | notAnEnum (name : String)
  | constructorTable (count size : Nat)
  | negativeConstructor (index : Int32)
  | memberBeforeTable (start : Int32) (member : Nat)
  | tooDeep (levels : Nat)
  | textLength (length : Int32)
  | arrayLength (length : Int32)
  | valueTag (tag : UInt8)
  deriving DecidableEq, Repr

def Damage.message : Damage → String
  | .invalidText start stop fault =>
    "Invalid UTF-8 string at offset " ++ toString start ++ "-" ++ toString stop ++ ": " ++
      fault.message
  | .compressedLead lead => "Invalid compressed uint prefix - 0x" ++ Text.byteHex lead
  | .invertedRange start stop =>
    "Attribute data range is inverted - " ++ toString start.toNat ++ ".." ++ toString stop.toNat
  | .notAnEnum name => "Type '" ++ name ++ "' is not an enum"
  | .constructorTable count size =>
    "Attribute constructor table exceeds data - " ++ toString count ++ " entries in " ++
      toString size ++ " bytes"
  | .negativeConstructor index => "Invalid attribute constructor - " ++ toString index.toInt
  | .memberBeforeTable start member =>
    "Invalid named argument member - " ++ toString start.toInt ++ " + " ++ toString member
  | .tooDeep levels => "Attribute value nesting exceeds " ++ toString levels ++ " levels"
  | .textLength length => "Invalid string length - " ++ toString length.toInt
  | .arrayLength length => "Invalid array length - " ++ toString length.toInt
  | .valueTag tag => "Unsupported attribute value type - 0x" ++ Text.byteHex tag

/-- The checks that refuse a read past the end: of a position to go to, of a number, of some bytes,
and of a range of the attribute data. -/
inductive Check
  | seek | number | bytes | attributeData
  deriving DecidableEq, Repr

inductive Error
  | malformed (damage : Damage)
  /-- A read that would pass the end of the data. -/
  | outOfBounds (check : Check)
  /-- A reference to a row that its table does not have. -/
  | dangling (table : Table) (index : Int)
  /-- A file that cannot be read, created or written. -/
  | file
  /-- Text that is not the JSON of the expected value, or JSON that cannot be written. -/
  | json
  deriving DecidableEq, Repr

/-- A line of a program's own text. -/
structure Place where
  file : String
  line : Nat
  not_mem_file : '\n' ∉ file.toList := by decide

def Place.text (p : Place) : String := p.file ++ ":" ++ toString p.line

/-- Where a program finds damage and where its checks stand. It tells this with the errors, and it
depends on how the program was built: all that shows an error has it as a parameter. -/
class Places where
  damage : Damage → Place
  check : Check → Place

namespace Places

/-- The places of a program that does not know them. -/
scoped instance unknown : Places where
  damage _ := { file := "unknown", line := 0 }
  check _ := { file := "unknown", line := 0 }

end Places

def Error.message [Places] : Error → String
  | .malformed damage => "Malformed - " ++ (Places.damage damage).text ++ ": " ++ damage.message
  | .outOfBounds check =>
    "Out of Bound read would have occurred - " ++ (Places.check check).text
  | .dangling table index =>
    "Index " ++ toString index ++ " is out of range for table '" ++ table.name ++ "'"
  | .file => "File could not be read or written"
  | .json => "Invalid JSON"

end MetadataDump
