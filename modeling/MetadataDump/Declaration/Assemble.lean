import MetadataDump.Attribute.Scheme
import MetadataDump.Config
import MetadataDump.Declaration.Assembly
import MetadataDump.Declaration.Generic

namespace MetadataDump

/-- A default value is shown if it has data. -/
def Snapshot.literal? (s : Snapshot) (row : Option DefaultRow) : Option Literal :=
  (row.filter (·.dataIndex ≠ -1)).map fun row ↦ (s.defaultValue row.dataIndex).literal

namespace Metadata

variable [Places]

def shownAttributes (m : Metadata) (c : Config) (image : ImageRow) (index : Int32) (token : UInt32)
    (indent : String) : Except Error String :=
  if c.attributes then m.attributeLines image index token indent else .ok ""

def rootName : String := "object"

/-- The parent of a class, unless it is the root of all classes. The parent of any other type is not
shown, but must exist. -/
def parentNames (m : Metadata) (row : TypeRow) : Except Error (List String) :=
  if row.parentIndex < 0 then .ok []
  else do
    let parent ← m.typeName row.parentIndex
    return if !row.isValueType && !row.isEnum && parent != rootName then [parent] else []

def interfaceName (m : Metadata) (position : Int) : Except Error String := do
  m.typeName (← m.interfaceIndex position)

def baseNames (m : Metadata) (row : TypeRow) : Except Error (List String) := do
  let parents ← m.parentNames row
  return parents ++ (← row.interfaceRange.positions.mapM m.interfaceName)

def assembleField (m : Metadata) (c : Config) (image : ImageRow) (type : Nat) (owner : TypeRow)
    (position : Int) : Except Error FieldDecl := do
  let row ← m.fieldDef position
  let reference ← m.typeReference row.typeIndex
  let attributes ← m.shownAttributes c image row.customAttributeIndex row.token "\t"
  let header := Flags.fieldHeader reference.attrs.toUInt32
  let typeName ← m.typeName row.typeIndex
  let name ← m.text row.nameIndex
  return {
    attributes
    modifiers := header.modifiers
    isConst := header.isConst
    typeName
    name
    default := m.literal? (m.fieldDefault? position.toNat)
    offset :=
      if c.fieldOffsets && !header.isConst then
        some (m.fieldOffset type (position - owner.fieldStart.toInt).toNat owner.isValueType
          header.isStatic)
      else none }

/-- The type that an accessor shows: a getter its return type, a setter that of its first
parameter. -/
def accessorType (m : Metadata) (method : MethodRow) (isSetter : Bool) : Except Error Int32 :=
  if isSetter then ParameterRow.typeIndex <$> m.parameterDef method.parameterStart.toInt
  else .ok method.returnType

/-- An accessor of a property, counted from the first method of the owner; negative if absent. -/
def assembleAccessor (m : Metadata) (owner : TypeRow) (relative : Int32) (isSetter : Bool) :
    Assembly (Option Accessor) :=
  if relative < 0 then return none
  else do
    let position := owner.methodStart.toInt + relative.toInt
    let method ← m.methodDef position
    let typeIndex ← m.accessorType method isSetter
    let modifiers ← Assembly.modifiers position.toNat method.flags.toUInt32
    let typeName ← m.typeName typeIndex
    return some ⟨position.toNat, modifiers, typeName⟩

def assembleProperty (m : Metadata) (c : Config) (image : ImageRow) (owner : TypeRow)
    (position : Int) : Assembly PropertyDecl := do
  let row ← m.propertyDef position
  let attributes ← m.shownAttributes c image row.customAttributeIndex row.token "\t"
  let name ← m.text row.nameIndex
  let getter ← m.assembleAccessor owner row.get false
  let setter ← m.assembleAccessor owner row.set true
  return ⟨attributes, name, getter, setter⟩

def assembleParameter (m : Metadata) (position : Int) : Except Error ParameterDecl := do
  let row ← m.parameterDef position
  let reference ← m.typeReference row.typeIndex
  let typeName ← m.typeName row.typeIndex
  let name ← m.text row.nameIndex
  return ⟨.ofReference reference, typeName, name,
    m.literal? (m.parameterDefault? position.toNat)⟩

def assembleParameters (m : Metadata) (row : MethodRow) : Except Error (List ParameterDecl) :=
  row.parameterRange.positions.mapM m.assembleParameter

def methodAddress? (m : Metadata) (imageName : String) (row : MethodRow) : Option Address :=
  if Flags.isAbstractMethod row.flags.toUInt32 then none
  else m.address? (m.methodPointer imageName row.token)

def assembleMethod (m : Metadata) (c : Config) (image : ImageRow) (imageName : String)
    (position : Int) : Assembly MethodDecl := do
  let row ← m.methodDef position
  let attributes ← m.shownAttributes c image row.customAttributeIndex row.token "\t"
  let name ← m.text row.nameIndex
  let generics ← m.genericSuffix row.genericContainerIndex
  let reference ← m.typeReference row.returnType
  let parameters ← m.assembleParameters row
  let modifiers ← Assembly.modifiers position.toNat row.flags.toUInt32
  let returnType ← m.typeName row.returnType
  return {
    index := position.toNat
    attributes
    modifiers
    returnsByRef := reference.byref
    returnType
    name := name ++ generics
    parameters
    isAbstract := Flags.isAbstractMethod row.flags.toUInt32
    address := if c.methodOffsets then m.methodAddress? imageName row else none
    slot := if c.methodOffsets then row.slot? else none
    generics := m.genericGroups position.toNat }

def members {α : Type} (isShown : Bool) (range : RowRange) (assemble : Int → Assembly α) :
    Assembly (List α) :=
  if isShown then range.positions.mapM assemble else return []

def assembleType (m : Metadata) (c : Config) (image : ImageRow) (imageName : String)
    (index : Nat) : Assembly TypeDecl := do
  let row ← m.typeDef index
  let bases ← m.baseNames row
  let space ← m.text row.namespaceIndex
  let attributes ← m.shownAttributes c image row.customAttributeIndex row.token ""
  let name ← m.typeDefName index false true
  let fields ← members c.fields row.fieldRange
    fun position ↦ liftM (m.assembleField c image index row position)
  let properties ← members c.properties row.propertyRange (m.assembleProperty c image row)
  let methods ← members c.methods row.methodRange (m.assembleMethod c image imageName)
  let header := Flags.typeHeader row.flags row.isValueType row.isEnum
  return {
    index
    space
    name
    category := header.category
    access := header.access
    modifier := header.modifier
    bases
    attributes
    isSerializable := c.attributes && Flags.isSerializable row.flags
    fields
    properties
    methods }

/-- The types of an image must all be there before any of them is assembled. -/
def checkTypes (m : Metadata) (image : ImageRow) : Except Error Unit :=
  if image.typeCount = 0 then .ok ()
  else do
    let _ ← m.typeDef (image.typeStop - 1 : Nat)

def assembleImage (m : Metadata) (c : Config) (index : Nat) (image : ImageRow) :
    Assembly ImageDecl := do
  let name ← m.text image.nameIndex
  m.checkTypes image
  let types ← image.typeIndices.mapM (m.assembleType c image name)
  return ⟨index, name, image.typeStart, types⟩

/-- What became of an image. The name of one that failed is given if it is known. -/
def outcome (m : Metadata) (index : Nat) (image : ImageRow) : Except Error ImageDecl → Outcome
  | .ok decl => .assembled decl
  | .error error =>
    .failed ⟨index, (m.text image.nameIndex).toOption.getD "", image.typeStart, error⟩

/-- Assembles images one after the other with one memo, the first of them at position `index`. -/
def assembleFrom (m : Metadata) (c : Config) (index : Nat) :
    List ImageRow → ModifierCache → List Outcome × ModifierCache
  | [], cache => ([], cache)
  | image :: images, cache =>
    let (result, cache) := (m.assembleImage c index image).run cache
    let (outcomes, cache) := assembleFrom m c (index + 1) images cache
    (m.outcome index image result :: outcomes, cache)

def assemble (m : Metadata) (c : Config) : List Outcome :=
  (m.assembleFrom c 0 m.images .empty).1

end Metadata

end MetadataDump
