import MetadataDump.Declaration.Keyword
import MetadataDump.Literal
import MetadataDump.Snapshot.Queries

namespace MetadataDump

structure FieldDecl where
  /-- Attribute lines. -/
  attributes : String
  modifiers : List Modifier
  isConst : Bool
  typeName : String
  name : String
  default : Option Literal
  offset : Option Int32
  deriving DecidableEq, Repr

structure Accessor where
  method : Nat
  modifiers : List Modifier
  typeName : String
  deriving DecidableEq, Repr

structure PropertyDecl where
  attributes : String
  name : String
  getter : Option Accessor
  setter : Option Accessor
  deriving DecidableEq, Repr

namespace PropertyDecl

/-- The accessor that tells the type and modifiers of the property. -/
def primary (p : PropertyDecl) : Option Accessor := p.getter <|> p.setter

def accessorNames (p : PropertyDecl) : List String :=
  (p.getter.map fun _ ↦ "get").toList ++ (p.setter.map fun _ ↦ "set").toList

end PropertyDecl

structure ParameterDecl where
  direction : Direction
  typeName : String
  name : String
  default : Option Literal
  deriving DecidableEq, Repr

structure Instantiation where
  typeName : String
  methodName : String
  deriving DecidableEq, Repr

/-- The specializations that share the code at a pointer, which is 0 if their code is not known. -/
structure GenericGroup where
  pointer : UInt64
  address : Option Address
  instances : List Instantiation
  deriving DecidableEq, Repr

structure MethodDecl where
  index : Nat
  attributes : String
  modifiers : List Modifier
  returnsByRef : Bool
  returnType : String
  name : String
  parameters : List ParameterDecl
  isAbstract : Bool
  address : Option Address
  slot : Option UInt16
  generics : List GenericGroup
  deriving DecidableEq, Repr

structure TypeDecl where
  index : Nat
  space : String
  name : String
  category : Category
  access : Access
  modifier : Option Modifier
  /-- The parent, if it is shown, and the interfaces. -/
  bases : List String
  attributes : String
  isSerializable : Bool
  fields : List FieldDecl
  properties : List PropertyDecl
  methods : List MethodDecl
  deriving DecidableEq, Repr

namespace TypeDecl

def headerModifiers (t : TypeDecl) : List Modifier := .access t.access :: t.modifier.toList

def attributeLines (t : TypeDecl) : String :=
  t.attributes ++ if t.isSerializable then "[Serializable]\n" else ""

end TypeDecl

structure ImageDecl where
  index : Nat
  name : String
  typeStart : UInt32
  types : List TypeDecl
  deriving DecidableEq, Repr

/-- An image that could not be assembled; its name is empty if it is not known. -/
structure Failure where
  index : Nat
  name : String
  typeStart : UInt32
  error : Error
  deriving DecidableEq, Repr

inductive Outcome
  | assembled (image : ImageDecl)
  | failed (failure : Failure)
  deriving DecidableEq, Repr

namespace Outcome

def index : Outcome → Nat
  | .assembled image => image.index
  | .failed failure => failure.index

def name : Outcome → String
  | .assembled image => image.name
  | .failed failure => failure.name

def typeStart : Outcome → UInt32
  | .assembled image => image.typeStart
  | .failed failure => failure.typeStart

def isFailed : Outcome → Bool
  | .assembled _ => false
  | .failed _ => true

end Outcome

end MetadataDump
