import MetadataDump.Declaration.Keyword

namespace MetadataDump.Flags

def has (word mask : UInt32) : Bool := word &&& mask ≠ 0

structure TypeHeader where
  access : Access
  modifier : Option Modifier
  category : Category
  deriving DecidableEq, Repr

def typeAccess (word : UInt32) : Access :=
  match (word &&& 0x7).toNat with
  | 1 | 2 => .everywhere
  | 3 => .declaringType
  | 4 => .family
  | 7 => .familyOrAssembly
  | _ => .assembly

def isSerializable (word : UInt32) : Bool := has word 0x2000

def typeHeader (word : UInt32) (isValueType isEnum : Bool) : TypeHeader :=
  let isAbstract := has word 0x80
  let isSealed := has word 0x100
  let isInterface := has word 0x20
  { access := typeAccess word
    modifier :=
      if isAbstract && isSealed then some .isStatic
      else if !isInterface && isAbstract then some .isAbstract
      else if !isValueType && !isEnum && isSealed then some .isSealed
      else none
    category :=
      if isInterface then .interface
      else if isEnum then .enumeration
      else if isValueType then .value
      else .reference }

/-- The access of a field or method, unless only the compiler may use it. -/
def memberAccess? (word : UInt32) : Option Access :=
  match (word &&& 0x7).toNat with
  | 1 => some .declaringType
  | 2 | 3 => some .assembly
  | 4 => some .family
  | 5 => some .familyOrAssembly
  | 6 => some .everywhere
  | _ => none

/-- The modifiers of a field. A constant shows neither `static` nor `readonly`. -/
structure FieldHeader where
  access : Option Access
  storage : List Modifier
  isStatic : Bool
  isConst : Bool
  deriving DecidableEq, Repr

def fieldHeader (word : UInt32) : FieldHeader :=
  let isConst := has word 0x40
  let isStatic := !isConst && has word 0x10
  { access := memberAccess? word
    storage :=
      if isConst then [.constant]
      else (if isStatic then [.isStatic] else []) ++ if has word 0x20 then [.readOnly] else []
    isStatic
    isConst }

def FieldHeader.modifiers (h : FieldHeader) : List Modifier :=
  (h.access.map .access).toList ++ h.storage

def accessBits (word : UInt32) : UInt32 := word &&& 0x7

def slotBits (word : UInt32) : UInt32 := word &&& 0x100

/-- The known bits of a method that are neither access nor slot. -/
def modifierBits (word : UInt32) : UInt32 := word &&& 0x3EF0

def isAbstractMethod (word : UInt32) : Bool := has word 0x400

/-- The modifiers of a method. One that is final is never shown as virtual. -/
def methodModifiers (word : UInt32) : List Modifier :=
  let bits := modifierBits word
  let reusesSlot := slotBits word = 0
  ((memberAccess? word).map .access).toList ++
    (if has bits 0x10 then [.isStatic] else []) ++
    (if has bits 0x400 then
      .isAbstract :: if reusesSlot then [.isOverride] else []
    else if has bits 0x20 then
      if reusesSlot then [.sealedOverride] else []
    else if has bits 0x40 then
      [if reusesSlot then .isOverride else .isVirtual]
    else []) ++
    if has bits 0x2000 then [.external] else []

end MetadataDump.Flags
