import MetadataDump.Snapshot.Rows

namespace MetadataDump

inductive Access
  | everywhere | declaringType | family | assembly | familyOrAssembly
  deriving DecidableEq, Repr

def Access.keyword : Access → String
  | .everywhere => "public"
  | .declaringType => "private"
  | .family => "protected"
  | .assembly => "internal"
  | .familyOrAssembly => "protected internal"

inductive Modifier
  | access (a : Access)
  | isStatic | isAbstract | isSealed | isVirtual | isOverride | sealedOverride | external
  | constant | readOnly
  deriving DecidableEq, Repr

def Modifier.keyword : Modifier → String
  | .access a => a.keyword
  | .isStatic => "static"
  | .isAbstract => "abstract"
  | .isSealed => "sealed"
  | .isVirtual => "virtual"
  | .isOverride => "override"
  | .sealedOverride => "sealed override"
  | .external => "extern"
  | .constant => "const"
  | .readOnly => "readonly"

inductive Category
  | reference | value | interface | enumeration
  deriving DecidableEq, Repr

def Category.keyword : Category → String
  | .reference => "class"
  | .value => "struct"
  | .interface => "interface"
  | .enumeration => "enum"

/-- How a parameter is passed. Parameters passed by value may be marked for marshaling. -/
inductive Direction
  | plain | ref | outRef | inRef | marshalIn | marshalOut | marshalInOut
  deriving DecidableEq, Repr

namespace Direction

def keyword : Direction → String
  | .plain => ""
  | .ref => "ref"
  | .outRef => "out"
  | .inRef => "in"
  | .marshalIn => "[In]"
  | .marshalOut => "[Out]"
  | .marshalInOut => "[In] [Out]"

def ofReference (r : TypeReference) : Direction :=
  let isIn := r.attrs &&& 0x1 ≠ 0
  let isOut := r.attrs &&& 0x2 ≠ 0
  match r.byref, decide isIn, decide isOut with
  | true, false, true => .outRef
  | true, true, false => .inRef
  | true, _, _ => .ref
  | false, true, true => .marshalInOut
  | false, true, false => .marshalIn
  | false, false, true => .marshalOut
  | false, false, false => .plain

end Direction

end MetadataDump
