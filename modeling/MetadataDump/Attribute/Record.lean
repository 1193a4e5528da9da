import MetadataDump.Attribute.Value

/-!
Attribute data: the number of records, the constructor of each as a method index, and the records.
Constructors and records are read with a position of their own each.

A record is three counts, of constructor arguments, field assignments and property assignments, and
then these. An assignment is a value and a member, which is a position among the members of the
attribute type or, as `-(position + 1)`, among those of the type whose index follows.
-/

namespace MetadataDump

/-- The attribute name of a type: its own name without the word `Attribute`. `skip` characters of an
occurrence are still to be passed over. -/
def eraseWord (word : List Char) (skip : Nat) : List Char → List Char
  | [] => []
  | c :: cs =>
    match skip with
    | k + 1 => eraseWord word k cs
    | 0 =>
      if word.isPrefixOf (c :: cs) then eraseWord word (word.length - 1) cs
      else c :: eraseWord word 0 cs

def attributeName (typeName : String) : String :=
  String.ofList (eraseWord "Attribute".toList 0 typeName.toList)

structure RecordArguments where
  fixed : List Argument
  named : List NamedArgument

namespace Reader

/-- The type that declares a member, and the position of the member. -/
def member (s : Snapshot) (owner : TypeRow) : Reader (TypeRow × Nat) := do
  let position ← compressedInt
  if 0 ≤ position then
    return (owner, position.toInt.toNat)
  else
    let declaring ← compressedUInt
    return (← lift (s.typeDef declaring.toNat), (-(position.toInt + 1)).toNat)

def memberIndex (start : Int32) (position : Nat) : Except Error Nat :=
  if start < 0 then .error (.malformed (.memberBeforeTable start position))
  else .ok (start.toInt.toNat + position)

def fieldName (s : Snapshot) (declaring : TypeRow) (position : Nat) : Except Error String := do
  let row ← s.fieldDef (← memberIndex declaring.fieldStart position)
  s.text row.nameIndex

def propertyName (s : Snapshot) (declaring : TypeRow) (position : Nat) : Except Error String := do
  let row ← s.propertyDef (← memberIndex declaring.propertyStart position)
  s.text row.nameIndex

def assignment (s : Snapshot) (name : TypeRow → Nat → Except Error String) (owner : TypeRow) :
    Reader NamedArgument := do
  let value ← value s 0
  let (declaring, position) ← member s owner
  return ⟨← lift (name declaring position), value⟩

def recordArguments (s : Snapshot) (owner : TypeRow) : Reader RecordArguments := do
  let fixedCount ← compressedUInt
  let fieldCount ← compressedUInt
  let propertyCount ← compressedUInt
  let fixed ← times (value s 0) fixedCount.toNat
  let fields ← times (assignment s (fieldName s) owner) fieldCount.toNat
  let properties ← times (assignment s (propertyName s) owner) propertyCount.toNat
  return ⟨fixed, fields ++ properties⟩

end Reader

/-- Attribute data with the positions of the next constructor and of the next record. -/
structure RecordReader where
  bytes : ByteArray
  count : UInt32
  constructorPos : Nat
  recordPos : Nat

namespace RecordReader

/-- Reads the header of attribute data. All constructors must be there. -/
def ofBytes (bytes : ByteArray) : Except Error RecordReader :=
  match Reader.compressedUInt (Cursor.ofBytes bytes) with
  | .error e _ => .error e
  | .ok count c =>
    let recordPos := c.pos + 4 * count.toNat
    if recordPos ≤ bytes.size then .ok ⟨bytes, count, c.pos, recordPos⟩
    else .error (.malformed (.constructorTable count.toNat bytes.size))

def readAt {α : Type} (pos : Nat) (read : Reader α) : EStateM Error RecordReader (α × Nat) :=
  fun r ↦
    match read ⟨r.bytes, pos⟩ with
    | .ok a c => .ok (a, c.pos) r
    | .error e _ => .error e r

def lift {α : Type} : Except Error α → EStateM Error RecordReader α
  | .ok a => pure a
  | .error e => throw e

def attributeType (s : Snapshot) (constructorIndex : Int32) : Except Error TypeRow := do
  if constructorIndex < 0 then throw (.malformed (.negativeConstructor constructorIndex))
  let method ← s.methodDef constructorIndex.toInt
  s.typeDef method.declaringType.toNat

/-- The next attribute. A constructor counts as read once its index is known, a record once all of
its values are. -/
def next (s : Snapshot) : EStateM Error RecordReader Attribute := do
  let (index, constructorPos) ← readAt (← get).constructorPos Reader.i32
  modify ({ · with constructorPos })
  let type ← lift (attributeType s index)
  let (values, recordPos) ← readAt (← get).recordPos (Reader.recordArguments s type)
  modify ({ · with recordPos })
  let name ← lift (s.text type.nameIndex)
  return ⟨attributeName name, values.fixed, values.named⟩

end RecordReader

end MetadataDump
