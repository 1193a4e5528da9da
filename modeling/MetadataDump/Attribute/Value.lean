import MetadataDump.Attribute.Argument
import MetadataDump.Bytes.Compressed
import MetadataDump.Snapshot.Queries

/-!
Argument values in attribute data. A value is a type tag and its payload:

| tag      | payload                                                                  |
|----------|--------------------------------------------------------------------------|
| 02       | a byte, 0 for `false`                                                    |
| 03 to 0D | a character or number, little-endian; 08 and 09 are compressed           |
| 0E       | the length of a text, -1 for `null`, and its UTF-8 bytes                 |
| 1C       | a boxed value                                                            |
| 1D       | the length of an array, -1 for `null`, the element type, a byte that is  |
|          | 1 if every element has a type of its own, and the elements               |
| 55       | the index of an enum type, then as the underlying type of the enum       |
| FF       | the index of a type, -1 for `null`                                       |

Boxed values and arrays nest at most 64 levels deep.
-/

namespace MetadataDump

/-- The type in front of a value: a tag, and the name of the enum whose underlying tag it is. -/
structure ValueType where
  tag : UInt8
  enumeration : Option String
  deriving DecidableEq, Repr

def ValueType.wrap (t : ValueType) (value : Argument) : Argument :=
  match t.enumeration with
  | some name => .enumeration name value
  | none => value

def greatestDepth : Nat := 64

namespace Reader

/-- The outcome of a question, as a step that reads nothing. -/
def lift {α : Type} : Except Error α → Reader α
  | .ok a => pure a
  | .error e => throw e

def times {α : Type} (read : Reader α) : Nat → Reader (List α)
  | 0 => return []
  | n + 1 => do
    let a ← read
    let as ← times read n
    return a :: as

def valueType (s : Snapshot) : Reader ValueType := do
  let tag ← u8
  if tag = 0x55 then
    let index ← compressedInt
    let element ← lift (s.enumElement index)
    let name ← lift (s.typeName index)
    return ⟨element, some name⟩
  else
    return ⟨tag, none⟩

/-- A length in front of a text or array; -1 stands for no text or array. -/
def length? (invalid : Int32 → Damage) : Reader (Option Nat) := do
  let n ← compressedInt
  if n = -1 then return none
  else if n < 0 then throw (.malformed (invalid n))
  else return some n.toInt.toNat

/-- An element of an array. Its type is `t`, or stands in front of it if the array is flagged. -/
def arrayElement (s : Snapshot) (inner : ValueType → Reader Argument) (t : ValueType)
    (flag : UInt8) : Reader Argument :=
  if flag = 1 then (do inner (← valueType s)) else inner t

/-- The payload of a value with a tag, when `inner` reads a value of a type one level deeper. -/
def payload (s : Snapshot) (inner : ValueType → Reader Argument) (tag : UInt8) :
    Reader Argument :=
  match tag.toNat with
  | 0x02 => return .bool ((← u8) ≠ 0)
  | 0x03 => .char <$> u16
  | 0x04 => .i1 <$> i8
  | 0x05 => .u1 <$> u8
  | 0x06 => .i2 <$> i16
  | 0x07 => .u2 <$> u16
  | 0x08 => .i4 <$> compressedInt
  | 0x09 => .u4 <$> compressedUInt
  | 0x0A => .i8 <$> i64
  | 0x0B => .u8 <$> u64
  | 0x0C => .r4 <$> u32
  | 0x0D => .r8 <$> u64
  | 0x0E => do
    match ← length? .textLength with
    | none => return .null
    | some n => .string <$> text n
  | 0x1C => do inner (← valueType s)
  | 0x1D => do
    match ← length? .arrayLength with
    | none => return .null
    | some n =>
      let t ← valueType s
      let flag ← u8
      .array <$> times (arrayElement s inner t flag) n
  | 0xFF => do
    let index ← compressedInt
    if index = -1 then return .null else .type <$> lift (s.typeName index)
  | _ => throw (.malformed (.valueTag tag))

/-- A value of a type, with `room` levels left for it and the values in it. -/
def valueOf (s : Snapshot) : Nat → ValueType → Reader Argument
  | 0, _ => throw (.malformed (.tooDeep greatestDepth))
  | room + 1, t => t.wrap <$> payload s (valueOf s room) t.tag

def value (s : Snapshot) (depth : Nat) : Reader Argument := do
  valueOf s (greatestDepth - depth) (← valueType s)

end Reader

end MetadataDump
