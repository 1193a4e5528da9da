import MetadataDump.Error

namespace MetadataDump

structure Cursor where
  bytes : ByteArray
  pos : Nat

/-- A computation that moves a cursor, also when it fails. -/
abbrev Reader := EStateM Error Cursor

namespace Cursor

def ofBytes (bytes : ByteArray) : Cursor := ⟨bytes, 0⟩

def rest (c : Cursor) : List UInt8 := c.bytes.data.toList.drop c.pos

def hasMore (c : Cursor) : Bool := c.pos < c.bytes.size

end Cursor

/-- The natural number whose bytes are given, the least significant first. -/
def littleEndian : List UInt8 → Nat
  | [] => 0
  | b :: bs => b.toNat + 256 * littleEndian bs

namespace Reader

/-- Moves to a position, which may be the end of the bytes but not beyond. -/
def seek (pos : Nat) : Reader Unit := do
  let c ← get
  if pos ≤ c.bytes.size then set { c with pos } else throw (.outOfBounds .seek)

def take (check : Check) (n : Nat) : Reader ByteArray := do
  let c ← get
  if c.pos + n ≤ c.bytes.size then
    set { c with pos := c.pos + n }
    return c.bytes.extract c.pos (c.pos + n)
  else
    throw (.outOfBounds check)

def nat (n : Nat) : Reader Nat := do
  let bytes ← take .number n
  return littleEndian bytes.data.toList

def u8 : Reader UInt8 := UInt8.ofNat <$> nat 1
def u16 : Reader UInt16 := UInt16.ofNat <$> nat 2
def u32 : Reader UInt32 := UInt32.ofNat <$> nat 4
def u64 : Reader UInt64 := UInt64.ofNat <$> nat 8
def i8 : Reader Int8 := UInt8.toInt8 <$> u8
def i16 : Reader Int16 := UInt16.toInt16 <$> u16
def i32 : Reader Int32 := UInt32.toInt32 <$> u32
def i64 : Reader Int64 := UInt64.toInt64 <$> u64

/-- The text that the next `n` bytes spell. Ill-formed text is passed over before it is reported. -/
def text (n : Nat) : Reader String := do
  let start := (← get).pos
  let bytes ← take .bytes n
  match Text.Utf8.decode bytes with
  | .ok s => return s
  | .error fault => throw (.malformed (.invalidText start (start + n) fault))

end Reader

/-- Reads one value at `offset`. The new offset is the old one if the read fails. -/
def readAt {α : Type} (read : Reader α) (bytes : ByteArray) (offset : Nat) :
    Except Error α × Nat :=
  match read ⟨bytes, offset⟩ with
  | .ok a c => (.ok a, c.pos)
  | .error e c => (.error e, c.pos)

end MetadataDump
