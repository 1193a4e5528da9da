import MetadataDump.Bytes.Cursor

/-!
Compressed integers. The lead byte of an unsigned one tells its width:

| lead         | value                                   |
|--------------|-----------------------------------------|
| 00 to 7F     | the lead itself                         |
| 80 to BF     | 14 bits, the high 6 of them in the lead |
| C0 to DF     | 29 bits, the high 5 of them in the lead |
| F0           | the four bytes after it, little-endian  |
| FE, FF       | 2^32 - 2 and 2^32 - 1                   |

A signed one is an unsigned one whose lowest bit holds the sign.
-/

namespace MetadataDump

/-- The integer whose zig-zag code is `n`: even codes count up from 0, odd codes down from -1. -/
def ofZigZag (n : UInt32) : Int32 :=
  if n = 0xFFFFFFFF then
    Int32.minValue
  else
    let half := (n >>> 1).toInt32
    if n &&& 1 = 0 then half else -half - 1

namespace Reader

def compressedUInt : Reader UInt32 := do
  let lead ← u8
  if lead < 0x80 then
    return lead.toUInt32
  else if lead < 0xC0 then
    let low ← u8
    return UInt32.ofNat ((lead.toNat - 0x80) * 0x100 + low.toNat)
  else if lead < 0xE0 then
    let high ← u8
    let middle ← u8
    let low ← u8
    return UInt32.ofNat
      ((lead.toNat - 0xC0) * 0x1000000 + high.toNat * 0x10000 + middle.toNat * 0x100 + low.toNat)
  else if lead = 0xF0 then
    u32
  else if lead = 0xFE then
    return 0xFFFFFFFE
  else if lead = 0xFF then
    return 0xFFFFFFFF
  else
    throw (.malformed (.compressedLead lead))

def compressedInt : Reader Int32 := ofZigZag <$> compressedUInt

end Reader

end MetadataDump
