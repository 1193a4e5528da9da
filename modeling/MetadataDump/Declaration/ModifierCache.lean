import MetadataDump.Declaration.Flags
import Std.Data.ExtTreeMap

namespace MetadataDump

structure ModifierCache where
  entries : Std.ExtTreeMap Nat (List Modifier)

namespace ModifierCache

def empty : ModifierCache := ⟨∅⟩

def size (c : ModifierCache) : Nat := c.entries.size

def isEmpty (c : ModifierCache) : Bool := c.entries.isEmpty

/-- The modifiers of a method. They are decoded from `flags` when the method is first asked for. -/
def getOrDecode (c : ModifierCache) (method : Nat) (flags : UInt32) :
    List Modifier × ModifierCache :=
  match c.entries[method]? with
  | some found => (found, c)
  | none =>
    let decoded := Flags.methodModifiers flags
    (decoded, ⟨c.entries.insert method decoded⟩)

end ModifierCache

end MetadataDump
