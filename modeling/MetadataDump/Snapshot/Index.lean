import MetadataDump.Snapshot.Queries

namespace MetadataDump

section Positions

variable {κ α : Type} [Ord κ] [Std.TransOrd κ]

def addPosition (key : α → κ) (entry : α × Nat) (m : Std.ExtTreeMap κ (List Nat)) :
    Std.ExtTreeMap κ (List Nat) :=
  m.insert (key entry.1) (entry.2 :: m.getD (key entry.1) [])

def positionsBy (key : α → κ) (rows : Array α) : Std.ExtTreeMap κ (List Nat) :=
  rows.toList.zipIdx.foldr (addPosition key) ∅

end Positions

structure Index where
  specsByMethod : Std.ExtTreeMap Nat (List Nat)
  typeRangesByToken : Std.ExtTreeMap UInt32 (List Nat)
  dataRangesByToken : Std.ExtTreeMap UInt32 (List Nat)

def Snapshot.buildIndex (s : Snapshot) : Index where
  specsByMethod := positionsBy (·.method.toNat) s.methodSpecs
  typeRangesByToken := positionsBy AttributeTypeRange.token s.attributeTypeRanges
  dataRangesByToken := positionsBy AttributeDataRange.token s.attributeDataRanges

structure Metadata extends Snapshot where
  index : Index
  index_eq : index = toSnapshot.buildIndex

namespace Metadata

def ofSnapshot (s : Snapshot) : Metadata := ⟨s, s.buildIndex, rfl⟩

def specsOf (m : Metadata) (method : Nat) : List Nat :=
  m.index.specsByMethod.getD method []

/-- The attribute range of a declaration. Tokens repeat across images, so from version 24.1 on it is
the first range of the image that has the token; before, the declaration itself tells it. -/
def attributeIndex? (m : Metadata) (image : ImageRow) (index : Int32) (token : UInt32) :
    Option Nat :=
  if m.version.hasAttributeTokens then
    let start := image.customAttributeStart.toNat
    let stop := start + image.customAttributeCount.toNat
    let byToken :=
      if m.version.hasAttributeData then m.index.dataRangesByToken else m.index.typeRangesByToken
    (byToken.getD token []).find? fun i ↦ start ≤ i ∧ i < stop
  else if index < 0 then none
  else some index.toInt.toNat

end Metadata

end MetadataDump
