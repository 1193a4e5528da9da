import MetadataDump.Proofs.Assembly.Comparison
import MetadataDump.Proofs.Declaration.Groups

namespace MetadataDump

theorem lookup_congr {α : Type} {table : Table} {rows rows' : Array α} {i : Int}
    (h : 0 ≤ i → rows'[i.toNat]? = rows[i.toNat]?) :
    lookup table rows' i = lookup table rows i := by
  unfold lookup
  by_cases hneg : i < 0
  · rw [if_pos hneg, if_pos hneg]
  · rw [if_neg hneg, if_neg hneg, h (Int.not_lt.1 hneg)]

theorem ImageRow.mem_typeIndices_iff {r : ImageRow} {type : Nat} :
    type ∈ r.typeIndices ↔ r.typeStart.toNat ≤ type ∧ type < r.typeStop := by
  rw [typeIndices, typeStop, List.mem_range'_1]

namespace Metadata

open Assembly

/-- The same metadata with other types, fields and properties. -/
def withRows (m : Metadata) (typeDefs : Array TypeRow) (fields : Array FieldRow)
    (properties : Array PropertyRow) : Metadata :=
  ofSnapshot { m.toSnapshot with typeDefs, fields, properties }

def Owns (m : Metadata) (image : ImageRow) (range : TypeRow → RowRange) (position : Int) : Prop :=
  ∃ type ∈ image.typeIndices, ∃ row, m.typeDefs[type]? = some row ∧ position ∈ (range row).positions

/-- The types of the image are the same rows in both, and so is what they own. -/
structure AgreesOn (m : Metadata) (image : ImageRow) (n : Metadata) : Prop where
  typeDefs : ∀ type ∈ image.typeIndices, n.typeDefs[type]? = m.typeDefs[type]?
  fields : ∀ i : Nat, m.Owns image TypeRow.fieldRange i → n.fields[i]? = m.fields[i]?
  properties : ∀ i : Nat, m.Owns image TypeRow.propertyRange i →
    n.properties[i]? = m.properties[i]?

namespace AgreesOn

variable {m n : Metadata} {image : ImageRow} (h : m.AgreesOn image n)

include h

theorem typeDef_eq {type : Nat} (htype : type ∈ image.typeIndices) :
    n.typeDef type = m.typeDef type :=
  lookup_congr fun _ ↦ h.typeDefs type htype

theorem fieldDef_eq {position : Int} (hp : m.Owns image TypeRow.fieldRange position) :
    n.fieldDef position = m.fieldDef position :=
  lookup_congr fun hnonneg ↦ h.fields _ (by rwa [Int.toNat_of_nonneg hnonneg])

theorem propertyDef_eq {position : Int} (hp : m.Owns image TypeRow.propertyRange position) :
    n.propertyDef position = m.propertyDef position :=
  lookup_congr fun hnonneg ↦ h.properties _ (by rwa [Int.toNat_of_nonneg hnonneg])

theorem checkTypes_eq : n.checkTypes image = m.checkTypes image := by
  unfold checkTypes
  split
  · rfl
  · rename_i hcount
    have hpos : 0 < image.typeCount.toNat := by
      have hne : image.typeCount.toNat ≠ 0 := fun he ↦ hcount (UInt32.toNat_inj.1 he)
      omega
    have hlast : image.typeStop - 1 ∈ image.typeIndices := by
      rw [ImageRow.mem_typeIndices_iff, ImageRow.typeStop]
      omega
    rw [h.typeDef_eq hlast]

end AgreesOn

variable {m : Metadata} {typeDefs : Array TypeRow} {fields : Array FieldRow}
  {properties : Array PropertyRow} {c : Config} {image : ImageRow}

theorem attributeIndex?_withRows (index : Int32) (token : UInt32) :
    (m.withRows typeDefs fields properties).attributeIndex? image index token =
      m.attributeIndex? image index token := by
  unfold attributeIndex?
  rw [m.index_eq]
  rfl

theorem genericGroups_withRows (method : Nat) :
    (m.withRows typeDefs fields properties).genericGroups method = m.genericGroups method := by
  apply genericGroups_congr
  · rfl
  · intro pointer
    rfl

theorem typeDefName_withRows {type : Nat} {row : TypeRow} (hrow : m.typeDef type = .ok row)
    (htype : (m.withRows typeDefs fields properties).typeDef type = m.typeDef type) :
    (m.withRows typeDefs fields properties).typeDefName type false true =
      m.typeDefName type false true := by
  rw [Snapshot.typeDefName_of_typeDef (htype.trans hrow), Snapshot.typeDefName_of_typeDef hrow]
  rfl

section

variable (hc : c.attributes = true → m.version.major < 29) [Places]

include hc

/-- Attributes that are data name constructors and members of types anywhere, which may be damaged.
Generated ones do not. -/
theorem shownAttributes_withRows (index : Int32) (token : UInt32) (indent : String) :
    (m.withRows typeDefs fields properties).shownAttributes c image index token indent =
      m.shownAttributes c image index token indent := by
  unfold shownAttributes
  split
  · rename_i hshown
    have hdata : m.version.hasAttributeData = false :=
      decide_eq_false (UInt32.not_le.2 (hc hshown))
    have hversion : (m.withRows typeDefs fields properties).version = m.version := rfl
    unfold attributeLines
    rw [attributeIndex?_withRows, hversion, AttributeScheme.ofVersion?, hdata]
    cases m.version.hasAttributes <;> cases m.attributeIndex? image index token <;> rfl
  · rfl

variable (h : m.AgreesOn image (m.withRows typeDefs fields properties))

include h

theorem assembleField_withRows (type : Nat) (owner : TypeRow) {position : Int}
    (hp : m.Owns image TypeRow.fieldRange position) :
    (liftM ((m.withRows typeDefs fields properties).assembleField c image type owner position) :
        Assembly FieldDecl) = liftM (m.assembleField c image type owner position) := by
  unfold assembleField
  simp only [shownAttributes_withRows hc, h.fieldDef_eq hp]
  rfl

theorem assembleProperty_withRows (owner : TypeRow) {position : Int}
    (hp : m.Owns image TypeRow.propertyRange position) :
    (m.withRows typeDefs fields properties).assembleProperty c image owner position =
      m.assembleProperty c image owner position := by
  unfold assembleProperty
  simp only [shownAttributes_withRows hc, h.propertyDef_eq hp]
  rfl

omit h in
theorem assembleMethod_withRows (imageName : String) (position : Int) :
    (m.withRows typeDefs fields properties).assembleMethod c image imageName position =
      m.assembleMethod c image imageName position := by
  unfold assembleMethod
  simp only [shownAttributes_withRows hc, genericGroups_withRows]
  rfl

theorem assembleType_withRows (imageName : String) {type : Nat}
    (htype : type ∈ image.typeIndices) :
    (m.withRows typeDefs fields properties).assembleType c image imageName type =
      m.assembleType c image imageName type := by
  unfold assembleType
  rw [h.typeDef_eq htype]
  refine lift_bind_congr fun row hrow ↦ ?_
  have howns : ∀ range position, position ∈ (range row).positions → m.Owns image range position :=
    fun range position hp ↦ ⟨type, htype, row, (lookup_eq_ok_iff.1 hrow).2, hp⟩
  rw [shownAttributes_withRows hc, typeDefName_withRows hrow (h.typeDef_eq htype),
    members_congr _ fun position hp ↦ assembleField_withRows hc h type row (howns _ position hp),
    members_congr _ fun position hp ↦ assembleProperty_withRows hc h row (howns _ position hp),
    members_congr _ fun position _ ↦ assembleMethod_withRows hc imageName position]
  rfl

/-- An image is assembled by the same computation whatever the rows are that it does not own. -/
theorem assembleImage_withRows (index : Nat) :
    (m.withRows typeDefs fields properties).assembleImage c index image =
      m.assembleImage c index image := by
  unfold assembleImage
  rw [h.checkTypes_eq]
  refine bind_congr fun name ↦ bind_congr fun _ ↦ ?_
  rw [mapM_congr fun type htype ↦ assembleType_withRows hc h name htype]

end

end Metadata

end MetadataDump
