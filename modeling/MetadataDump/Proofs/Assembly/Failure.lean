import MetadataDump.Proofs.Assembly.References

namespace MetadataDump

open Assembly

namespace Snapshot

theorem exists_lookup_iff {α : Type} {table : Table} {rows : Array α} {i : Int} {p : α → Prop} :
    (∃ row, lookup table rows i = .ok row ∧ p row) ↔ HasRow rows i p := by
  simp only [lookup_eq_ok_iff, HasRow]

theorem forall_mem_positions_iff {range : RowRange} {p : Int → Prop} :
    (∀ position ∈ range.positions, p position) ↔ HasRange range p := by
  simp only [RowRange.mem_positions_iff, HasRange]
  exact ⟨fun h j hj ↦ h _ ⟨j, hj, rfl⟩, fun h _ ⟨j, hj, he⟩ ↦ he ▸ h j hj⟩

variable (s : Snapshot)

theorem succeeds_text_iff (i : UInt32) : Succeeds (s.text i) ↔ s.HasText i := by
  rw [text, succeeds_lookup_iff, InTable, HasText]
  omega

theorem succeeds_typeEntry_iff (i : Int32) : Succeeds (s.typeEntry i) ↔ s.HasType i :=
  succeeds_lookup_iff

theorem succeeds_typeReference_iff (i : Int32) : Succeeds (s.typeReference i) ↔ s.HasType i := by
  rw [typeReference, succeeds_map_iff, succeeds_typeEntry_iff]

theorem succeeds_typeName_iff (i : Int32) : Succeeds (s.typeName i) ↔ s.HasType i := by
  rw [typeName, succeeds_map_iff, succeeds_typeEntry_iff]

theorem succeeds_genericSuffix_iff (i : Int32) :
    Succeeds (s.genericSuffix i) ↔ s.HasContainerIfAny i := by
  rw [genericSuffix, succeeds_unless_absent_iff, genericParams, succeeds_map_iff,
    succeeds_lookup_iff]
  rfl

theorem attributeTypesOf_eq_ok_iff (i : Nat) (types : List Int32) :
    s.attributeTypesOf i = .ok types ↔ ∃ range, s.attributeTypeRanges[i]? = some range ∧
      range.start.toNat + range.count.toNat ≤ s.attributeTypes.length ∧
      (s.attributeTypes.drop range.start.toNat).take range.count.toNat = types := by
  unfold attributeTypesOf
  rw [bind_eq_ok_iff]
  refine exists_congr fun range ↦ and_congr ?_ ?_
  · rw [lookup_eq_ok_iff, RowAt, Int.toNat_natCast]
    exact and_iff_right (by omega)
  · by_cases h : range.start.toNat + range.count.toNat ≤ s.attributeTypes.length
    · simp [h, pure, Except.pure]
    · simp [h, throw, throwThe, MonadExceptOf.throw]

theorem forall_mem_part_iff {α : Type} {as : List α} {start count : Nat} {p : α → Prop}
    (h : start + count ≤ as.length) :
    (∀ a ∈ (as.drop start).take count, p a) ↔
      ∀ j < count, ∃ a, as[start + j]? = some a ∧ p a := by
  have hget : ∀ j < count, ((as.drop start).take count)[j]? = as[start + j]? := by
    intro j hj
    rw [List.getElem?_take_of_lt hj, List.getElem?_drop]
  constructor
  · intro hp j hj
    have ha := List.getElem?_eq_getElem (show start + j < as.length by omega)
    exact ⟨_, ha, hp _ (List.mem_of_getElem? ((hget j hj).trans ha))⟩
  · intro hp a ha
    obtain ⟨j, hj, rfl⟩ := List.mem_iff_getElem.1 ha
    have hlt : j < count := Nat.lt_of_lt_of_le hj (List.length_take_le _ _)
    obtain ⟨a, ha, hpa⟩ := hp j hlt
    rw [← hget j hlt, List.getElem?_eq_getElem hj] at ha
    exact Option.some.inj ha ▸ hpa

theorem succeeds_generatorLines_iff (i : Nat) (indent : String) :
    Succeeds (AttributeScheme.generatorLines s i indent) ↔
      ∃ range, s.attributeTypeRanges[i]? = some range ∧
        range.start.toNat + range.count.toNat ≤ s.attributeTypes.length ∧
        ∀ j < range.count.toNat, ∃ type,
          s.attributeTypes[range.start.toNat + j]? = some type ∧ s.HasType type := by
  unfold AttributeScheme.generatorLines
  simp only [succeeds_bind_iff, succeeds_pure, and_true, attributeTypesOf_eq_ok_iff]
  constructor
  · rintro ⟨types, ⟨range, hrange, hlen, rfl⟩, names⟩
    have htypes := succeeds_mapM_iff.1 names
    simp only [succeeds_typeName_iff] at htypes
    exact ⟨range, hrange, hlen, (forall_mem_part_iff hlen).1 htypes⟩
  · rintro ⟨range, hrange, hlen, htypes⟩
    refine ⟨_, ⟨range, hrange, hlen, rfl⟩, succeeds_mapM_iff.2 fun type htype ↦ ?_⟩
    exact (s.succeeds_typeName_iff type).2 ((forall_mem_part_iff hlen).2 htypes type htype)

end Snapshot

namespace Metadata

open Snapshot

variable (m : Metadata) (c : Config) (image : ImageRow)

theorem ofVersion?_eq_generator_iff (v : Version) :
    AttributeScheme.ofVersion? v = some .generator ↔ 21 ≤ v.major ∧ v.major < 29 := by
  rw [AttributeScheme.ofVersion?, Version.hasAttributes, Version.hasAttributeData, ← UInt32.not_le]
  by_cases h21 : 21 ≤ v.major <;> by_cases h29 : 29 ≤ v.major <;> simp [h21, h29]

/-- Only attributes that functions generate can fail a declaration. -/
theorem succeeds_shownAttributes_iff [Places] (index : Int32) (token : UInt32) (indent : String) :
    Succeeds (m.shownAttributes c image index token indent) ↔
      m.AttributesResolve c image index token := by
  have hgen := ofVersion?_eq_generator_iff m.version
  unfold shownAttributes AttributesResolve attributeLines
  rw [← and_imp (a := 21 ≤ m.version.major), ← hgen]
  by_cases hc : c.attributes = true
  · cases AttributeScheme.ofVersion? m.version with
    | none => simp [succeeds_ok]
    | some scheme =>
      cases m.attributeIndex? image index token with
      | none => simp [hc, succeeds_ok]
      | some i =>
        cases scheme with
        | data => simp [hc, AttributeScheme.lines, succeeds_ok]
        | generator => simp [hc, AttributeScheme.lines, succeeds_generatorLines_iff]
  · simp [hc, succeeds_ok]

theorem succeeds_parentNames_iff (row : TypeRow) :
    Succeeds (m.parentNames row) ↔ m.HasTypeIfAny row.parentIndex := by
  rw [parentNames, succeeds_unless_absent_iff,
    succeeds_bind_and_iff fun _ ↦ iff_true_intro (succeeds_pure _), succeeds_typeName_iff, and_true]
  rfl

theorem succeeds_baseNames_iff (row : TypeRow) :
    Succeeds (m.baseNames row) ↔ m.HasTypeIfAny row.parentIndex ∧
      HasRange row.interfaceRange fun position ↦ HasRow m.interfaceIndices position m.HasType := by
  unfold baseNames interfaceName interfaceIndex
  rw [succeeds_bind_and_iff fun _ ↦ succeeds_bind_and_iff fun _ ↦ iff_true_intro (succeeds_pure _),
    succeeds_parentNames_iff, succeeds_mapM_iff, and_true]
  simp only [succeeds_bind_iff, succeeds_typeName_iff, exists_lookup_iff, forall_mem_positions_iff]

theorem succeeds_assembleField_iff [Places] (type : Nat) (owner : TypeRow) (position : Int) :
    Succeeds (m.assembleField c image type owner position) ↔
      HasRow m.fields position (m.FieldResolves c image) := by
  unfold assembleField fieldDef
  rw [succeeds_bind_iff, ← exists_lookup_iff]
  refine exists_congr fun row ↦ and_congr_right fun _ ↦ ?_
  refine (succeeds_bind_and_iff fun _ ↦ succeeds_bind_and_iff fun _ ↦ succeeds_bind_and_iff
    fun _ ↦ succeeds_bind_and_iff fun _ ↦ iff_true_intro (succeeds_pure _)).trans ?_
  simp only [succeeds_typeReference_iff, succeeds_shownAttributes_iff, succeeds_typeName_iff,
    succeeds_text_iff, and_true]
  exact ⟨fun ⟨ht, ha, _, hn⟩ ↦ ⟨ht, hn, ha⟩, fun ⟨ht, hn, ha⟩ ↦ ⟨ht, ha, ht, hn⟩⟩

theorem succeeds_assembleParameters_iff (row : MethodRow) :
    Succeeds (m.assembleParameters row) ↔ HasRange row.parameterRange fun position ↦
      HasRow m.parameters position m.ParameterResolves := by
  unfold assembleParameters
  rw [succeeds_mapM_iff, ← forall_mem_positions_iff]
  refine forall₂_congr fun position _ ↦ ?_
  unfold assembleParameter parameterDef
  rw [succeeds_bind_iff, ← exists_lookup_iff]
  refine exists_congr fun row ↦ and_congr_right fun _ ↦ ?_
  refine (succeeds_bind_and_iff fun _ ↦ succeeds_bind_and_iff fun _ ↦ succeeds_bind_and_iff
    fun _ ↦ iff_true_intro (succeeds_pure _)).trans ?_
  simp only [succeeds_typeReference_iff, succeeds_typeName_iff, succeeds_text_iff, and_true]
  exact ⟨fun ⟨ht, _, hn⟩ ↦ ⟨ht, hn⟩, fun ⟨ht, hn⟩ ↦ ⟨ht, ht, hn⟩⟩

theorem succeeds_checkTypes_iff :
    Succeeds (m.checkTypes image) ↔ image.typeCount = 0 ∨
      image.typeStart.toNat + image.typeCount.toNat ≤ m.typeDefs.size := by
  unfold checkTypes
  have hcount : image.typeCount = 0 ↔ image.typeCount.toNat = 0 := UInt32.toNat_inj.symm
  by_cases h : image.typeCount = 0
  · simp [h, succeeds_ok]
  · have hpos := mt hcount.2 h
    rw [if_neg h, succeeds_bind_and_iff fun _ ↦ iff_true_intro (succeeds_pure _), and_true,
      or_iff_right h, typeDef, succeeds_lookup_iff, InTable, ImageRow.typeStop]
    omega

theorem succeeds_typeDefName_iff {index : Nat} {row : TypeRow} (h : m.typeDef index = .ok row) :
    Succeeds (m.typeDefName index false true) ↔
      m.HasText row.nameIndex ∧ m.HasContainerIfAny row.genericContainerIndex := by
  rw [typeDefName_of_typeDef h, succeeds_bind_and_iff fun _ ↦ succeeds_bind_and_iff fun _ ↦
    iff_true_intro (succeeds_pure _), succeeds_text_iff, succeeds_genericSuffix_iff, and_true]

theorem decides_assembleAccessor (owner : TypeRow) (relative : Int32) (isSetter : Bool) :
    (m.assembleAccessor owner relative isSetter).Decides
      (m.AccessorResolves owner relative fun method ↦
        ∃ type, m.accessorType method isSetter = .ok type ∧ m.HasType type) := by
  refine decides_unless_absent ?_
  refine (decides_lift_bind fun method _ ↦ decides_lift_bind (p := m.HasType) fun type _ ↦ ?_).iff
    exists_lookup_iff
  exact ((decides_modifiers _ _).bind fun _ ↦ (decides_lift _).bind fun _ ↦ decides_pure _).iff
    (by simp only [succeeds_typeName_iff, true_and, and_true])

theorem decides_assembleProperty [Places] (owner : TypeRow) (position : Int) :
    (m.assembleProperty c image owner position).Decides
      (HasRow m.properties position (m.PropertyResolves c image owner)) := by
  refine (decides_lift_bind (p := m.PropertyResolves c image owner) fun row _ ↦ ?_).iff
    exists_lookup_iff
  refine ((decides_lift _).bind fun _ ↦ (decides_lift _).bind fun _ ↦
    (m.decides_assembleAccessor owner row.get false).bind fun _ ↦
    (m.decides_assembleAccessor owner row.set true).bind fun _ ↦ decides_pure _).iff ?_
  have hget : ∀ method : MethodRow,
      (∃ type, m.accessorType method false = .ok type ∧ m.HasType type) ↔
        m.HasType method.returnType := by
    intro method
    simp [accessorType]
  have hset : ∀ method : MethodRow,
      (∃ type, m.accessorType method true = .ok type ∧ m.HasType type) ↔
        HasRow m.parameters method.parameterStart.toInt fun parameter ↦
          m.HasType parameter.typeIndex := by
    intro method
    simp only [accessorType, if_true, parameterDef, map_eq_ok_iff, lookup_eq_ok_iff, HasRow]
    constructor
    · rintro ⟨_, ⟨row, hrow, rfl⟩, h⟩
      exact ⟨row, hrow, h⟩
    · rintro ⟨row, hrow, h⟩
      exact ⟨_, ⟨row, hrow, rfl⟩, h⟩
  simp only [succeeds_shownAttributes_iff, succeeds_text_iff, hget, hset, and_true]
  exact ⟨fun ⟨ha, hn, hg, hs⟩ ↦ ⟨hn, hg, hs, ha⟩, fun ⟨hn, hg, hs, ha⟩ ↦ ⟨ha, hn, hg, hs⟩⟩

theorem decides_assembleMethod [Places] (imageName : String) (position : Int) :
    (m.assembleMethod c image imageName position).Decides
      (HasRow m.methods position (m.MethodResolves c image)) := by
  refine (decides_lift_bind (p := m.MethodResolves c image) fun row _ ↦ ?_).iff exists_lookup_iff
  refine ((decides_lift _).bind fun _ ↦ (decides_lift _).bind fun _ ↦ (decides_lift _).bind fun _ ↦
    (decides_lift _).bind fun _ ↦ (decides_lift _).bind fun _ ↦ (decides_modifiers _ _).bind
    fun _ ↦ (decides_lift _).bind fun _ ↦ decides_pure _).iff ?_
  simp only [succeeds_shownAttributes_iff, succeeds_text_iff, succeeds_genericSuffix_iff,
    succeeds_typeReference_iff, succeeds_assembleParameters_iff, succeeds_typeName_iff, true_and,
    and_true]
  exact ⟨fun ⟨ha, hn, hc, ht, hp, _⟩ ↦ ⟨hn, ht, hc, hp, ha⟩,
    fun ⟨hn, ht, hc, hp, ha⟩ ↦ ⟨ha, hn, hc, ht, hp, ht⟩⟩

theorem decides_members {α : Type} (isShown : Bool) (range : RowRange) {assemble : Int → Assembly α}
    {p : Int → Prop} (h : ∀ position, (assemble position).Decides (p position)) :
    (members isShown range assemble).Decides (isShown → HasRange range p) := by
  unfold members
  cases isShown with
  | false => exact (decides_pure []).iff (by simp)
  | true =>
    have hall : (∀ position ∈ range.positions, p position) ↔ (true → HasRange range p) :=
      forall_mem_positions_iff.trans ⟨fun hp _ ↦ hp, fun hp ↦ hp rfl⟩
    exact (decides_mapM h range.positions).iff hall

theorem decides_assembleType [Places] (imageName : String) (index : Nat) :
    (m.assembleType c image imageName index).Decides
      (HasRow m.typeDefs index (m.TypeResolves c image)) := by
  refine (decides_lift_bind (p := m.TypeResolves c image) fun row hrow ↦ ?_).iff exists_lookup_iff
  refine ((decides_lift _).bind fun _ ↦ (decides_lift _).bind fun _ ↦ (decides_lift _).bind fun _ ↦
    (decides_lift _).bind fun _ ↦
    (decides_members _ _ fun position ↦ decides_lift _).bind fun _ ↦
    (decides_members _ _ (m.decides_assembleProperty c image row)).bind fun _ ↦
    (decides_members _ _ (m.decides_assembleMethod c image imageName)).bind fun _ ↦
    decides_pure _).iff ?_
  simp only [succeeds_baseNames_iff, succeeds_text_iff, succeeds_shownAttributes_iff,
    m.succeeds_typeDefName_iff hrow, succeeds_assembleField_iff, and_true]
  constructor
  · rintro ⟨⟨hp, hi⟩, hs, ha, ⟨hn, hg⟩, hf, hpr, hm⟩
    exact ⟨hs, hn, hp, hi, hg, ha, hf, hpr, hm⟩
  · rintro ⟨hs, hn, hp, hi, hg, ha, hf, hpr, hm⟩
    exact ⟨⟨hp, hi⟩, hs, ha, ⟨hn, hg⟩, hf, hpr, hm⟩

/-- An image is assembled exactly when every reference that it needs has its row. -/
theorem assembleImage_succeeds_iff [Places] (index : Nat) (cache : ModifierCache) :
    (∃ decl, ((m.assembleImage c index image).run cache).1 = .ok decl) ↔
      m.ImageResolves c image := by
  have hdec : (m.assembleImage c index image).Decides (m.ImageResolves c image) := by
    refine ((decides_lift _).bind fun name ↦ (decides_lift _).bind fun _ ↦
      (decides_mapM (m.decides_assembleType c image name) _).bind fun _ ↦ decides_pure _).iff ?_
    simp only [succeeds_text_iff, succeeds_checkTypes_iff, and_true, ImageRow.typeIndices,
      List.mem_range'_1]
    constructor
    · rintro ⟨hn, hr, ht⟩
      exact ⟨hn, hr, fun j hj ↦ ht _ (by omega)⟩
    · rintro ⟨hn, hr, ht⟩
      refine ⟨hn, hr, fun i hi ↦ ?_⟩
      have h := ht (i - image.typeStart.toNat) (by omega)
      rwa [show image.typeStart.toNat + (i - image.typeStart.toNat) = i by omega] at h
  exact hdec.run cache

end Metadata

end MetadataDump
