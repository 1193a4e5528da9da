import MetadataDump.Proofs.Declaration.Rows

namespace MetadataDump

namespace Metadata

open Assembly

variable (m : Metadata) (c : Config) (image : ImageRow) {answer : Nat → UInt32 → List Modifier}

theorem defaultShows_literal? (recorded : Option DefaultRow) :
    m.DefaultShows recorded (m.literal? recorded) := by
  intro literal
  simp only [Snapshot.literal?, Option.map_eq_some_iff, Option.filter_eq_some_iff,
    decide_eq_true_eq, and_assoc]
  exact exists_congr fun value ↦ and_congr_right fun _ ↦ and_congr_right fun _ ↦ eq_comm

theorem fieldShows_of_assembleField [Places] {type : Nat} {owner : TypeRow} {j : Nat}
    {f : FieldDecl}
    (h : m.assembleField c image type owner (owner.fieldStart.toInt + (j : Int)) = .ok f) :
    ∃ row, RowAt m.fields (owner.fieldStart.toInt + (j : Int)) row ∧
      m.FieldShows c image type owner j row f := by
  simp only [assembleField, bind_eq_ok_iff] at h
  obtain ⟨row, hrow, reference, hreference, attributes, hattributes, typeName, htypeName, name,
    hname, hf⟩ := h
  obtain rfl := Except.ok.inj hf
  have hlocal : (owner.fieldStart.toInt + (j : Int) - owner.fieldStart.toInt).toNat = j := by omega
  refine ⟨row, lookup_eq_ok_iff.1 hrow, hname, htypeName, ⟨reference, hreference, rfl, rfl, ?_⟩,
    m.defaultShows_literal? _, hattributes⟩
  rw [hlocal]

theorem accessorShows_of_assembleAccessor {owner : TypeRow} {relative : Int32} {isSetter : Bool}
    {IsType : MethodRow → Int32 → Prop} {shown : Option Accessor}
    (htype : ∀ method type, m.accessorType method isSetter = .ok type → IsType method type)
    (h : (m.assembleAccessor owner relative isSetter).answered answer = .ok shown) :
    m.AccessorShows answer owner relative IsType shown := by
  have hneg : relative < 0 ↔ relative.toInt < 0 := Int32.lt_iff_toInt_lt
  unfold assembleAccessor at h
  by_cases hi : relative < 0
  · rw [if_pos hi] at h
    obtain rfl := Except.ok.inj h
    exact hneg.1 hi
  · rw [if_neg hi] at h
    simp only [answered_bind, answered_lift, answered_modifiers, bind_eq_ok_iff] at h
    obtain ⟨method, hmethod, type, hmethodType, modifiers, hmodifiers, typeName, htypeName, hs⟩ := h
    obtain rfl := Except.ok.inj hs
    obtain rfl := Except.ok.inj hmodifiers
    have hrow := lookup_eq_ok_iff.1 hmethod
    refine ⟨Int.not_lt.1 (mt hneg.2 hi), method, type, hrow, ?_, rfl, htype _ _ hmethodType,
      htypeName⟩
    exact Int.toNat_of_nonneg hrow.1

theorem propertyShows_of_assembleProperty [Places] {owner : TypeRow} {j : Nat} {p : PropertyDecl}
    (h : (m.assembleProperty c image owner (owner.propertyStart.toInt + (j : Int))).answered
      answer = .ok p) :
    ∃ row, RowAt m.properties (owner.propertyStart.toInt + (j : Int)) row ∧
      m.PropertyShows c answer image owner row p := by
  simp only [assembleProperty, answered_bind, answered_lift, bind_eq_ok_iff] at h
  obtain ⟨row, hrow, attributes, hattributes, name, hname, getter, hgetter, setter, hsetter,
    hp⟩ := h
  obtain rfl := Except.ok.inj hp
  refine ⟨row, lookup_eq_ok_iff.1 hrow, hname, ?_, ?_, hattributes⟩
  · apply m.accessorShows_of_assembleAccessor _ hgetter
    intro method type htype
    exact (Except.ok.inj htype).symm
  · apply m.accessorShows_of_assembleAccessor _ hsetter
    intro method type htype
    rw [accessorType, if_pos rfl, map_eq_ok_iff] at htype
    obtain ⟨parameter, hparameter, rfl⟩ := htype
    exact ⟨parameter, lookup_eq_ok_iff.1 hparameter, rfl⟩

theorem parameterShows_of_assembleParameter {method : MethodRow} {j : Nat} {p : ParameterDecl}
    (h : m.assembleParameter (method.parameterStart.toInt + (j : Int)) = .ok p) :
    ∃ row, RowAt m.parameters (method.parameterStart.toInt + (j : Int)) row ∧
      m.ParameterShows method j row p := by
  simp only [assembleParameter, bind_eq_ok_iff] at h
  obtain ⟨row, hrow, reference, hreference, typeName, htypeName, name, hname, hp⟩ := h
  obtain rfl := Except.ok.inj hp
  exact ⟨row, lookup_eq_ok_iff.1 hrow, hname, htypeName, ⟨reference, hreference, rfl⟩,
    m.defaultShows_literal? _⟩

theorem methodShows_of_assembleMethod [Places] {imageName : String} {owner : TypeRow} {j : Nat}
    {d : MethodDecl}
    (h : (m.assembleMethod c image imageName (owner.methodStart.toInt + (j : Int))).answered
      answer = .ok d) :
    ∃ row, RowAt m.methods (owner.methodStart.toInt + (j : Int)) row ∧
      m.MethodShows c answer image imageName owner j row d := by
  simp only [assembleMethod, answered_bind, answered_lift, answered_modifiers, bind_eq_ok_iff] at h
  obtain ⟨row, hrow, attributes, hattributes, name, hname, suffix, hsuffix, reference, hreference,
    parameters, hparameters, modifiers, hmodifiers, returnType, hreturnType, hd⟩ := h
  obtain rfl := Except.ok.inj hd
  obtain rfl := Except.ok.inj hmodifiers
  have hat := lookup_eq_ok_iff.1 hrow
  exact ⟨row, hat, {
    index := Int.toNat_of_nonneg hat.1
    name := ⟨name, suffix, hname, hsuffix, rfl⟩
    modifiers := rfl
    returnType := hreturnType
    returnsByRef := ⟨reference, hreference, rfl⟩
    parameters := copies_of_mapM (fun _ _ ↦ m.parameterShows_of_assembleParameter) hparameters
    isAbstract := rfl
    address := rfl
    slot := rfl
    generics := rfl
    attributes := hattributes }⟩

theorem parentNames_eq_ok {row : TypeRow} {parents : List String}
    (h : m.parentNames row = .ok parents) : ∃ parent : Option String, parents = parent.toList ∧
      ∀ name, parent = some name ↔ m.ParentShows row name := by
  have hneg : row.parentIndex < 0 ↔ row.parentIndex.toInt < 0 := Int32.lt_iff_toInt_lt
  unfold parentNames at h
  by_cases hi : row.parentIndex < 0
  · rw [if_pos hi] at h
    refine ⟨none, (Except.ok.inj h).symm, fun name ↦ ⟨nofun, fun hp ↦ ?_⟩⟩
    have hnonneg := hp.isPresent
    have hlt := hneg.1 hi
    omega
  · rw [if_neg hi, bind_eq_ok_iff] at h
    obtain ⟨parent, hparent, hs⟩ := h
    obtain rfl := Except.ok.inj hs
    have hnonneg : 0 ≤ row.parentIndex.toInt := Int.not_lt.1 (mt hneg.2 hi)
    have hname : ∀ name, m.typeName row.parentIndex = .ok name → parent = name := fun name hname ↦
      Except.ok.inj (hparent.symm.trans hname)
    by_cases hs : (!row.isValueType && !row.isEnum && parent != rootName) = true
    · rw [if_pos hs]
      simp only [Bool.and_eq_true, Bool.not_eq_true', bne_iff_ne, ne_eq] at hs
      obtain ⟨hclass, hroot⟩ := hs
      refine ⟨some parent, rfl, fun name ↦ ⟨?_, fun hp ↦ congrArg some (hname name hp.name)⟩⟩
      rintro ⟨⟩
      exact ⟨hnonneg, hclass, hparent, hroot⟩
    · rw [if_neg hs]
      refine ⟨none, rfl, fun name ↦ ⟨nofun, fun hp ↦ absurd ?_ hs⟩⟩
      obtain rfl := hname name hp.name
      simp only [hp.isClass.1, hp.isClass.2, Bool.not_false, Bool.and_self, Bool.true_and,
        bne_iff_ne]
      exact hp.isNotRoot

theorem basesShow_of_baseNames {row : TypeRow} {bases : List String}
    (h : m.baseNames row = .ok bases) : m.BasesShow row bases := by
  simp only [baseNames, bind_eq_ok_iff] at h
  obtain ⟨parents, hparents, interfaces, hinterfaces, hbases⟩ := h
  obtain rfl := Except.ok.inj hbases
  obtain ⟨parent, rfl, hparent⟩ := m.parentNames_eq_ok hparents
  refine ⟨parent, interfaces, rfl, hparent, copies_of_mapM (fun j name hname ↦ ?_) hinterfaces⟩
  rw [interfaceName, bind_eq_ok_iff] at hname
  obtain ⟨type, htype, hname⟩ := hname
  exact ⟨type, lookup_eq_ok_iff.1 htype, hname⟩

theorem nameShows_of_typeDefName {index : Nat} {row : TypeRow} {name : String}
    (hrow : m.typeDef index = .ok row) (h : m.typeDefName index false true = .ok name) :
    m.NameShows row.nameIndex row.genericContainerIndex name := by
  simp only [Snapshot.typeDefName_of_typeDef hrow, bind_eq_ok_iff] at h
  obtain ⟨simple, hsimple, suffix, hsuffix, hname⟩ := h
  exact ⟨simple, suffix, hsimple, hsuffix, (Except.ok.inj hname).symm⟩

theorem typeShows_of_assembleType [Places] {imageName : String} {type : Nat} {t : TypeDecl}
    (h : (m.assembleType c image imageName type).answered answer = .ok t) :
    ∃ row, m.typeDefs[type]? = some row ∧ m.TypeShows c answer image imageName type row t := by
  simp only [assembleType, answered_bind, answered_lift, bind_eq_ok_iff] at h
  obtain ⟨row, hrow, bases, hbases, space, hspace, attributes, hattributes, name, hname, fields,
    hfields, properties, hproperties, methods, hmethods, ht⟩ := h
  obtain rfl := Except.ok.inj ht
  refine ⟨row, (lookup_eq_ok_iff.1 hrow).2, {
    index := rfl
    space := hspace
    name := m.nameShows_of_typeDefName hrow hname
    header := rfl
    bases := m.basesShow_of_baseNames hbases
    isSerializable := rfl
    attributes := hattributes
    fields := copiesIf_of_members (fun j f hf ↦ ?_) hfields
    properties := copiesIf_of_members (fun j p hp ↦ ?_) hproperties
    methods := copiesIf_of_members (fun j d hd ↦ ?_) hmethods }⟩
  · exact m.fieldShows_of_assembleField c image hf
  · exact m.propertyShows_of_assembleProperty c image hp
  · exact m.methodShows_of_assembleMethod c image hd

theorem imageShows_of_answered [Places] {index : Nat} {decl : ImageDecl}
    (h : (m.assembleImage c index image).answered answer = .ok decl) :
    m.ImageShows c answer image index decl := by
  simp only [assembleImage, answered_bind, answered_lift, answered_mapM, bind_eq_ok_iff] at h
  obtain ⟨name, hname, _, _, types, htypes, hdecl⟩ := h
  obtain rfl := Except.ok.inj hdecl
  refine ⟨rfl, hname, rfl, ?_, fun i hi ↦ ?_⟩
  · rw [length_of_mapM_eq_ok htypes, ImageRow.typeIndices, List.length_range']
  · have hindex : image.typeIndices[i]? = some (image.typeStart.toNat + i) := by
      simp [ImageRow.typeIndices, hi]
    obtain ⟨t, ht, hstep⟩ := getElem?_of_mapM_eq_ok htypes hindex
    obtain ⟨row, hrow, hshows⟩ := m.typeShows_of_assembleType c image hstep
    exact ⟨row, t, hrow, ht, hshows⟩

/-- An image that is assembled, on whatever memo, shows the rows of its ranges, each once and in
order. If the memo is sound, the modifiers of a method are those of the flags in its row. -/
theorem imageShows_of_assembleImage [Places] {index : Nat} {cache : ModifierCache}
    {decl : ImageDecl}
    (h : ((m.assembleImage c index image).run cache).1 = .ok decl) :
    m.ImageShows c cache.answer image index decl ∧ (cache.Sound m.toSnapshot →
      m.ImageShows c (fun _ flags ↦ Flags.methodModifiers flags) image index decl) := by
  have hasks := m.asks_assembleImage c index image
  rw [run_eq_answered hasks] at h
  refine ⟨m.imageShows_of_answered c image h, fun hc ↦ m.imageShows_of_answered c image ?_⟩
  rw [← h]
  exact answered_congr hasks fun _ _ hq ↦ (hc.answer_eq hq).symm

def squares : ImageDecl where
  index := 1
  name := "Squares.dll"
  typeStart := 1
  types := [{
    index := 1
    space := "Drawing"
    name := "Square"
    category := .reference
    access := .everywhere
    modifier := some .isSealed
    bases := ["Shape", "IShape"]
    attributes := ""
    isSerializable := true
    fields := [⟨"", [.access .everywhere], false, "int", "side", some (.value "5"), some 16⟩]
    properties := [⟨"", "Area", some ⟨1, [.access .everywhere, .isOverride], "int"⟩, none⟩]
    methods := [{
      index := 1
      attributes := ""
      modifiers := [.access .everywhere, .isOverride]
      returnsByRef := false
      returnType := "int"
      name := "get_Area"
      parameters := [⟨.plain, "int", "scale", none⟩]
      isAbstract := false
      address := some ⟨0x1000, 0, 0x1000⟩
      slot := some 4
      generics := [] }] }]

open scoped Places in
theorem imageShows_squares :
    (((ofSnapshot (.shapes ⟨24, 0⟩)).assembleImage .full 1 .squares).run .empty).1 = .ok squares ∧
      ModifierCache.empty.Sound (.shapes ⟨24, 0⟩) ∧
      (ofSnapshot (.shapes ⟨24, 0⟩)).ImageShows .full
        (fun _ flags ↦ Flags.methodModifiers flags) .squares 1 squares := by
  have hsound := ModifierCache.sound_empty (.shapes ⟨24, 0⟩)
  exact ⟨rfl, hsound, (imageShows_of_assembleImage _ _ _ rfl).2 hsound⟩

end Metadata

end MetadataDump
