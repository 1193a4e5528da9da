import MetadataDump.Proofs.Declaration.Faithful

namespace MetadataDump

/-- Every section that `c` shows is shown by `c'`. -/
structure Config.Within (c c' : Config) : Prop where
  methods : c.methods = true → c'.methods = true
  fields : c.fields = true → c'.fields = true
  properties : c.properties = true → c'.properties = true
  attributes : c.attributes = true → c'.attributes = true
  fieldOffsets : c.fieldOffsets = true → c'.fieldOffsets = true
  methodOffsets : c.methodOffsets = true → c'.methodOffsets = true
  typeIndex : c.typeIndex = true → c'.typeIndex = true

section Restrict

variable (c : Config)

def Config.keepLines (lines : String) : String := if c.attributes then lines else ""

def FieldDecl.restrict (f : FieldDecl) : FieldDecl :=
  { f with
    attributes := c.keepLines f.attributes
    offset := if c.fieldOffsets then f.offset else none }

def PropertyDecl.restrict (p : PropertyDecl) : PropertyDecl :=
  { p with attributes := c.keepLines p.attributes }

def MethodDecl.restrict (d : MethodDecl) : MethodDecl :=
  { d with
    attributes := c.keepLines d.attributes
    address := if c.methodOffsets then d.address else none
    slot := if c.methodOffsets then d.slot else none }

def TypeDecl.restrict (t : TypeDecl) : TypeDecl :=
  { t with
    attributes := c.keepLines t.attributes
    isSerializable := c.attributes && t.isSerializable
    fields := if c.fields then t.fields.map (FieldDecl.restrict c) else []
    properties := if c.properties then t.properties.map (PropertyDecl.restrict c) else []
    methods := if c.methods then t.methods.map (MethodDecl.restrict c) else [] }

def ImageDecl.restrict (d : ImageDecl) : ImageDecl :=
  { d with types := d.types.map (TypeDecl.restrict c) }

end Restrict

namespace Metadata

open Assembly

variable (m : Metadata) {c c' : Config} (image : ImageRow)
  {answer : Nat → UInt32 → List Modifier}

section

variable [Places]

theorem restrict_shownAttributes (hc : c.Within c') {index : Int32} {token : UInt32}
    {indent lines : String} (h : m.shownAttributes c' image index token indent = .ok lines) :
    m.shownAttributes c image index token indent = .ok (c.keepLines lines) := by
  unfold shownAttributes Config.keepLines at *
  cases hshown : c.attributes with
  | true =>
    rw [if_pos (hc.attributes hshown)] at h
    rw [if_pos rfl, if_pos rfl, h]
  | false => rfl

theorem restrict_assembleField (hc : c.Within c') {type : Nat} {owner : TypeRow} {position : Int}
    {f : FieldDecl} (h : m.assembleField c' image type owner position = .ok f) :
    m.assembleField c image type owner position = .ok (f.restrict c) := by
  simp only [assembleField, bind_eq_ok_iff] at h ⊢
  obtain ⟨row, hrow, reference, hreference, lines, hlines, typeName, htypeName, name, hname,
    hf⟩ := h
  obtain rfl := Except.ok.inj hf
  refine ⟨row, hrow, reference, hreference, _, m.restrict_shownAttributes image hc hlines, typeName,
    htypeName, name, hname, ?_⟩
  unfold FieldDecl.restrict
  cases hshown : c.fieldOffsets with
  | true => rw [hc.fieldOffsets hshown]; rfl
  | false => rfl

theorem restrict_assembleProperty (hc : c.Within c') {owner : TypeRow} {position : Int}
    {p : PropertyDecl} (h : (m.assembleProperty c' image owner position).answered answer = .ok p) :
    (m.assembleProperty c image owner position).answered answer = .ok (p.restrict c) := by
  simp only [assembleProperty, answered_bind, answered_lift, bind_eq_ok_iff] at h ⊢
  obtain ⟨row, hrow, lines, hlines, name, hname, getter, hgetter, setter, hsetter, hp⟩ := h
  obtain rfl := Except.ok.inj hp
  exact ⟨row, hrow, _, m.restrict_shownAttributes image hc hlines, name, hname, getter, hgetter,
    setter, hsetter, rfl⟩

theorem restrict_assembleMethod (hc : c.Within c') {imageName : String} {position : Int}
    {d : MethodDecl}
    (h : (m.assembleMethod c' image imageName position).answered answer = .ok d) :
    (m.assembleMethod c image imageName position).answered answer = .ok (d.restrict c) := by
  simp only [assembleMethod, answered_bind, answered_lift, answered_modifiers, bind_eq_ok_iff]
    at h ⊢
  obtain ⟨row, hrow, lines, hlines, name, hname, suffix, hsuffix, reference, hreference, parameters,
    hparameters, modifiers, hmodifiers, returnType, hreturnType, hd⟩ := h
  obtain rfl := Except.ok.inj hd
  refine ⟨row, hrow, _, m.restrict_shownAttributes image hc hlines, name, hname, suffix, hsuffix,
    reference, hreference, parameters, hparameters, modifiers, hmodifiers, returnType, hreturnType,
    ?_⟩
  unfold MethodDecl.restrict
  cases hshown : c.methodOffsets with
  | true => rw [hc.methodOffsets hshown]; rfl
  | false => rfl

omit [Places] in
theorem restrict_members {α : Type} {isShown isShown' : Bool}
    (hshown : isShown = true → isShown' = true) {range : RowRange} {f g : Int → Assembly α}
    {r : α → α}
    (hfg : ∀ position a, (f position).answered answer = .ok a →
      (g position).answered answer = .ok (r a)) {as : List α}
    (h : (members isShown' range f).answered answer = .ok as) :
    (members isShown range g).answered answer = .ok (if isShown then as.map r else []) := by
  cases isShown with
  | true =>
    rw [hshown rfl, members, if_pos rfl, answered_mapM] at h
    rw [members, if_pos rfl, if_pos rfl, answered_mapM]
    exact mapM_eq_ok_map hfg h
  | false => rfl

theorem restrict_assembleType (hc : c.Within c') {imageName : String} {type : Nat} {t : TypeDecl}
    (h : (m.assembleType c' image imageName type).answered answer = .ok t) :
    (m.assembleType c image imageName type).answered answer = .ok (t.restrict c) := by
  simp only [assembleType, answered_bind, answered_lift, bind_eq_ok_iff] at h ⊢
  obtain ⟨row, hrow, bases, hbases, space, hspace, lines, hlines, name, hname, fields, hfields,
    properties, hproperties, methods, hmethods, ht⟩ := h
  obtain rfl := Except.ok.inj ht
  refine ⟨row, hrow, bases, hbases, space, hspace, _, m.restrict_shownAttributes image hc hlines,
    name, hname, _, restrict_members (r := FieldDecl.restrict c) hc.fields ?_ hfields,
    _, restrict_members (r := PropertyDecl.restrict c) hc.properties ?_ hproperties,
    _, restrict_members (r := MethodDecl.restrict c) hc.methods ?_ hmethods, ?_⟩
  · exact fun _ _ hf ↦ m.restrict_assembleField image hc hf
  · exact fun _ _ hp ↦ m.restrict_assembleProperty image hc hp
  · exact fun _ _ hd ↦ m.restrict_assembleMethod image hc hd
  · unfold TypeDecl.restrict
    cases hshown : c.attributes with
    | true => rw [hc.attributes hshown]; rfl
    | false => rfl

theorem restrict_assembleImage (hc : c.Within c') {index : Nat} {decl : ImageDecl}
    (h : (m.assembleImage c' index image).answered answer = .ok decl) :
    (m.assembleImage c index image).answered answer = .ok (decl.restrict c) := by
  simp only [assembleImage, answered_bind, answered_lift, answered_mapM, bind_eq_ok_iff] at h ⊢
  obtain ⟨name, hname, checked, hchecked, types, htypes, hdecl⟩ := h
  obtain rfl := Except.ok.inj hdecl
  exact ⟨name, hname, checked, hchecked, _,
    mapM_eq_ok_map (fun _ _ ↦ m.restrict_assembleType image hc) htypes, rfl⟩

/-- With fewer sections an image is the same but for what is not shown; so if it fails with fewer
sections, then it fails with more of them. -/
theorem run_assembleImage_of_within (hc : c.Within c') (index : Nat) (cache : ModifierCache) :
    (∀ decl, ((m.assembleImage c' index image).run cache).1 = .ok decl →
      ((m.assembleImage c index image).run cache).1 = .ok (decl.restrict c)) ∧
    ∀ e, ((m.assembleImage c index image).run cache).1 = .error e →
      ∃ e', ((m.assembleImage c' index image).run cache).1 = .error e' := by
  rw [run_eq_answered (m.asks_assembleImage c index image),
    run_eq_answered (m.asks_assembleImage c' index image)]
  refine ⟨fun decl ↦ m.restrict_assembleImage image hc, fun e he ↦ ?_⟩
  cases hmore : (m.assembleImage c' index image).answered cache.answer with
  | error e' => exact ⟨e', rfl⟩
  | ok decl => cases he.symm.trans (m.restrict_assembleImage image hc hmore)

end

def fieldsAndProperties : Config := { Config.declarationsOnly with methods := false }

open scoped Places in
theorem run_assembleImage_fieldsAndProperties :
    fieldsAndProperties.Within .full ∧
      (((ofSnapshot (.shapes ⟨24, 0⟩)).assembleImage fieldsAndProperties 1 .squares).run .empty).1 =
        .ok (squares.restrict fieldsAndProperties) ∧
      (squares.restrict fieldsAndProperties).types.map (·.properties) =
        squares.types.map (·.properties) := by
  have hwithin : fieldsAndProperties.Within .full := by constructor <;> decide
  exact ⟨hwithin, (run_assembleImage_of_within _ _ hwithin 1 .empty).1 squares rfl, rfl⟩

end Metadata

end MetadataDump
