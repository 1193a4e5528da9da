import MetadataDump.Proofs.Assembly.Comparison
import MetadataDump.Proofs.Declaration.Groups

namespace MetadataDump

def FieldDecl.eraseAttributes (f : FieldDecl) : FieldDecl := { f with attributes := "" }

def PropertyDecl.eraseAttributes (p : PropertyDecl) : PropertyDecl := { p with attributes := "" }

def MethodDecl.eraseAttributes (d : MethodDecl) : MethodDecl := { d with attributes := "" }

namespace TypeDecl

def eraseAttributes (t : TypeDecl) : TypeDecl :=
  { t with
    attributes := ""
    fields := t.fields.map FieldDecl.eraseAttributes
    properties := t.properties.map PropertyDecl.eraseAttributes
    methods := t.methods.map MethodDecl.eraseAttributes }

def eraseMarks (t : TypeDecl) : TypeDecl := { t.eraseAttributes with isSerializable := false }

theorem eraseAttributes_eq {t u : TypeDecl} (h : t.eraseMarks = u.eraseMarks)
    (hs : t.isSerializable = u.isSerializable) : t.eraseAttributes = u.eraseAttributes := by
  cases t
  cases u
  simp_all [eraseMarks, eraseAttributes]

end TypeDecl

namespace ImageDecl

def mapTypes (f : TypeDecl → TypeDecl) (d : ImageDecl) : ImageDecl :=
  { d with types := d.types.map f }

def eraseAttributes : ImageDecl → ImageDecl := mapTypes TypeDecl.eraseAttributes

def eraseMarks : ImageDecl → ImageDecl := mapTypes TypeDecl.eraseMarks

end ImageDecl

namespace Metadata

open Assembly

/-- The same metadata with other attribute data, which need not fit each other or the rest. -/
def withAttributeData (m : Metadata) (ranges : Array AttributeDataRange) (data : ByteArray) :
    Metadata :=
  ofSnapshot { m.toSnapshot with attributeDataRanges := ranges, attributeData := data }

variable (m : Metadata) (ranges : Array AttributeDataRange) (data : ByteArray) (c : Config)
  (shown : Bool) (image : ImageRow)

theorem succeeds_shownAttributes [Places] (hv : m.version.hasAttributeData) (index : Int32)
    (token : UInt32)
    (indent : String) : Succeeds (m.shownAttributes c image index token indent) := by
  have hscheme : AttributeScheme.ofVersion? m.version ≠ some .generator := by
    simp [AttributeScheme.ofVersion?, hv]
  unfold shownAttributes attributeLines
  split
  · split
    · rename_i scheme i hs _
      cases scheme with
      | generator => exact absurd hs hscheme
      | data => exact succeeds_ok _
    · exact succeeds_ok _
  · exact succeeds_ok _

theorem genericGroups_withAttributeData (method : Nat) :
    (m.withAttributeData ranges data).genericGroups method = m.genericGroups method := by
  apply genericGroups_congr
  · rfl
  · intro pointer
    rfl

section

variable {m} (hv : m.version.hasAttributeData) [Places]

include hv

/-- The only step at which the two assemblies differ. -/
theorem map_shownAttributes_bind {α β : Type} {g : α → β} {k l : String → Assembly α}
    {index : Int32} {token : UInt32} {indent : String} (hkl : ∀ a b, g <$> k a = g <$> l b) :
    g <$> (liftM (m.shownAttributes c image index token indent) >>= k) =
      g <$> (liftM ((m.withAttributeData ranges data).shownAttributes { c with attributes := shown }
        image index token indent) >>= l) :=
  map_bind_of_succeeds (m.succeeds_shownAttributes _ _ hv _ _ _)
    ((m.withAttributeData ranges data).succeeds_shownAttributes _ _ hv _ _ _) hkl

theorem eraseAttributes_assembleField (type : Nat) (owner : TypeRow) (position : Int) :
    FieldDecl.eraseAttributes <$>
        (liftM (m.assembleField c image type owner position) : Assembly FieldDecl) =
      FieldDecl.eraseAttributes <$>
        liftM ((m.withAttributeData ranges data).assembleField { c with attributes := shown } image
          type owner position) := by
  simp only [assembleField, lift_bind]
  refine map_bind_same _ fun row ↦ map_bind_same _ fun reference ↦ ?_
  refine map_shownAttributes_bind ranges data c shown image hv fun a b ↦ ?_
  exact map_bind_same _ fun typeName ↦ map_bind_same _ fun name ↦ rfl

theorem eraseAttributes_assembleProperty (owner : TypeRow) (position : Int) :
    PropertyDecl.eraseAttributes <$> m.assembleProperty c image owner position =
      PropertyDecl.eraseAttributes <$>
        (m.withAttributeData ranges data).assembleProperty { c with attributes := shown } image
          owner position := by
  unfold assembleProperty
  refine map_bind_same _ fun row ↦ ?_
  refine map_shownAttributes_bind ranges data c shown image hv fun a b ↦ ?_
  exact map_bind_same _ fun name ↦ map_bind_same _ fun getter ↦ map_bind_same _ fun setter ↦ rfl

theorem eraseAttributes_assembleMethod (imageName : String) (position : Int) :
    MethodDecl.eraseAttributes <$> m.assembleMethod c image imageName position =
      MethodDecl.eraseAttributes <$>
        (m.withAttributeData ranges data).assembleMethod { c with attributes := shown } image
          imageName position := by
  unfold assembleMethod
  rw [genericGroups_withAttributeData]
  refine map_bind_same _ fun row ↦ ?_
  refine map_shownAttributes_bind ranges data c shown image hv fun a b ↦ ?_
  exact map_bind_same _ fun name ↦ map_bind_same _ fun suffix ↦ map_bind_same _ fun reference ↦
    map_bind_same _ fun parameters ↦ map_bind_same _ fun modifiers ↦ map_bind_same _ fun type ↦ rfl

/-- What two types have in common whose rows are the same and whose attribute lines are not. The
mark of serializable types is only shown together with attributes. -/
theorem map_assembleType {γ : Type} {g : TypeDecl → γ}
    (hg : ∀ t u : TypeDecl, t.eraseMarks = u.eraseMarks →
      (shown = c.attributes → t.isSerializable = u.isSerializable) → g t = g u)
    (imageName : String) (type : Nat) :
    g <$> m.assembleType c image imageName type =
      g <$> (m.withAttributeData ranges data).assembleType { c with attributes := shown } image
        imageName type := by
  unfold assembleType
  refine map_bind_same _ fun row ↦ map_bind_same _ fun bases ↦ map_bind_same _ fun space ↦ ?_
  refine map_shownAttributes_bind ranges data c shown image hv fun _ _ ↦ ?_
  refine map_bind_same _ fun name ↦ map_bind_congr (map_members_congr _ fun position _ ↦
    eraseAttributes_assembleField ranges data c shown image hv type row position) ?_
  intro fs fs' hfs
  refine map_bind_congr (map_members_congr _ fun position _ ↦
    eraseAttributes_assembleProperty ranges data c shown image hv row position) ?_
  intro ps ps' hps
  refine map_bind_congr (map_members_congr _ fun position _ ↦
    eraseAttributes_assembleMethod ranges data c shown image hv imageName position) ?_
  intro ds ds' hds
  refine map_pure_congr (hg _ _ ?_ fun hs ↦ ?_)
  · simp only [TypeDecl.eraseMarks, TypeDecl.eraseAttributes, hfs, hps, hds]
  · simp only [hs]

theorem mapTypes_assembleImage {f : TypeDecl → TypeDecl}
    (hf : ∀ t u : TypeDecl, t.eraseMarks = u.eraseMarks →
      (shown = c.attributes → t.isSerializable = u.isSerializable) → f t = f u) (index : Nat) :
    ImageDecl.mapTypes f <$> m.assembleImage c index image =
      ImageDecl.mapTypes f <$> (m.withAttributeData ranges data).assembleImage
        { c with attributes := shown } index image := by
  unfold assembleImage
  refine map_bind_same _ fun name ↦ map_bind_same _ fun _ ↦ ?_
  refine map_bind_congr (map_mapM_congr fun type _ ↦
    map_assembleType ranges data c shown image hv hf name type) fun ts us htypes ↦ ?_
  exact map_pure_congr (congrArg (ImageDecl.mk index name image.typeStart) htypes)

end

/-- From version 29 on, attribute data and ranges, be they damaged in any way, change nothing but
the attribute lines of an image: it fails with the same error, or it is the same without them, and
the memo is used in the same way. Nor does it matter to its success whether attributes are shown. -/
theorem sameUpTo_withAttributeData [Places] (hv : 29 ≤ m.version.major) (index : Nat)
    (cache : ModifierCache) :
    (SameUpTo ImageDecl.eraseAttributes ((m.assembleImage c index image).run cache).1
        (((m.withAttributeData ranges data).assembleImage c index image).run cache).1 ∧
      ((m.assembleImage c index image).run cache).2 =
        (((m.withAttributeData ranges data).assembleImage c index image).run cache).2) ∧
    ∀ shown, SameUpTo ImageDecl.eraseMarks ((m.assembleImage c index image).run cache).1
      (((m.withAttributeData ranges data).assembleImage { c with attributes := shown } index
        image).run cache).1 := by
  have hdata : m.version.hasAttributeData := decide_eq_true hv
  constructor
  · refine run_of_map_eq (mapTypes_assembleImage ranges data c c.attributes image hdata ?_ index)
      cache
    intro t u hmarks hs
    exact TypeDecl.eraseAttributes_eq hmarks (hs rfl)
  · intro shown
    refine (run_of_map_eq (mapTypes_assembleImage ranges data c shown image hdata ?_ index) cache).1
    intro t u hmarks _
    exact hmarks

def damagedSquares : Metadata :=
  (ofSnapshot (.shapes ⟨29, 0⟩)).withAttributeData #[⟨0x02000002, 0⟩, ⟨0, 3⟩] ⟨#[1, 0, 0]⟩

def typeAttributes (result : Except Error ImageDecl) : Except Error (List String) :=
  (fun d ↦ d.types.map TypeDecl.attributes) <$> result

open scoped Places in
theorem sameUpTo_damagedSquares :
    29 ≤ damagedSquares.version.major ∧
    typeAttributes ((damagedSquares.assembleImage .full 1 .squares).run .empty).1 =
      .ok ["/* Undecodable custom attribute data: Malformed - unknown:0: Attribute constructor " ++
        "table exceeds data - 1 entries in 3 bytes */\n"] ∧
    typeAttributes (((damagedSquares.withAttributeData #[] .empty).assembleImage .full 1
      .squares).run .empty).1 = .ok [""] ∧
    (SameUpTo ImageDecl.eraseAttributes
        ((damagedSquares.assembleImage .full 1 .squares).run .empty).1
        (((damagedSquares.withAttributeData #[] .empty).assembleImage .full 1
          .squares).run .empty).1 ∧
      ((damagedSquares.assembleImage .full 1 .squares).run .empty).2 =
        (((damagedSquares.withAttributeData #[] .empty).assembleImage .full 1
          .squares).run .empty).2) ∧
    ∀ shown, SameUpTo ImageDecl.eraseMarks
      ((damagedSquares.assembleImage .full 1 .squares).run .empty).1
      (((damagedSquares.withAttributeData #[] .empty).assembleImage
        { Config.full with attributes := shown } 1 .squares).run .empty).1 :=
  ⟨by decide, rfl, rfl,
    sameUpTo_withAttributeData damagedSquares #[] .empty .full .squares (by decide) 1 .empty⟩

end Metadata

end MetadataDump
