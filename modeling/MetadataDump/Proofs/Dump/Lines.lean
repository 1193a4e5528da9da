import MetadataDump.Proofs.Assembly.Schedule
import MetadataDump.Proofs.Attribute.Lines
import MetadataDump.Proofs.Declaration.Specializations
import MetadataDump.Proofs.Dump.Layout

namespace MetadataDump

open Dump

namespace AttributeScheme

/-- One line for each attribute of a range, and one for the error that cut them short. If attributes
are data, then `records` tells what can be read of each range. -/
def layout (scheme : AttributeScheme) (s : Snapshot)
    (records : Nat → List Attribute × Option Error) (i : Nat) (indent : String) : List LineKind :=
  match scheme with
  | .generator =>
    List.replicate ((s.attributeTypeRanges[i]?).elim 0 (·.count.toNat)) (.attribute indent)
  | .data =>
    List.replicate (records i).1.length (.attribute indent) ++
      (records i).2.toList.map fun _ ↦ .diagnostic indent

theorem laid_replicate {α : Type} {k : LineKind} {text : α → String} {as : List α}
    (h : ∀ a ∈ as, Laid [k] (text a)) :
    Laid (List.replicate as.length k) (String.join (as.map text)) := by
  induction as with
  | nil => exact laid_nil
  | cons a as ih =>
    obtain ⟨ha, has⟩ := List.forall_mem_cons.1 h
    rw [List.map_cons, String.join_cons]
    exact ha.append (ih has)

theorem yields_attributeTypesOf (s : Snapshot) (i : Nat) :
    Yields (fun types ↦ types.length = (s.attributeTypeRanges[i]?).elim 0 (·.count.toNat))
      (s.attributeTypesOf i) := by
  refine (yields_rowAt _ _ _).bind fun range hrange ↦ answers_ite (fun hstop ↦ ?_) fun _ ↦ ?_
  · have hrow : s.attributeTypeRanges[i]? = some range := hrange.2
    show ((s.attributeTypes.drop range.start.toNat).take range.count.toNat).length = _
    rw [hrow, Option.elim_some, List.length_take, List.length_drop]
    omega
  · exact nofun

section

variable {s : Snapshot} {records : Nat → List Attribute × Option Error} (hs : s.SingleLine)
  (hrecords : ∀ i, RangeReads s i (records i).1 (records i).2) (i : Nat) {indent : String}
  (hindent : IsLine indent)

include hindent

theorem laid_generatedLine {name : String} (hname : IsLine name) (address : Address) :
    Laid [.attribute indent] (generatedLine indent name address) := by
  have htext : generatedLine indent name address =
      indent ++ "[" ++ name ++ "]" ++ (" // " ++ address.text) ++ "\n" := by
    have hclose : "] // " = "]" ++ " // " := rfl
    simp only [generatedLine, hclose, String.append_assoc]
  rw [htext]
  refine laid_line (.attribute _ _ _) (IsLine.append (IsLine.append (IsLine.append (IsLine.append
    hindent ?_) hname) ?_) (IsLine.append ?_ (IsLine.address address)))
  all_goals exact IsLine.literal (by decide)

theorem laid_attributeLine {a : Attribute} (ha : IsLine a.text) :
    Laid [.attribute indent] (attributeLine indent a) := by
  have hwritten : (LineKind.attribute indent).Written (indent ++ a.text) := by
    have h := LineKind.Written.attribute indent (a.typeName ++
      if a.arguments.isEmpty then "" else "(" ++ ", ".intercalate a.arguments ++ ")") ""
    simpa only [Attribute.text, String.append_assoc, String.append_empty] using h
  exact laid_line hwritten (hindent.append ha)

theorem laid_failureLine [Places] {e : Error} (he : e.OneLine) :
    Laid [.diagnostic indent] (failureLine indent e) := by
  have htext : failureLine indent e =
      indent ++ "/* Undecodable custom attribute data: " ++ e.message ++ " */" ++ "\n" := by
    have hclose : " */\n" = " */" ++ "\n" := rfl
    simp only [failureLine, hclose, String.append_assoc]
  rw [htext]
  have hfront : IsLine (indent ++ "/* Undecodable custom attribute data: ") :=
    hindent.append (IsLine.literal (by decide))
  have hwords := hfront.append (IsLine.message he)
  exact laid_line (.diagnostic _ _) (hwords.append (IsLine.literal (by decide)))

include hs

theorem yields_generatorLines :
    Yields (Laid (AttributeScheme.generator.layout s records i indent))
      (generatorLines s i indent) := by
  refine (yields_attributeTypesOf s i).bind fun types htypes ↦ ?_
  refine (answers_mapM fun type _ ↦ hs.yields_typeName type).bind fun names hnames ↦ ?_
  show Laid _ (String.join (names.map fun name ↦ generatedLine indent name _))
  rw [layout, ← htypes, hnames.length_eq]
  exact laid_replicate fun name hname ↦
    laid_generatedLine hindent (forall_mem_of_forall₂ hnames name hname) _

include hrecords

theorem laid_dataLines [Places] :
    Laid (AttributeScheme.data.layout s records i indent) (dataLines s i indent) := by
  have hreads := hrecords i
  have htext : dataLines s i indent =
      String.join ((records i).1.map (attributeLine indent)) ++
        String.join ((records i).2.toList.map (failureLine indent)) := by
    rw [dataLines, ← hreads.eq_rangeAttributes]
  rw [htext]
  refine Laid.append (laid_replicate fun a ha ↦ ?_) ?_
  · exact laid_attributeLine hindent (hreads.isLine hs a ha)
  · cases hstop : (records i).2 with
    | none => exact laid_nil
    | some e =>
      rw [hstop] at hreads
      have hline := laid_failureLine hindent (hreads.dataError.oneLine hs.types)
      simpa using hline

theorem yields_lines [Places] (scheme : AttributeScheme) :
    Yields (Laid (scheme.layout s records i indent)) (scheme.lines s i indent) := by
  cases scheme with
  | generator => exact yields_generatorLines hs i hindent
  | data => exact laid_dataLines hs hrecords i hindent

end

end AttributeScheme

namespace Metadata

variable (m : Metadata) (c : Config) (records : Nat → List Attribute × Option Error)
  (image : ImageRow)

def shownLayout (index : Int32) (token : UInt32) (indent : String) : List LineKind :=
  if c.attributes then
    match AttributeScheme.ofVersion? m.version, m.attributeIndex? image index token with
    | some scheme, some i => scheme.layout m.toSnapshot records i indent
    | _, _ => []
  else []

def layoutAt {α : Type} (rows : Array α) (layout : Nat → α → List LineKind) (position : Int) :
    List LineKind :=
  (rows[position.toNat]?).elim [] (layout position.toNat)

def fieldLayout (_ : Nat) (row : FieldRow) : List LineKind :=
  m.shownLayout c records image row.customAttributeIndex row.token "\t" ++ [.field]

def propertyLayout (_ : Nat) (row : PropertyRow) : List LineKind :=
  m.shownLayout c records image row.customAttributeIndex row.token "\t" ++ [.property]

/-- The block of the specializations of a method, with a group for each pointer that they have. -/
def specsLayout (rows : List MethodSpec) : List LineKind :=
  if rows.isEmpty then []
  else
    .genericsStart :: ((rows.map MethodSpec.pointer).eraseDups.flatMap fun p ↦
      .groupBar :: .groupAddress :: (rows.filter (·.pointer = p)).map fun _ ↦ .instantiation) ++
        [.genericsEnd]

def methodLayout (position : Nat) (row : MethodRow) : List LineKind :=
  .blank :: m.shownLayout c records image row.customAttributeIndex row.token "\t" ++
    addressLayout c ++ [.signature] ++ specsLayout (m.specRows position)

def sectionLayouts (row : TypeRow) : List (List LineKind) :=
  let fields := layoutAt m.fields (m.fieldLayout c records image)
  let properties := layoutAt m.properties (m.propertyLayout c records image)
  let methods := layoutAt m.methods (m.methodLayout c records image)
  sectionLayout c.fields "Fields" (row.fieldRange.positions.map fields) ++
    sectionLayout c.properties "Properties" (row.propertyRange.positions.map properties) ++
    sectionLayout c.methods "Methods" (row.methodRange.positions.map methods)

def typeLayout (_ : Nat) (row : TypeRow) : List LineKind :=
  [.blank, .space] ++ (m.shownLayout c records image row.customAttributeIndex row.token "" ++
      if c.attributes && Flags.isSerializable row.flags then [.serializable] else []) ++
    [.declaration (Flags.typeHeader row.flags row.isValueType row.isEnum).category] ++
    bodyLayout (m.sectionLayouts c records image row)

def imageLayout : Outcome → List LineKind
  | .assembled _ => image.typeIndices.flatMap fun (index : Nat) ↦
    layoutAt m.typeDefs (m.typeLayout c records image) index
  | .failed _ => [.failureName, .failureMessage]

def dumpLayout [Places] : List LineKind :=
  (List.range m.images.length).map .header ++
    (m.images.zip (m.assemble c)).flatMap fun p ↦ m.imageLayout c records p.1 p.2

section Members

variable {m c records image} (hs : m.SingleLine)

theorem layoutAt_of_rowAt {α : Type} {rows : Array α} {layout : Nat → α → List LineKind}
    {position : Int} {row : α} (h : RowAt rows position row) :
    layoutAt rows layout position = layout position.toNat row := by
  rw [layoutAt, h.2, Option.elim_some]

theorem yields_typeReference (i : Int32) : Yields (fun _ ↦ True) (m.typeReference i) :=
  (yields_lookup_row _ _ _).map fun _ _ ↦ trivial

theorem isLine_literal? (recorded : Option DefaultRow) :
    ∀ l ∈ m.literal? recorded, IsLine l.suffix := by
  intro l hl
  obtain ⟨row, _, rfl⟩ := Option.map_eq_some_iff.1 hl
  exact IsLine.suffix_literal _

theorem yields_members {α : Type} {isShown : Bool} {range : RowRange} {assemble : Int → Assembly α}
    {r : Int → α → Prop} (h : ∀ position, Yields (r position) (assemble position).direct) :
    Yields (fun as ↦ isShown = true → List.Forall₂ r range.positions as)
      (members isShown range assemble).direct := by
  unfold members
  cases isShown with
  | false => exact nofun
  | true =>
    rw [if_pos rfl, Assembly.direct_mapM]
    exact (answers_mapM fun position _ ↦ h position).mono fun as has _ ↦ has

theorem yields_checkTypes : Yields (fun _ ↦ True) (m.checkTypes image) :=
  answers_ite (fun _ ↦ trivial) fun _ ↦ (yields_lookup_row _ _ _).bind fun _ _ ↦ trivial

include hs

theorem yields_genericSuffix (container : Int32) : Yields IsLine (m.genericSuffix container) :=
  answers_ite (fun _ ↦ IsLine.literal (by decide)) fun _ ↦ hs.yields_genericParams container

theorem yields_assembleAccessor (owner : TypeRow) (relative : Int32) (isSetter : Bool) :
    Yields (fun a ↦ ∀ x ∈ a, IsLine x.typeName)
      (m.assembleAccessor owner relative isSetter).direct := by
  unfold assembleAccessor
  split
  · exact nofun
  · simp only [Assembly.direct_bind, Assembly.direct_lift, Assembly.direct_pure]
    refine (yields_lookup_row _ _ _).bind fun method _ ↦ ?_
    have htype : Yields (fun _ ↦ True) (m.accessorType method isSetter) :=
      answers_ite (fun _ ↦ (yields_lookup_row _ _ _).map fun _ _ ↦ trivial) fun _ ↦ trivial
    refine htype.bind fun type _ ↦ ?_
    refine Answers.bind (p := fun _ ↦ True) trivial fun modifiers _ ↦ ?_
    refine (hs.yields_typeName _).bind fun typeName htypeName ↦ ?_
    intro accessor haccessor
    obtain rfl := Option.some.inj haccessor
    exact htypeName

theorem yields_assembleParameter (position : Int) :
    Yields ParameterOnLine (m.assembleParameter position) := by
  refine (yields_lookup_row _ _ _).bind fun row _ ↦ ?_
  refine (yields_typeReference _).bind fun reference _ ↦ ?_
  refine (hs.yields_typeName _).bind fun typeName htype ↦ ?_
  refine (hs.yields_text _).bind fun name hname ↦ ?_
  exact ⟨htype, hname, isLine_literal? _⟩

omit hs in
theorem genericsLayout_genericGroups (method : Nat) :
    genericsLayout (m.genericGroups method) = specsLayout (m.specRows method) := by
  have hgroups := m.groupedFrom_specRows method
  have hpointers := m.map_pointer_genericGroups method
  have hempty : (m.genericGroups method).isEmpty = (m.specRows method).isEmpty := by
    have hlength := congrArg List.isEmpty hpointers
    rw [List.isEmpty_map] at hlength
    rw [hlength]
    cases m.specRows method with
    | nil => rfl
    | cons spec rows =>
      rw [List.map_cons, List.eraseDups_cons]
      rfl
  have hgroup : ∀ g ∈ m.genericGroups method, groupLayout g =
      .groupBar :: .groupAddress ::
        ((m.specRows method).filter (·.pointer = g.pointer)).map fun _ ↦ .instantiation := by
    intro g hg
    rw [groupLayout, hgroups.instances g hg, GenericGroup.instancesOf, List.map_map]
    rfl
  unfold genericsLayout specsLayout
  rw [hempty, ← hpointers, List.flatMap_map, List.flatMap_congr hgroup]

theorem isLine_genericGroups (method : Nat) : ∀ g ∈ m.genericGroups method,
    ∀ i ∈ g.instances, IsLine i.typeName ∧ IsLine i.methodName := by
  refine GenericGroup.forall_instances_ofSpecs fun spec hspec ↦ ?_
  obtain ⟨position, _, hrow⟩ := List.mem_filterMap.1 hspec
  exact hs.specs spec (Array.mem_of_getElem? hrow)

theorem yields_bases (row : TypeRow) :
    Yields (fun bases ↦ ∀ b ∈ bases, IsLine b) (m.baseNames row) := by
  have hparents : Yields (fun parents ↦ ∀ b ∈ parents, IsLine b) (m.parentNames row) := by
    refine answers_ite (fun _ ↦ List.forall_mem_nil _) fun _ ↦ ?_
    refine (hs.yields_typeName _).bind fun parent hparent ↦ ?_
    cases hshown : !row.isValueType && !row.isEnum && parent != rootName with
    | true => simpa [Answers, pure, Except.pure] using hparent
    | false => simp [Answers, pure, Except.pure]
  have hinterface (position : Int) : Yields IsLine (m.interfaceName position) :=
    (yields_lookup_row _ _ _).bind fun type _ ↦ hs.yields_typeName type
  refine hparents.bind fun parents hparents ↦ ?_
  refine (answers_mapM fun position _ ↦ hinterface position).bind fun interfaces hinterfaces ↦ ?_
  exact List.forall_mem_append.2 ⟨hparents, forall_mem_of_forall₂ hinterfaces⟩

theorem yields_typeDefName (index : Nat) : Yields IsLine (m.typeDefName index false true) := by
  refine (yields_lookup_row _ _ _).bind fun row _ ↦ ?_
  refine Answers.bind (p := IsLine) (IsLine.literal (by decide)) fun front hfront ↦ ?_
  refine (hs.yields_text _).bind fun name hname ↦ ?_
  refine (yields_genericSuffix hs _).bind fun back hback ↦ ?_
  exact (hfront.append hname).append hback

variable [Places]
  (hrecords : ∀ i, AttributeScheme.RangeReads m.toSnapshot i (records i).1 (records i).2)

include hrecords

theorem yields_shownAttributes (index : Int32) (token : UInt32) {indent : String}
    (hindent : IsLine indent) :
    Yields (Laid (m.shownLayout c records image index token indent))
      (m.shownAttributes c image index token indent) := by
  unfold shownLayout shownAttributes attributeLines
  split
  · cases AttributeScheme.ofVersion? m.version with
    | none => exact laid_nil
    | some scheme =>
      cases m.attributeIndex? image index token with
      | none => exact laid_nil
      | some i => exact AttributeScheme.yields_lines hs hrecords i hindent scheme
  · exact laid_nil

theorem yields_assembleField (type : Nat) (owner : TypeRow) (position : Int) :
    Yields (fun f ↦ Laid (layoutAt m.fields (m.fieldLayout c records image) position)
      (Text.field f))
      (m.assembleField c image type owner position) := by
  have htab : IsLine "\t" := IsLine.literal (by decide)
  refine (yields_rowAt _ _ _).bind fun row hrow ↦ ?_
  refine (yields_typeReference _).bind fun reference _ ↦ ?_
  refine (yields_shownAttributes hs hrecords _ _ htab).bind fun attributes hattributes ↦ ?_
  refine (hs.yields_typeName _).bind fun typeName htype ↦ ?_
  refine (hs.yields_text _).bind fun name hname ↦ ?_
  rw [layoutAt_of_rowAt hrow]
  exact laid_field hattributes htype hname (isLine_literal? _)

theorem yields_assembleProperty (owner : TypeRow) (position : Int) :
    Yields (fun p ↦ Laid (layoutAt m.properties (m.propertyLayout c records image) position)
      (Text.property p)) (m.assembleProperty c image owner position).direct := by
  have htab : IsLine "\t" := IsLine.literal (by decide)
  simp only [assembleProperty, Assembly.direct_bind, Assembly.direct_lift, Assembly.direct_pure]
  refine (yields_rowAt _ _ _).bind fun row hrow ↦ ?_
  refine (yields_shownAttributes hs hrecords _ _ htab).bind fun attributes hattributes ↦ ?_
  refine (hs.yields_text _).bind fun name hname ↦ ?_
  refine (yields_assembleAccessor hs _ _ _).bind fun getter hgetter ↦ ?_
  refine (yields_assembleAccessor hs _ _ _).bind fun setter hsetter ↦ ?_
  rw [layoutAt_of_rowAt hrow]
  refine laid_property hattributes hname fun accessor haccessor ↦ ?_
  rcases (Option.orElse_eq_some _ _ _).1 haccessor with hfirst | ⟨_, hsecond⟩
  · exact hgetter accessor hfirst
  · exact hsetter accessor hsecond

theorem yields_assembleMethod (imageName : String) (position : Int) :
    Yields (fun d ↦ Laid (layoutAt m.methods (m.methodLayout c records image) position)
      (Text.method c d)) (m.assembleMethod c image imageName position).direct := by
  have htab : IsLine "\t" := IsLine.literal (by decide)
  simp only [assembleMethod, Assembly.direct_bind, Assembly.direct_lift, Assembly.direct_pure]
  refine (yields_rowAt _ _ _).bind fun row hrow ↦ ?_
  refine (yields_shownAttributes hs hrecords _ _ htab).bind fun attributes hattributes ↦ ?_
  refine (hs.yields_text _).bind fun name hname ↦ ?_
  refine (yields_genericSuffix hs _).bind fun suffix hsuffix ↦ ?_
  refine (yields_typeReference _).bind fun reference _ ↦ ?_
  refine (answers_mapM fun p _ ↦ yields_assembleParameter hs p).bind fun parameters hparameters ↦ ?_
  refine Answers.bind (p := fun _ ↦ True) trivial fun modifiers _ ↦ ?_
  refine (hs.yields_typeName _).bind fun returnType htype ↦ ?_
  rw [layoutAt_of_rowAt hrow, methodLayout, ← genericsLayout_genericGroups]
  exact laid_method hattributes htype (hname.append hsuffix) (forall_mem_of_forall₂ hparameters)
    (isLine_genericGroups hs _)

theorem yields_assembleType (imageName : String) (index : Nat) :
    Yields (fun t ↦ Laid (layoutAt m.typeDefs (m.typeLayout c records image) index) (Text.type c t))
      (m.assembleType c image imageName index).direct := by
  simp only [assembleType, Assembly.direct_bind, Assembly.direct_lift, Assembly.direct_pure]
  refine (yields_rowAt _ _ _).bind fun row hrow ↦ ?_
  refine (yields_bases hs row).bind fun bases hbases ↦ ?_
  refine (hs.yields_text _).bind fun space hspace ↦ ?_
  refine (yields_shownAttributes hs hrecords _ _ (IsLine.literal (by decide))).bind
    fun attributes hattributes ↦ ?_
  refine (yields_typeDefName hs index).bind fun name hname ↦ ?_
  refine (yields_members fun p ↦ yields_assembleField hs hrecords index row p).bind
    fun fields hfields ↦ ?_
  refine (yields_members fun p ↦ yields_assembleProperty hs hrecords row p).bind
    fun properties hproperties ↦ ?_
  refine (yields_members fun p ↦ yields_assembleMethod hs hrecords imageName p).bind
    fun methods hmethods ↦ ?_
  rw [layoutAt_of_rowAt hrow]
  have htitle : IsLine "Fields" ∧ IsLine "Properties" ∧ IsLine "Methods" :=
    ⟨IsLine.literal (by decide), IsLine.literal (by decide), IsLine.literal (by decide)⟩
  have hsections := ((sectionsLaid_memberSection htitle.1
    fun h ↦ List.forall₂_map_left_iff.2 (hfields h)).append (sectionsLaid_memberSection htitle.2.1
    fun h ↦ List.forall₂_map_left_iff.2 (hproperties h))).append (sectionsLaid_memberSection
    htitle.2.2 fun h ↦ List.forall₂_map_left_iff.2 (hmethods h))
  refine laid_type hspace ?_ hname hbases hsections
  cases hshown : c.attributes with
  | true => exact laid_attributeLines hattributes
  | false =>
    have hnone : m.shownLayout c records image row.customAttributeIndex row.token "" = [] := by
      simp [shownLayout, hshown]
    rw [hnone]
    exact laid_nil

theorem yields_assembleImage (index : Nat) :
    Yields (fun decl ↦ decl.index = index ∧ IsLine decl.name ∧
      Laid (m.imageLayout c records image (.assembled decl)) (Text.image c (.assembled decl)))
      (m.assembleImage c index image).direct := by
  simp only [assembleImage, Assembly.direct_bind, Assembly.direct_lift, Assembly.direct_pure,
    Assembly.direct_mapM]
  refine (hs.yields_text _).bind fun name hname ↦ Answers.bind yields_checkTypes fun _ _ ↦ ?_
  refine (answers_mapM fun type _ ↦ yields_assembleType hs hrecords name type).bind
    fun types htypes ↦ ?_
  exact ⟨rfl, hname, laid_flatMap htypes⟩

theorem laid_outcome (index : Nat) :
    Laid [.header index]
        (Text.imageLine (m.outcome index image (m.assembleImage c index image).direct)) ∧
      Laid (m.imageLayout c records image
          (m.outcome index image (m.assembleImage c index image).direct))
        (Text.image c (m.outcome index image (m.assembleImage c index image).direct)) := by
  have hyields : Yields _ (m.assembleImage c index image).direct :=
    yields_assembleImage hs hrecords index
  cases hresult : (m.assembleImage c index image).direct with
  | ok decl =>
    obtain ⟨hindex, hname, hlaid⟩ := hyields.of_ok hresult
    refine ⟨?_, hlaid⟩
    rw [← hindex]
    exact laid_imageLine hname
  | error e =>
    have hname : IsLine ((m.text image.nameIndex).toOption.getD "") := by
      have htext := hs.yields_text image.nameIndex
      cases h : m.text image.nameIndex with
      | ok name => exact htext.of_ok h
      | error _ => exact IsLine.literal (by decide)
    exact ⟨laid_imageLine hname, laid_failure hname (IsLine.message (hyields.of_error hresult))⟩

end Members

theorem laid_render_of_rangeReads [Places] (h : m.SingleLine)
    (hrecords : ∀ i, AttributeScheme.RangeReads m.toSnapshot i (records i).1 (records i).2) :
    Laid (m.dumpLayout c records) (Text.render c (m.assemble c)) := by
  -- Images are taken with their positions, on which their outcomes depend.
  let result (p : ImageRow × Nat) : Outcome :=
    m.outcome p.2 p.1 (m.assembleImage c p.2 p.1).direct
  have hsolo : m.assemble c = m.images.zipIdx.map result := m.assemble_eq_soloOutcomes c
  have hheaders : Laid ((List.range m.images.length).map .header)
      (String.join ((m.assemble c).map Text.imageLine)) := by
    have hlaid : Laid (m.images.zipIdx.flatMap fun p ↦ [.header p.2])
        (String.join (m.images.zipIdx.map fun p ↦ Text.imageLine (result p))) :=
      laid_flatMap (List.forall₂_same.2 fun p _ ↦ (laid_outcome h hrecords p.2).1)
    rw [List.range_eq_range', ← List.zipIdx_map_snd 0 m.images, List.map_map, hsolo, List.map_map,
      List.map_eq_flatMap]
    exact hlaid
  have himages : Laid ((m.images.zip (m.assemble c)).flatMap fun p ↦
      m.imageLayout c records p.1 p.2) (String.join ((m.assemble c).map (Text.image c))) := by
    have hlaid : Laid (m.images.zipIdx.flatMap fun p ↦ m.imageLayout c records p.1 (result p))
        (String.join (m.images.zipIdx.map fun p ↦ Text.image c (result p))) :=
      laid_flatMap (List.forall₂_same.2 fun p _ ↦ (laid_outcome h hrecords p.2).2)
    have hzip : m.images.zip (m.images.zipIdx.map result) =
        m.images.zipIdx.map fun p ↦ (p.1, result p) := by
      rw [← List.zip_map', List.zipIdx_map_fst]
    rw [hsolo, hzip, List.flatMap_map, List.map_map]
    exact hlaid
  exact hheaders.append himages

/-- The text of a dump is made of one line of each kind that its layout asks for, in order, and ends
with a line feed if it has any. What the layout asks for if attributes are data are the records that
can be read of each range, up to the first failure. -/
theorem laid_render [Places] (h : m.SingleLine) :
    ∃ records : Nat → List Attribute × Option Error,
      (∀ i as failure, AttributeScheme.RangeReads m.toSnapshot i as failure ↔
        (as, failure) = records i) ∧
      Laid (m.dumpLayout c records) (Text.render c (m.assemble c)) ∧
      (Text.render c (m.assemble c) ≠ "" →
        ∃ front, Text.render c (m.assemble c) = front ++ "\n") := by
  have hlaid := laid_render_of_rangeReads m c _ h
    (AttributeScheme.rangeReads_rangeAttributes m.toSnapshot)
  exact ⟨_, fun _ _ _ ↦ AttributeScheme.rangeReads_iff, hlaid, hlaid.exists_eq_append⟩

/-- Shapes and squares with a default value of two lines, attribute data that end too early, and a
third image whose name is not there. -/
def twoLines : Snapshot :=
  { Snapshot.shapes ⟨29, 0⟩ with
    images := [⟨0, 0, 1, 0, 0, 1⟩, .squares, ⟨99, 0, 0, 0, 0, 1⟩]
    literals := (∅ : Std.ExtTreeMap Int32 DefaultValue).insert 7 (.string "up\ndown")
    attributeDataRanges := #[⟨0x02000002, 0⟩, ⟨0, 3⟩]
    attributeData := ⟨#[1, 0, 0]⟩ }

theorem singleLine_twoLines : twoLines.SingleLine where
  strings := by
    intro text htext
    simp only [twoLines, Snapshot.shapes, List.mem_toArray, List.mem_cons, List.not_mem_nil,
      or_false] at htext
    rcases htext with rfl | rfl | rfl | rfl | rfl | rfl | rfl | rfl | rfl <;>
      exact IsLine.literal (by decide)
  types := by
    intro entry hentry
    simp only [twoLines, Snapshot.shapes, List.mem_toArray, List.mem_cons, List.not_mem_nil,
      or_false] at hentry
    rcases hentry with rfl | rfl | rfl | rfl | rfl <;> exact IsLine.literal (by decide)
  params := nofun
  specs := nofun

def fieldsOnly : Config := { Config.full with properties := false, methods := false }

def twoLinesKinds : List LineKind :=
  [.header 0, .header 1, .header 2, .blank, .space, .declaration .reference, .openBrace,
    .title "Fields", .field, .closeBrace, .blank, .space, .diagnostic "", .serializable,
    .declaration .reference, .openBrace, .title "Fields", .field, .closeBrace, .failureName,
    .failureMessage]

open scoped Places in
theorem laid_render_twoLines :
    twoLines.SingleLine ∧ ∃ records : Nat → List Attribute × Option Error,
      (∀ i as failure, AttributeScheme.RangeReads twoLines i as failure ↔
        (as, failure) = records i) ∧
      (ofSnapshot twoLines).dumpLayout fieldsOnly records = twoLinesKinds ∧
      Laid twoLinesKinds (Text.render fieldsOnly ((ofSnapshot twoLines).assemble fieldsOnly)) := by
  have hkinds : (ofSnapshot twoLines).dumpLayout fieldsOnly
      (AttributeScheme.rangeAttributes twoLines) = twoLinesKinds := by decide
  obtain ⟨records, hrecords, hlaid, -⟩ :=
    laid_render (ofSnapshot twoLines) fieldsOnly singleLine_twoLines
  have heq : AttributeScheme.rangeAttributes twoLines = records := by
    funext i
    exact (hrecords i _ _).1 (AttributeScheme.rangeReads_rangeAttributes twoLines i)
  rw [heq] at hkinds
  rw [hkinds] at hlaid
  exact ⟨singleLine_twoLines, records, hrecords, hkinds, hlaid⟩

end Metadata

end MetadataDump
