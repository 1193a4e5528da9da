import MetadataDump.Proofs.Assembly.Answers

namespace MetadataDump

section Copies

variable {α β : Type} {rows : Array α} {range : RowRange} {shows : Nat → α → β → Prop}
  {items : List β}

/-- One item for each row of a range, in order. What the item `j` shows of its row is told by
`shows j`. -/
structure Copies (rows : Array α) (range : RowRange) (shows : Nat → α → β → Prop)
    (items : List β) : Prop where
  length : items.length = range.count.toNat
  item : ∀ j < range.count.toNat, ∃ row item,
    RowAt rows (range.start.toInt + (j : Int)) row ∧ items[j]? = some item ∧ shows j row item

structure CopiesIf (isShown : Bool) (rows : Array α) (range : RowRange)
    (shows : Nat → α → β → Prop) (items : List β) : Prop where
  shown : isShown = true → Copies rows range shows items
  hidden : isShown = false → items = []

theorem getElem?_of_mapM_eq_ok {ε γ δ : Type} {f : γ → Except ε δ} {as : List γ} {bs : List δ}
    (h : as.mapM f = .ok bs) {j : Nat} {a : γ} (ha : as[j]? = some a) :
    ∃ b, bs[j]? = some b ∧ f a = .ok b := by
  have hj := congrArg (·[j]?) (mapM_eq_ok_iff.1 h)
  simp only [List.getElem?_map, ha, Option.map_some] at hj
  obtain ⟨b, hb, he⟩ := Option.map_eq_some_iff.1 hj.symm
  exact ⟨b, hb, he.symm⟩

theorem length_of_mapM_eq_ok {ε γ δ : Type} {f : γ → Except ε δ} {as : List γ} {bs : List δ}
    (h : as.mapM f = .ok bs) : bs.length = as.length := by
  have hlength := congrArg List.length (mapM_eq_ok_iff.1 h)
  rwa [List.length_map, List.length_map, eq_comm] at hlength

theorem RowRange.getElem?_positions {j : Nat} (hj : j < range.count.toNat) :
    range.positions[j]? = some (range.start.toInt + (j : Int)) := by
  rw [positions, List.getElem?_map, List.getElem?_range hj, Option.map_some]

theorem copies_of_mapM {f : Int → Except Error β}
    (hf : ∀ (j : Nat) item, f (range.start.toInt + (j : Int)) = .ok item →
      ∃ row, RowAt rows (range.start.toInt + (j : Int)) row ∧ shows j row item)
    (h : range.positions.mapM f = .ok items) : Copies rows range shows items where
  length := by rw [length_of_mapM_eq_ok h, RowRange.positions, List.length_map, List.length_range]
  item j hj := by
    obtain ⟨item, hitem, hstep⟩ := getElem?_of_mapM_eq_ok h (RowRange.getElem?_positions hj)
    obtain ⟨row, hrow, hshows⟩ := hf j item hstep
    exact ⟨row, item, hrow, hitem, hshows⟩

theorem copiesIf_of_members {answer : Nat → UInt32 → List Modifier} {isShown : Bool}
    {assemble : Int → Assembly β}
    (hf : ∀ (j : Nat) item, (assemble (range.start.toInt + (j : Int))).answered answer = .ok item →
      ∃ row, RowAt rows (range.start.toInt + (j : Int)) row ∧ shows j row item)
    (h : (Metadata.members isShown range assemble).answered answer = .ok items) :
    CopiesIf isShown rows range shows items := by
  cases isShown with
  | true =>
    rw [Metadata.members, if_pos rfl, Assembly.answered_mapM] at h
    exact ⟨fun _ ↦ copies_of_mapM hf h, nofun⟩
  | false => exact ⟨nofun, fun _ ↦ (Except.ok.inj h).symm⟩

theorem Copies.exists_row (h : Copies rows range shows items) {j : Nat} {item : β}
    (hj : items[j]? = some item) :
    ∃ row, RowAt rows (range.start.toInt + (j : Int)) row ∧ shows j row item := by
  obtain ⟨hlt, -⟩ := List.getElem?_eq_some_iff.1 hj
  rw [h.length] at hlt
  obtain ⟨row, item', hrow, hitem', hshows⟩ := h.item j hlt
  obtain rfl := Option.some.inj (hj.symm.trans hitem')
  exact ⟨row, hrow, hshows⟩

theorem CopiesIf.exists_row {isShown : Bool} (h : CopiesIf isShown rows range shows items)
    {j : Nat} {item : β} (hj : items[j]? = some item) :
    ∃ row, RowAt rows (range.start.toInt + (j : Int)) row ∧ shows j row item := by
  cases isShown with
  | true => exact (h.shown rfl).exists_row hj
  | false =>
    rw [h.hidden rfl] at hj
    cases hj

end Copies

namespace Metadata

variable (m : Metadata) (c : Config) (answer : Nat → UInt32 → List Modifier) (image : ImageRow)

def DefaultShows (recorded : Option DefaultRow) (shown : Option Literal) : Prop :=
  ∀ literal, shown = some literal ↔ ∃ value, recorded = some value ∧ value.dataIndex ≠ -1 ∧
    literal = (m.defaultValue value.dataIndex).literal

/-- What a field shows of its flags. Constants have no offset; that of any other field is recorded
by position among the fields of its type. -/
structure FieldFlagsShow (type : Nat) (owner : TypeRow) (j : Nat) (header : Flags.FieldHeader)
    (f : FieldDecl) : Prop where
  modifiers : f.modifiers = header.modifiers
  isConst : f.isConst = header.isConst
  offset : f.offset = if c.fieldOffsets && !header.isConst then
    some (m.fieldOffset type j owner.isValueType header.isStatic) else none

structure FieldShows [Places] (type : Nat) (owner : TypeRow) (j : Nat) (row : FieldRow)
    (f : FieldDecl) : Prop where
  name : m.text row.nameIndex = .ok f.name
  typeName : m.typeName row.typeIndex = .ok f.typeName
  flags : ∃ reference, m.typeReference row.typeIndex = .ok reference ∧
    m.FieldFlagsShow c type owner j (Flags.fieldHeader reference.attrs.toUInt32) f
  default : m.DefaultShows (m.fieldDefault? (owner.fieldStart.toInt + (j : Int)).toNat) f.default
  attributes :
    m.shownAttributes c image row.customAttributeIndex row.token "\t" = .ok f.attributes

/-- An accessor is there exactly if its position is not negative; its method is counted from the
first one of the owner, and `IsType` tells which type it shows. -/
def AccessorShows (owner : TypeRow) (relative : Int32) (IsType : MethodRow → Int32 → Prop) :
    Option Accessor → Prop
  | none => relative.toInt < 0
  | some accessor => 0 ≤ relative.toInt ∧ ∃ method type,
      RowAt m.methods (owner.methodStart.toInt + relative.toInt) method ∧
      (accessor.method : Int) = owner.methodStart.toInt + relative.toInt ∧
      accessor.modifiers = answer accessor.method method.flags.toUInt32 ∧
      IsType method type ∧ m.typeName type = .ok accessor.typeName

structure PropertyShows [Places] (owner : TypeRow) (row : PropertyRow) (p : PropertyDecl) :
    Prop where
  name : m.text row.nameIndex = .ok p.name
  getter : m.AccessorShows answer owner row.get
    (fun method type ↦ type = method.returnType) p.getter
  setter : m.AccessorShows answer owner row.set
    (fun method type ↦ ∃ parameter, RowAt m.parameters method.parameterStart.toInt parameter ∧
      type = parameter.typeIndex) p.setter
  attributes :
    m.shownAttributes c image row.customAttributeIndex row.token "\t" = .ok p.attributes

structure ParameterShows (method : MethodRow) (j : Nat) (row : ParameterRow)
    (p : ParameterDecl) : Prop where
  name : m.text row.nameIndex = .ok p.name
  typeName : m.typeName row.typeIndex = .ok p.typeName
  direction : ∃ reference, m.typeReference row.typeIndex = .ok reference ∧
    p.direction = .ofReference reference
  default :
    m.DefaultShows (m.parameterDefault? (method.parameterStart.toInt + (j : Int)).toNat) p.default

def NameShows (nameIndex : UInt32) (container : Int32) (shown : String) : Prop :=
  ∃ name suffix, m.text nameIndex = .ok name ∧ m.genericSuffix container = .ok suffix ∧
    shown = name ++ suffix

structure MethodShows [Places] (imageName : String) (owner : TypeRow) (j : Nat) (row : MethodRow)
    (d : MethodDecl) : Prop where
  index : (d.index : Int) = owner.methodStart.toInt + (j : Int)
  name : m.NameShows row.nameIndex row.genericContainerIndex d.name
  modifiers : d.modifiers = answer d.index row.flags.toUInt32
  returnType : m.typeName row.returnType = .ok d.returnType
  returnsByRef : ∃ reference, m.typeReference row.returnType = .ok reference ∧
    d.returnsByRef = reference.byref
  parameters : Copies m.parameters row.parameterRange (m.ParameterShows row) d.parameters
  isAbstract : d.isAbstract = Flags.isAbstractMethod row.flags.toUInt32
  address : d.address = if c.methodOffsets then m.methodAddress? imageName row else none
  slot : d.slot = if c.methodOffsets then row.slot? else none
  generics : d.generics = m.genericGroups d.index
  attributes :
    m.shownAttributes c image row.customAttributeIndex row.token "\t" = .ok d.attributes

/-- The parent that a type shows: that of a class, unless it is the root of all classes. -/
structure ParentShows (row : TypeRow) (parent : String) : Prop where
  isPresent : 0 ≤ row.parentIndex.toInt
  isClass : row.isValueType = false ∧ row.isEnum = false
  name : m.typeName row.parentIndex = .ok parent
  isNotRoot : parent ≠ rootName

def BasesShow (row : TypeRow) (bases : List String) : Prop :=
  ∃ (parent : Option String) (interfaces : List String), bases = parent.toList ++ interfaces ∧
    (∀ name, parent = some name ↔ m.ParentShows row name) ∧
    Copies m.interfaceIndices row.interfaceRange (fun _ type name ↦ m.typeName type = .ok name)
      interfaces

structure TypeShows [Places] (imageName : String) (type : Nat) (row : TypeRow) (t : TypeDecl) :
    Prop where
  index : t.index = type
  space : m.text row.namespaceIndex = .ok t.space
  name : m.NameShows row.nameIndex row.genericContainerIndex t.name
  header : Flags.typeHeader row.flags row.isValueType row.isEnum =
    ⟨t.access, t.modifier, t.category⟩
  bases : m.BasesShow row t.bases
  isSerializable : t.isSerializable = (c.attributes && Flags.isSerializable row.flags)
  attributes : m.shownAttributes c image row.customAttributeIndex row.token "" = .ok t.attributes
  fields : CopiesIf c.fields m.fields row.fieldRange (m.FieldShows c image type row) t.fields
  properties : CopiesIf c.properties m.properties row.propertyRange
    (fun _ ↦ m.PropertyShows c answer image row) t.properties
  methods : CopiesIf c.methods m.methods row.methodRange
    (m.MethodShows c answer image imageName row) t.methods

/-- What an image shows of its row and of the rows of its types. -/
structure ImageShows [Places] (index : Nat) (decl : ImageDecl) : Prop where
  index : decl.index = index
  name : m.text image.nameIndex = .ok decl.name
  typeStart : decl.typeStart = image.typeStart
  length : decl.types.length = image.typeCount.toNat
  type : ∀ i < image.typeCount.toNat, ∃ row t,
    m.typeDefs[image.typeStart.toNat + i]? = some row ∧ decl.types[i]? = some t ∧
      m.TypeShows c answer image decl.name (image.typeStart.toNat + i) row t

variable {m c answer image}

theorem ImageShows.exists_type [Places] {index : Nat} {decl : ImageDecl}
    (h : m.ImageShows c answer image index decl) {i : Nat} {t : TypeDecl}
    (hi : decl.types[i]? = some t) : ∃ row, m.typeDefs[image.typeStart.toNat + i]? = some row ∧
      m.TypeShows c answer image decl.name (image.typeStart.toNat + i) row t := by
  obtain ⟨hlt, -⟩ := List.getElem?_eq_some_iff.1 hi
  rw [h.length] at hlt
  obtain ⟨row, t', hrow, ht', hshows⟩ := h.type i hlt
  obtain rfl := Option.some.inj (hi.symm.trans ht')
  exact ⟨row, hrow, hshows⟩

end Metadata

end MetadataDump
