import MetadataDump.Proofs.Dump.Listing

namespace MetadataDump.Dump

/-- A part of the text: where the code at a pointer lies, if that is told, or anything else. -/
inductive Part
  | code (pointer : UInt64) (address : Option Address)
  | other (text : String)

namespace Part

def text : Part → String
  | .code _ address => Text.address address
  | .other text => text

/-- Code that is not known has no address, and an address fits the image base. -/
def Resolved (base : UInt64) : Part → Prop
  | .code pointer address =>
    (pointer = 0 → address = none) ∧ ∀ a, address = some a → a.va ≠ 0 ∧ a.rva + base = a.va
  | .other _ => True

end Part

def joined (ps : List Part) : String := String.join (ps.map Part.text)

section Joined

variable {ps qs : List Part}

@[simp] theorem joined_nil : joined [] = "" := rfl

@[simp] theorem joined_cons (p : Part) : joined (p :: ps) = p.text ++ joined ps := by
  rw [joined, List.map_cons, String.join_cons, joined]

@[simp] theorem joined_append : joined (ps ++ qs) = joined ps ++ joined qs := by
  rw [joined, List.map_append, String.join_append, joined, joined]

theorem joined_flatMap {α : Type} {f : α → List Part} {g : α → String} {as : List α}
    (h : ∀ a ∈ as, joined (f a) = g a) : joined (as.flatMap f) = String.join (as.map g) := by
  induction as with
  | nil => rfl
  | cons a as ih =>
    rw [List.flatMap_cons, joined_append, List.map_cons, String.join_cons,
      h a List.mem_cons_self, ih fun b hb ↦ h b (List.mem_cons_of_mem a hb)]

end Joined

section Methods

variable {s : Snapshot} {c : Config} {base pointer : UInt64} {p : Part}

def addressParts (c : Config) (pointer : UInt64) (d : MethodDecl) : List Part :=
  if c.methodOffsets then
    [.other "\t// ", .code pointer d.address,
      .other (((d.slot.map fun slot ↦ " Slot: " ++ toString slot.toNat).getD "") ++ "\n")]
  else []

def groupParts (g : GenericGroup) : List Part :=
  [.other "\t|\n\t|-", .code g.pointer g.address,
    .other ("\n" ++ String.join (g.instances.map Text.instanceLine))]

def genericParts (groups : List GenericGroup) : List Part :=
  if groups.isEmpty then []
  else .other "\t/* GenericInstMethod :\n" :: groups.flatMap groupParts ++ [.other "\t*/\n"]

def methodParts (c : Config) (pointer : UInt64) (d : MethodDecl) : List Part :=
  addressParts c pointer d ++ .other (Text.signature d) :: genericParts d.generics

theorem joined_addressParts (pointer : UInt64) (d : MethodDecl) :
    joined (addressParts c pointer d) = Text.addressLine c d := by
  unfold addressParts Text.addressLine
  split
  · simp [Part.text, String.append_assoc]
  · rfl

theorem joined_groupParts (g : GenericGroup) : joined (groupParts g) = Text.group g := by
  simp [groupParts, Text.group, Part.text, String.append_assoc]

theorem joined_genericParts (groups : List GenericGroup) :
    joined (genericParts groups) = Text.generics groups := by
  unfold genericParts Text.generics
  split
  · rfl
  · simp [Part.text, joined_flatMap fun g _ ↦ joined_groupParts g, String.append_assoc]

theorem joined_methodParts (pointer : UInt64) (d : MethodDecl) :
    joined (methodParts c pointer d) = (methodEntry c d).lines := by
  simp [methodParts, methodEntry, Part.text, joined_addressParts, joined_genericParts,
    String.append_assoc]

theorem resolved_none : (Part.code pointer none).Resolved base := ⟨fun _ ↦ rfl, nofun⟩

theorem resolved_address? (s : Snapshot) (pointer : UInt64) :
    (Part.code pointer (s.address? pointer)).Resolved s.imageBase := by
  refine ⟨fun h ↦ if_pos h, fun a ha ↦ ⟨s.va_ne_zero_of_mem_address? ha, ?_⟩⟩
  unfold Snapshot.address? at ha
  split at ha
  · cases ha
  · obtain rfl := Option.some.inj ha
    exact UInt64.sub_add_cancel pointer s.imageBase

theorem resolved_of_mem_genericParts {groups : List GenericGroup}
    (h : GenericGroup.Grouped s groups) (hp : p ∈ genericParts groups) :
    p.Resolved s.imageBase := by
  unfold genericParts at hp
  split at hp
  · cases hp
  · simp only [List.cons_append, List.mem_cons, List.mem_append, List.mem_flatMap,
      List.not_mem_nil, or_false] at hp
    rcases hp with rfl | ⟨g, hg, hp⟩ | rfl
    · trivial
    · simp only [groupParts, List.mem_cons, List.not_mem_nil, or_false] at hp
      rcases hp with rfl | rfl | rfl
      · trivial
      · rw [h.address g hg]
        exact resolved_address? s g.pointer
      · trivial
    · trivial

theorem resolved_of_mem_methodParts {d : MethodDecl}
    (haddress : d.address = none ∨ d.address = s.address? pointer)
    (hgenerics : GenericGroup.Grouped s d.generics) (hp : p ∈ methodParts c pointer d) :
    p.Resolved s.imageBase := by
  rw [methodParts, List.mem_append, List.mem_cons] at hp
  rcases hp with hp | rfl | hp
  · unfold addressParts at hp
    split at hp
    · simp only [List.mem_cons, List.not_mem_nil, or_false] at hp
      rcases hp with rfl | rfl | rfl
      · trivial
      · rcases haddress with h | h
        · rw [h]
          exact resolved_none
        · rw [h]
          exact resolved_address? s pointer
      · trivial
    · cases hp
  · trivial
  · exact resolved_of_mem_genericParts hgenerics hp

end Methods

section Attributes

variable {m : Metadata} {c : Config} {p : Part} {names : List String} {lines : String}

/-- The row of a declaration as far as attributes go, and what surrounds its attribute lines. -/
structure Origin where
  image : ImageRow
  index : Int32
  token : UInt32
  indent : String
  mark : String

namespace Origin

def ofType (image : ImageRow) (row : TypeRow) : Origin :=
  ⟨image, row.customAttributeIndex, row.token, "",
    if Flags.isSerializable row.flags then "[Serializable]\n" else ""⟩

def ofMember (image : ImageRow) (index : Int32) (token : UInt32) : Origin :=
  ⟨image, index, token, "\t", ""⟩

def range? (m : Metadata) (c : Config) (scheme : AttributeScheme) (o : Origin) : Option Nat :=
  if c.attributes ∧ AttributeScheme.ofVersion? m.version = some scheme then
    m.attributeIndex? o.image o.index o.token
  else none

end Origin

def generatedLineParts (s : Snapshot) (pointer : UInt64) (indent name : String) : List Part :=
  [.other (indent ++ "[" ++ name ++ "] // "), .code pointer (some (s.address pointer)),
    .other "\n"]

def generatedNames (s : Snapshot) (i : Nat) : Except Error (List String) := do
  (← s.attributeTypesOf i).mapM s.typeName

def generatedParts (s : Snapshot) (i : Nat) (indent : String) : List Part :=
  ((generatedNames s i).toOption.getD []).flatMap
    (generatedLineParts s (s.attributeGenerator i) indent)

def Origin.parts [Places] (m : Metadata) (c : Config) (o : Origin) : List Part :=
  (o.range? m c .generator).toList.flatMap (generatedParts m.toSnapshot · o.indent) ++
    (o.range? m c .data).toList.map
      (fun i ↦ .other (AttributeScheme.dataLines m.toSnapshot i o.indent)) ++ [.other o.mark]

theorem generatorLines_eq (s : Snapshot) (i : Nat) (indent : String) :
    AttributeScheme.generatorLines s i indent =
      (fun names ↦ String.join (names.map fun name ↦
        AttributeScheme.generatedLine indent name (s.address (s.attributeGenerator i)))) <$>
      generatedNames s i := by
  unfold AttributeScheme.generatorLines generatedNames
  rw [map_bind]
  rfl

theorem joined_generatedLineParts (s : Snapshot) (pointer : UInt64) (indent name : String) :
    joined (generatedLineParts s pointer indent name) =
      AttributeScheme.generatedLine indent name (s.address pointer) := by
  simp [generatedLineParts, AttributeScheme.generatedLine, Part.text, Text.address,
    String.append_assoc]

theorem joined_generatedParts {s : Snapshot} {i : Nat} {indent : String}
    (h : AttributeScheme.generatorLines s i indent = .ok lines) :
    joined (generatedParts s i indent) = lines := by
  rw [generatorLines_eq, map_eq_ok_iff] at h
  obtain ⟨names, hnames, rfl⟩ := h
  rw [generatedParts, hnames]
  exact joined_flatMap fun name _ ↦ joined_generatedLineParts s _ indent name

theorem joined_originParts [Places] {o : Origin}
    (h : m.shownAttributes c o.image o.index o.token o.indent = .ok lines) :
    joined (o.parts m c) = lines ++ o.mark := by
  unfold Metadata.shownAttributes Metadata.attributeLines at h
  unfold Origin.parts Origin.range?
  cases hc : c.attributes with
  | false =>
    rw [hc, if_neg Bool.false_ne_true] at h
    obtain rfl := Except.ok.inj h
    simp [Part.text]
  | true =>
    rw [hc, if_pos rfl] at h
    cases hscheme : AttributeScheme.ofVersion? m.version with
    | none =>
      rw [hscheme] at h
      obtain rfl := Except.ok.inj h
      simp [Part.text]
    | some scheme =>
      cases hindex : m.attributeIndex? o.image o.index o.token with
      | none =>
        rw [hscheme, hindex] at h
        obtain rfl := Except.ok.inj h
        simp [Part.text]
      | some i =>
        rw [hscheme, hindex] at h
        cases scheme with
        | generator => simp [Part.text, joined_generatedParts h]
        | data =>
          obtain rfl := Except.ok.inj h
          simp [Part.text]

theorem exists_generatedNames [Places] {o : Origin} {i : Nat}
    (h : m.shownAttributes c o.image o.index o.token o.indent = .ok lines)
    (hi : o.range? m c .generator = some i) :
    ∃ names, generatedNames m.toSnapshot i = .ok names := by
  unfold Origin.range? at hi
  split at hi
  · rename_i hshown
    obtain ⟨hc, hscheme⟩ := hshown
    rw [Metadata.shownAttributes, if_pos hc, Metadata.attributeLines, hscheme, hi] at h
    have hlines : AttributeScheme.generatorLines m.toSnapshot i o.indent = .ok lines := h
    rw [generatorLines_eq, map_eq_ok_iff] at hlines
    obtain ⟨names, hnames, -⟩ := hlines
    exact ⟨names, hnames⟩
  · cases hi

theorem mem_generatedParts {s : Snapshot} {i : Nat} {indent : String}
    (hp : p ∈ generatedParts s i indent) : (∃ text, p = .other text) ∨
      p = .code (s.attributeGenerator i) (some (s.address (s.attributeGenerator i))) ∧
        ∃ types, s.attributeTypesOf i = .ok types ∧ types ≠ [] := by
  rw [generatedParts, List.mem_flatMap] at hp
  obtain ⟨name, hname, hp⟩ := hp
  -- A name among the names is that of a type in the range.
  have htypes : ∃ types, s.attributeTypesOf i = .ok types ∧ types ≠ [] := by
    cases hnames : generatedNames s i with
    | error e =>
      rw [hnames] at hname
      cases hname
    | ok names =>
      rw [hnames] at hname
      rw [generatedNames, bind_eq_ok_iff] at hnames
      obtain ⟨types, htypes, hnames⟩ := hnames
      refine ⟨types, htypes, ?_⟩
      rintro rfl
      obtain rfl := Except.ok.inj hnames
      cases hname
  simp only [generatedLineParts, List.mem_cons, List.not_mem_nil, or_false] at hp
  rcases hp with rfl | rfl | rfl
  · exact .inl ⟨_, rfl⟩
  · exact .inr ⟨rfl, htypes⟩
  · exact .inl ⟨_, rfl⟩

theorem mem_originParts [Places] {o : Origin} (hp : p ∈ o.parts m c) : (∃ text, p = .other text) ∨
    ∃ i types, o.range? m c .generator = some i ∧ m.attributeTypesOf i = .ok types ∧ types ≠ [] ∧
      p = .code (m.attributeGenerator i) (some (m.address (m.attributeGenerator i))) := by
  simp only [Origin.parts, List.mem_append, List.mem_flatMap, List.mem_map, Option.mem_toList,
    List.mem_singleton] at hp
  rcases hp with (⟨i, hi, hp⟩ | ⟨i, -, rfl⟩) | rfl
  · refine (mem_generatedParts hp).imp_right ?_
    rintro ⟨rfl, types, htypes, hne⟩
    exact ⟨i, types, hi, htypes, hne, rfl⟩
  · exact .inl ⟨_, rfl⟩
  · exact .inl ⟨_, rfl⟩

theorem code_mem_originParts [Places] {o : Origin} {i : Nat} {types : List Int32}
    (h : m.shownAttributes c o.image o.index o.token o.indent = .ok lines)
    (hi : o.range? m c .generator = some i) (htypes : m.attributeTypesOf i = .ok types)
    (hne : types ≠ []) :
    .code (m.attributeGenerator i) (some (m.address (m.attributeGenerator i))) ∈ o.parts m c := by
  obtain ⟨names, hnames⟩ := exists_generatedNames h hi
  -- Each type of the range has a name, so there is a line.
  have hmapM : types.mapM m.typeName = .ok names := by
    rwa [generatedNames, htypes] at hnames
  have hlength := length_of_mapM_eq_ok hmapM
  obtain ⟨name, hname⟩ := List.exists_mem_of_length_pos (hlength ▸ List.length_pos_iff.2 hne)
  rw [Origin.parts, hi, Option.toList_some, List.flatMap_singleton, generatedParts, hnames]
  refine List.mem_append_left _ (List.mem_append_left _ (List.mem_flatMap.2 ⟨name, hname, ?_⟩))
  simp [generatedLineParts]

end Attributes

section Locations

variable {m : Metadata} {c : Config} {location : Location} {e : Entry} {d : MethodDecl} {p : Part}
  [Places]

def typeRows? (m : Metadata) (image type : Nat) : Option (ImageRow × TypeRow) := do
  let imageRow ← m.images[image]?
  let row ← m.typeDefs[imageRow.typeStart.toNat + type]?
  return (imageRow, row)

def memberKey? (m : Metadata) (owner : TypeRow) (position : Nat) :
    MemberKind → Option (Int32 × UInt32)
  | .field => (m.fieldDef (owner.fieldStart.toInt + position)).toOption.map fun row ↦
    (row.customAttributeIndex, row.token)
  | .property => (m.propertyDef (owner.propertyStart.toInt + position)).toOption.map fun row ↦
    (row.customAttributeIndex, row.token)
  | .method => (m.methodDef (owner.methodStart.toInt + position)).toOption.map fun row ↦
    (row.customAttributeIndex, row.token)

def origin? (m : Metadata) : Location → Option Origin
  | .type image type => do
    let (imageRow, row) ← typeRows? m image type
    return .ofType imageRow row
  | .member kind image type position => do
    let (imageRow, owner) ← typeRows? m image type
    let (index, token) ← memberKey? m owner position kind
    return .ofMember imageRow index token

def pointerAt (m : Metadata) (location : Location) : UInt64 :=
  (origin? m location).elim 0 fun o ↦
    m.methodPointer ((m.text o.image.nameIndex).toOption.getD "") o.token

def methodAt? (outcomes : List Outcome) : Location → Option MethodDecl
  | .member .method image type position =>
    match outcomes[image]? with
    | some (.assembled decl) => decl.types[type]? >>= (·.methods[position]?)
    | _ => none
  | _ => none

def Piece.parts (m : Metadata) (c : Config) : Piece → List Part
  | .glue text => [.other text]
  | .attributes location _ => (origin? m location).elim [] (Origin.parts m c)
  | .declaration location lines =>
    match methodAt? (m.assemble c) location with
    | some d => methodParts c (pointerAt m location) d
    | none => [.other lines]

def parts (m : Metadata) (c : Config) : List Part :=
  (pieces c (m.assemble c)).flatMap (Piece.parts m c)

theorem exists_typeShows {image type : Nat} {decl : ImageDecl} {t : TypeDecl}
    (ho : (m.assemble c)[image]? = some (.assembled decl)) (ht : decl.types[type]? = some t) :
    ∃ imageRow row answer, typeRows? m image type = some (imageRow, row) ∧
      m.text imageRow.nameIndex = .ok decl.name ∧
      m.TypeShows c answer imageRow decl.name (imageRow.typeStart.toNat + type) row t := by
  obtain ⟨imageRow, answer, himage, hshows⟩ := exists_imageShows ho
  obtain ⟨row, hrow, htype⟩ := hshows.exists_type ht
  refine ⟨imageRow, row, answer, ?_, hshows.name, htype⟩
  simp [typeRows?, himage, hrow]

omit [Places] in
theorem memberKey?_eq_some (m : Metadata) (owner : TypeRow) (position : Nat) :
    (∀ row, RowAt m.fields (owner.fieldStart.toInt + position) row →
      memberKey? m owner position .field = some (row.customAttributeIndex, row.token)) ∧
    (∀ row, RowAt m.properties (owner.propertyStart.toInt + position) row →
      memberKey? m owner position .property = some (row.customAttributeIndex, row.token)) ∧
    ∀ row, RowAt m.methods (owner.methodStart.toInt + position) row →
      memberKey? m owner position .method = some (row.customAttributeIndex, row.token) := by
  refine ⟨fun row hrow ↦ ?_, fun row hrow ↦ ?_, fun row hrow ↦ ?_⟩
  · rw [memberKey?, Snapshot.fieldDef, lookup_eq_ok_iff.2 hrow]
    rfl
  · rw [memberKey?, Snapshot.propertyDef, lookup_eq_ok_iff.2 hrow]
    rfl
  · rw [memberKey?, Snapshot.methodDef, lookup_eq_ok_iff.2 hrow]
    rfl

omit [Places] in
theorem origin?_member {image type position : Nat} {kind : MemberKind} {imageRow : ImageRow}
    {owner : TypeRow} {index : Int32} {token : UInt32}
    (hrows : typeRows? m image type = some (imageRow, owner))
    (hkey : memberKey? m owner position kind = some (index, token)) :
    origin? m (.member kind image type position) = some (.ofMember imageRow index token) := by
  simp [origin?, hrows, hkey]

theorem exists_memberKey {answer : Nat → UInt32 → List Modifier} {imageRow : ImageRow}
    {imageName : String} {type position : Nat} {owner : TypeRow} {t : TypeDecl} {kind : MemberKind}
    (h : m.TypeShows c answer imageRow imageName type owner t)
    (he : (members c t kind).2[position]? = some e) : ∃ index token,
      memberKey? m owner position kind = some (index, token) ∧
      m.shownAttributes c imageRow index token "\t" = .ok e.attributes := by
  obtain ⟨hfield, hproperty, hmethod⟩ := memberKey?_eq_some m owner position
  cases kind with
  | field =>
    rw [members, List.getElem?_map, Option.map_eq_some_iff] at he
    obtain ⟨f, hf, rfl⟩ := he
    obtain ⟨row, hrow, hshows⟩ := h.fields.exists_row hf
    exact ⟨_, _, hfield row hrow, hshows.attributes⟩
  | property =>
    rw [members, List.getElem?_map, Option.map_eq_some_iff] at he
    obtain ⟨q, hq, rfl⟩ := he
    obtain ⟨row, hrow, hshows⟩ := h.properties.exists_row hq
    exact ⟨_, _, hproperty row hrow, hshows.attributes⟩
  | method =>
    rw [members, List.getElem?_map, Option.map_eq_some_iff] at he
    obtain ⟨d, hd, rfl⟩ := he
    obtain ⟨row, hrow, hshows⟩ := h.methods.exists_row hd
    exact ⟨_, _, hmethod row hrow, hshows.attributes⟩

/-- Every declaration of an assembly has an origin, from which its attribute lines follow. -/
theorem exists_origin (h : Stands c (m.assemble c) location e) : ∃ o lines,
    origin? m location = some o ∧
    m.shownAttributes c o.image o.index o.token o.indent = .ok lines ∧
    (location.showsAttributes c = true → e.attributes = lines ++ o.mark) := by
  cases h with
  | @type image type decl t ho ht =>
    obtain ⟨imageRow, row, answer, hrows, -, hshows⟩ := exists_typeShows ho ht
    refine ⟨.ofType imageRow row, t.attributes, by simp [origin?, hrows], hshows.attributes,
      fun hc ↦ ?_⟩
    have hc : c.attributes = true := hc
    show t.attributes ++ _ = _
    rw [hshows.isSerializable, hc, Bool.true_and]
    rfl
  | @member image type position decl t kind e ho ht he =>
    obtain ⟨imageRow, owner, answer, hrows, -, hshows⟩ := exists_typeShows ho ht
    obtain ⟨index, token, hkey, hattributes⟩ := exists_memberKey hshows he
    exact ⟨_, _, origin?_member hrows hkey, hattributes, fun _ ↦ String.append_empty.symm⟩

omit [Places] in
theorem exists_of_methodAt? {outcomes : List Outcome} (h : methodAt? outcomes location = some d) :
    ∃ image type position decl t, location = .member .method image type position ∧
      outcomes[image]? = some (.assembled decl) ∧ decl.types[type]? = some t ∧
      t.methods[position]? = some d := by
  unfold methodAt? at h
  split at h
  · split at h
    · rename_i image type position _ decl ho
      obtain ⟨t, ht, hd⟩ := Option.bind_eq_some_iff.1 h
      exact ⟨image, type, position, decl, t, rfl, ho, ht, hd⟩
    · cases h
  · cases h

theorem resolved_of_methodAt? (h : methodAt? (m.assemble c) location = some d) :
    (d.address = none ∨ d.address = m.address? (pointerAt m location)) ∧
      GenericGroup.Grouped m.toSnapshot d.generics := by
  obtain ⟨image, type, position, decl, t, rfl, himage, ht, hd⟩ := exists_of_methodAt? h
  obtain ⟨imageRow, owner, answer, hrows, hname, hshows⟩ := exists_typeShows himage ht
  obtain ⟨row, hrow, hmethod⟩ := hshows.methods.exists_row hd
  have hkey := (memberKey?_eq_some m owner position).2.2 row hrow
  have hpointer : pointerAt m (.member .method image type position) =
      m.methodPointer decl.name row.token := by
    rw [pointerAt, origin?_member hrows hkey]
    simp [Origin.ofMember, hname, Except.toOption]
  rw [hpointer, hmethod.address, hmethod.generics]
  refine ⟨?_, GenericGroup.grouped_ofSpecs _ _⟩
  -- Neither an abstract method nor one without an address line has an address.
  unfold Metadata.methodAddress?
  split
  · split
    · exact .inl rfl
    · exact .inr rfl
  · exact .inl rfl

omit [Places] in
theorem eq_methodEntry {outcomes : List Outcome} (h : Stands c outcomes location e)
    (hd : methodAt? outcomes location = some d) : e = methodEntry c d := by
  obtain ⟨image, type, position, decl, t, rfl, ho, ht, hd⟩ := exists_of_methodAt? hd
  cases h with
  | member ho' ht' he =>
    obtain rfl := Outcome.assembled.inj (Option.some.inj (ho.symm.trans ho'))
    obtain rfl := Option.some.inj (ht.symm.trans ht')
    rw [members, List.getElem?_map, hd] at he
    exact (Option.some.inj he).symm

theorem joined_pieceParts {q : Piece} (h : q ∈ pieces c (m.assemble c)) :
    joined (q.parts m c) = q.text := by
  cases q with
  | glue text => simp [Piece.parts, Part.text, Piece.text]
  | attributes location lines =>
    obtain ⟨e, hstands, hshown, rfl⟩ := attributes_mem_pieces_iff.1 h
    obtain ⟨o, lines, ho, hlines, he⟩ := exists_origin hstands
    rw [Piece.parts, ho, Option.elim_some, joined_originParts hlines, Piece.text, he hshown]
  | declaration location lines =>
    obtain ⟨e, hstands, -, rfl⟩ := declaration_mem_pieces_iff.1 h
    unfold Piece.parts
    dsimp only
    split
    · rename_i d hd
      rw [joined_methodParts, eq_methodEntry hstands hd, Piece.text]
    · simp [Part.text, Piece.text]

theorem joined_parts (m : Metadata) (c : Config) :
    joined (parts m c) = Text.render c (m.assemble c) := by
  rw [parts, joined_flatMap fun q hq ↦ joined_pieceParts hq, join_pieces]

/-- The text has the line of an attribute that the function at a pointer generates. -/
inductive Generated (m : Metadata) (c : Config) (location : Location) (pointer : UInt64) : Prop
  | mk {lines : String} {o : Origin} {i : Nat} {types : List Int32} :
      .attributes location lines ∈ pieces c (m.assemble c) → origin? m location = some o →
      o.range? m c .generator = some i → m.attributeTypesOf i = .ok types → types ≠ [] →
      m.attributeGenerator i = pointer → Generated m c location pointer

omit [Places] in
theorem not_resolved_zero (s : Snapshot) :
    ¬ (Part.code 0 (some (s.address 0))).Resolved s.imageBase :=
  fun h ↦ nomatch h.1 rfl

theorem resolved_or_generated {q : Piece} (hq : q ∈ pieces c (m.assemble c))
    (hp : p ∈ q.parts m c) : p.Resolved m.imageBase ∨
      ∃ location, Generated m c location 0 ∧ p = .code 0 (some (m.address 0)) := by
  cases q with
  | glue text =>
    obtain rfl := List.mem_singleton.1 hp
    exact .inl trivial
  | attributes location lines =>
    rw [Piece.parts] at hp
    cases ho : origin? m location with
    | none =>
      rw [ho] at hp
      cases hp
    | some o =>
      rw [ho, Option.elim_some] at hp
      rcases mem_originParts hp with ⟨text, rfl⟩ | ⟨i, types, hi, htypes, hne, rfl⟩
      · exact .inl trivial
      · -- Nothing asks whether the generator is known, so its pointer is told in any case.
        by_cases hzero : m.attributeGenerator i = 0
        · rw [hzero]
          exact .inr ⟨location, .mk hq ho hi htypes hne hzero, rfl⟩
        · have hresolved := resolved_address? m.toSnapshot (m.attributeGenerator i)
          rw [Snapshot.address?, if_neg hzero] at hresolved
          exact .inl hresolved
  | declaration location lines =>
    unfold Piece.parts at hp
    dsimp only at hp
    split at hp
    · rename_i d hd
      obtain ⟨haddress, hgenerics⟩ := resolved_of_methodAt? hd
      exact .inl (resolved_of_mem_methodParts haddress hgenerics hp)
    · obtain rfl := List.mem_singleton.1 hp
      exact .inl trivial

theorem code_mem_parts {pointer : UInt64} (h : Generated m c location pointer) :
    .code pointer (some (m.address pointer)) ∈ parts m c := by
  obtain ⟨hmem, ho, hi, htypes, hne, rfl⟩ := h
  obtain ⟨e, hstands, -, -⟩ := attributes_mem_pieces_iff.1 hmem
  obtain ⟨o, lines, ho', hlines, -⟩ := exists_origin hstands
  obtain rfl := Option.some.inj (ho.symm.trans ho')
  refine List.mem_flatMap.2 ⟨_, hmem, ?_⟩
  rw [Piece.parts, ho, Option.elim_some]
  exact code_mem_originParts hlines hi htypes hne

end Locations

/-- Of the text of any assembly, every address on the line of a method and in a group of
specializations is that of code which is known, and so is one behind an attribute, unless the
pointer to the generator of the attribute is 0: then the text tells the address of no code. -/
theorem resolved_iff_not_generated [Places] (m : Metadata) (c : Config) :
    joined (parts m c) = Text.render c (m.assemble c) ∧
    (∀ p ∈ parts m c, p.Resolved m.imageBase ∨
      ∃ location, Generated m c location 0 ∧ p = .code 0 (some (m.address 0))) ∧
    ((∀ p ∈ parts m c, p.Resolved m.imageBase) ↔ ∀ location, ¬ Generated m c location 0) := by
  have hparts : ∀ p ∈ parts m c, p.Resolved m.imageBase ∨
      ∃ location, Generated m c location 0 ∧ p = .code 0 (some (m.address 0)) := by
    intro p hp
    obtain ⟨q, hq, hp⟩ := List.mem_flatMap.1 hp
    exact resolved_or_generated hq hp
  refine ⟨joined_parts m c, hparts, fun h location hgenerated ↦ ?_, fun h p hp ↦ ?_⟩
  · exact not_resolved_zero m.toSnapshot (h _ (code_mem_parts hgenerated))
  · exact (hparts p hp).resolve_right fun ⟨location, hgenerated, _⟩ ↦ h location hgenerated

def orphan : Metadata :=
  .ofSnapshot { Snapshot.blank ⟨24, 0⟩ with
    imageBase := 0x10000000
    strings := #["Game.dll", "", "Player"]
    images := [⟨0, 0, 1, 0, 0, 0⟩]
    typeDefs := #[⟨2, 1, -1, -1, -1, 1, 0, 0, 0, 0, 0, 0, 0, 0, 0, 0, 0⟩]
    types := #[⟨"ObsoleteAttribute", none, 0, 0, false, none⟩]
    attributeTypeRanges := #[⟨0, 0, 1⟩]
    attributeTypes := [0] }

open scoped Places in
/-- The text tells where the generator lies, although there is none. -/
theorem not_resolved_orphan :
    Text.render .full (orphan.assemble .full) = "// Image 0: Game.dll - 0\n\n// Namespace: \n" ++
      "[ObsoleteAttribute] // RVA: 0xFFFFFFFFF0000000 Offset: 0x0 VA: 0x0\n" ++
      "public class Player // TypeDefIndex: 0\n\x7b\x7d\n" ∧
    .code 0 (some ⟨0xFFFFFFFFF0000000, 0, 0⟩) ∈ parts orphan .full ∧
    ¬ ∀ p ∈ parts orphan .full, p.Resolved orphan.imageBase := by
  have hmem : .code 0 (some ⟨0xFFFFFFFFF0000000, 0, 0⟩) ∈ parts orphan .full :=
    List.mem_of_getElem? (i := 3) rfl
  exact ⟨rfl, hmem, fun h ↦ nomatch (h _ hmem).1 rfl⟩

end MetadataDump.Dump
