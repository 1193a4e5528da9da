import MetadataDump.Proofs.Declaration.Faithful
import MetadataDump.Proofs.Dump.Counts

namespace MetadataDump.Dump

section Numbered

variable {α β : Type}

def numbered (f : Nat → α → List β) (as : List α) (start : Nat) : List β :=
  (as.zipIdx start).flatMap fun (a, i) ↦ f i a

theorem mem_numbered_iff {f : Nat → α → List β} {as : List α} {b : β} :
    b ∈ numbered f as 0 ↔ ∃ i a, as[i]? = some a ∧ b ∈ f i a := by
  simp only [numbered, List.mem_flatMap, Prod.exists, List.mk_mem_zipIdx_iff_getElem?]
  exact exists_comm

theorem join_numbered {f : Nat → α → List β} {text : β → String} {g : α → String}
    (h : ∀ i a, String.join ((f i a).map text) = g a) (as : List α) (start : Nat) :
    String.join ((numbered f as start).map text) = String.join (as.map g) := by
  induction as generalizing start with
  | nil => rfl
  | cons a as ih =>
    have hrest := ih (start + 1)
    rw [numbered] at hrest
    rw [numbered, List.zipIdx_cons, List.flatMap_cons, List.map_append, String.join_append, h,
      hrest, List.map_cons, String.join_cons]

end Numbered

inductive MemberKind
  | field | property | method
  deriving DecidableEq

namespace MemberKind

def isShown (c : Config) : MemberKind → Bool
  | .field => c.fields
  | .property => c.properties
  | .method => c.methods

def title : MemberKind → String
  | .field => "Fields"
  | .property => "Properties"
  | .method => "Methods"

def key : MemberKind → String
  | .field => "fields"
  | .property => "properties"
  | .method => "methods"

end MemberKind

/-- A type by the positions of its image and of itself in the image, or one of its members by the
position among those of its kind. -/
inductive Location
  | type (image position : Nat)
  | member (kind : MemberKind) (image type position : Nat)

/-- What the artifacts have of a declaration: its attribute lines, its own lines, and its record. -/
structure Entry where
  attributes : String
  lines : String
  record : Json

def fieldEntry (f : FieldDecl) : Entry :=
  ⟨f.attributes, Text.field { f with attributes := "" }, Document.field f⟩

def propertyEntry (p : PropertyDecl) : Entry :=
  ⟨p.attributes, Text.property { p with attributes := "" }, Document.property p⟩

def methodEntry (c : Config) (m : MethodDecl) : Entry :=
  ⟨m.attributes, Text.addressLine c m ++ Text.signature m ++ Text.generics m.generics,
    Document.method m⟩

def members (c : Config) (t : TypeDecl) : MemberKind → String × List Entry
  | .field => ("", t.fields.map fieldEntry)
  | .property => ("", t.properties.map propertyEntry)
  | .method => ("\n", t.methods.map (methodEntry c))

def typeEntry (c : Config) (t : TypeDecl) : Entry :=
  ⟨t.attributeLines, Text.header c t, Document.type c t⟩

section Text

/-- A piece of the text: the attribute lines of a declaration, its own lines, or what belongs to
none. -/
inductive Piece
  | glue (text : String)
  | attributes (location : Location) (lines : String)
  | declaration (location : Location) (lines : String)

def Piece.text : Piece → String
  | .glue text => text
  | .attributes _ lines => lines
  | .declaration _ lines => lines

def memberPieces (front : String) (location : Nat → Location) (i : Nat) (e : Entry) : List Piece :=
  [.glue front, .attributes (location i) e.attributes, .declaration (location i) e.lines]

def sectionPieces (c : Config) (t : TypeDecl) (image type : Nat) (kind : MemberKind) :
    List Piece :=
  let (front, entries) := members c t kind
  if kind.isShown c && !entries.isEmpty then
    .glue ("\n\t// " ++ kind.title ++ "\n") ::
      numbered (memberPieces front (.member kind image type)) entries 0
  else []

def typePieces (c : Config) (image : Nat) (type : Nat) (t : TypeDecl) : List Piece :=
  .glue ("\n// Namespace: " ++ t.space ++ "\n") ::
    (if c.attributes then [.attributes (.type image type) (typeEntry c t).attributes] else []) ++
    [.declaration (.type image type) (typeEntry c t).lines, .glue "\x7b"] ++
    sectionPieces c t image type .field ++ sectionPieces c t image type .property ++
    sectionPieces c t image type .method ++ [.glue "\x7d\n"]

def imagePieces [Places] (c : Config) (image : Nat) : Outcome → List Piece
  | .assembled decl => numbered (typePieces c image) decl.types 0
  | .failed f => [.glue (Text.failure f)]

def pieces [Places] (c : Config) (outcomes : List Outcome) : List Piece :=
  outcomes.map (.glue ∘ Text.imageLine) ++ numbered (imagePieces c) outcomes 0

theorem join_memberPieces (front : String) (location : Nat → Location) (i : Nat) (e : Entry) :
    String.join ((memberPieces front location i e).map Piece.text) =
      front ++ e.attributes ++ e.lines := by
  simp [memberPieces, Piece.text, String.join_cons, String.append_assoc]

theorem join_sectionPieces {α : Type} {c : Config} {t : TypeDecl} {kind : MemberKind}
    (front : String) (entry : α → Entry) {items : List α} (image type : Nat) (write : α → String)
    (hmembers : members c t kind = (front, items.map entry))
    (hwrite : ∀ a, write a = front ++ (entry a).attributes ++ (entry a).lines) :
    String.join ((sectionPieces c t image type kind).map Piece.text) =
      Text.memberSection (kind.isShown c) kind.title write items := by
  rw [sectionPieces, hmembers, Text.memberSection]
  dsimp only
  rw [List.isEmpty_map]
  split
  · have hitems : items.map write = (items.map entry).map fun e ↦
        front ++ e.attributes ++ e.lines := by
      rw [List.map_map]
      exact List.map_congr_left fun a _ ↦ hwrite a
    rw [List.map_cons, String.join_cons, join_numbered (join_memberPieces front _), hitems]
    rfl
  · rfl

theorem text_field_eq (f : FieldDecl) :
    Text.field f = "" ++ (fieldEntry f).attributes ++ (fieldEntry f).lines := by
  simp only [fieldEntry, Text.field, String.empty_append, String.append_assoc]

theorem text_property_eq (p : PropertyDecl) :
    Text.property p = "" ++ (propertyEntry p).attributes ++ (propertyEntry p).lines := by
  have hbody : Text.propertyBody { p with attributes := "" } = Text.propertyBody p := rfl
  simp only [propertyEntry, Text.property, hbody, String.empty_append, String.append_assoc]

theorem text_method_eq (c : Config) (m : MethodDecl) :
    Text.method c m = "\n" ++ (methodEntry c m).attributes ++ (methodEntry c m).lines := by
  simp only [methodEntry, Text.method, String.append_assoc]

theorem join_typePieces (c : Config) (image type : Nat) (t : TypeDecl) :
    String.join ((typePieces c image type t).map Piece.text) = Text.type c t := by
  have hfields : String.join ((sectionPieces c t image type .field).map Piece.text) =
      Text.memberSection c.fields "Fields" Text.field t.fields :=
    join_sectionPieces "" fieldEntry image type Text.field rfl text_field_eq
  have hproperties : String.join ((sectionPieces c t image type .property).map Piece.text) =
      Text.memberSection c.properties "Properties" Text.property t.properties :=
    join_sectionPieces "" propertyEntry image type Text.property rfl text_property_eq
  have hmethods : String.join ((sectionPieces c t image type .method).map Piece.text) =
      Text.memberSection c.methods "Methods" (Text.method c) t.methods :=
    join_sectionPieces "\n" (methodEntry c) image type (Text.method c) rfl (text_method_eq c)
  have hattributes : String.join ((if c.attributes then
      [Piece.attributes (.type image type) (typeEntry c t).attributes] else []).map Piece.text) =
      if c.attributes then t.attributeLines else "" := by
    cases c.attributes with
    | true => exact String.empty_append
    | false => rfl
  have hheader : (typeEntry c t).lines = Text.header c t := rfl
  unfold typePieces Text.type
  simp only [List.map_append, List.map_cons, List.map_nil, List.cons_append, String.join_append,
    String.join_cons, String.join_nil, Piece.text, hattributes, hheader, hfields, hproperties,
    hmethods, String.append_assoc, String.append_empty]

theorem join_imagePieces [Places] (c : Config) (image : Nat) (o : Outcome) :
    String.join ((imagePieces c image o).map Piece.text) = Text.image c o := by
  cases o with
  | assembled decl => exact join_numbered (join_typePieces c image) decl.types 0
  | failed f => simp [imagePieces, Piece.text, Text.image, String.join_cons]

theorem join_pieces [Places] (c : Config) (outcomes : List Outcome) :
    String.join ((pieces c outcomes).map Piece.text) = Text.render c outcomes := by
  rw [pieces, List.map_append, String.join_append, join_numbered (join_imagePieces c),
    List.map_map]
  rfl

end Text

section Listed

variable {c : Config} {outcomes : List Outcome}

namespace Location

def isShown (c : Config) : Location → Bool
  | .type _ _ => true
  | .member kind _ _ _ => kind.isShown c

def showsAttributes (c : Config) : Location → Bool
  | .type _ _ => c.attributes
  | .member kind _ _ _ => kind.isShown c

end Location

/-- The declarations of some outcomes, and what the artifacts have of them. -/
inductive Stands (c : Config) (outcomes : List Outcome) : Location → Entry → Prop
  | type {image type : Nat} {decl : ImageDecl} {t : TypeDecl} :
      outcomes[image]? = some (.assembled decl) → decl.types[type]? = some t →
      Stands c outcomes (.type image type) (typeEntry c t)
  | member {image type position : Nat} {decl : ImageDecl} {t : TypeDecl} {kind : MemberKind}
      {e : Entry} : outcomes[image]? = some (.assembled decl) → decl.types[type]? = some t →
      (members c t kind).2[position]? = some e →
      Stands c outcomes (.member kind image type position) e

inductive Piece.Of (location : Location) (e : Entry) (c : Config) : Piece → Prop
  | attributes : location.showsAttributes c = true →
      Of location e c (.attributes location e.attributes)
  | declaration : location.isShown c = true → Of location e c (.declaration location e.lines)

section Pieces

variable {p : Piece} {image type : Nat} {t : TypeDecl} {kind : MemberKind}

theorem mem_sectionPieces_iff (hp : ∀ text, p ≠ .glue text) :
    p ∈ sectionPieces c t image type kind ↔ ∃ position e,
      (members c t kind).2[position]? = some e ∧ p.Of (.member kind image type position) e c := by
  rw [sectionPieces]
  dsimp only
  constructor
  · intro h
    split at h
    · rename_i hshown
      rw [Bool.and_eq_true] at hshown
      obtain hglue | h := List.mem_cons.1 h
      · exact absurd hglue (hp _)
      · obtain ⟨position, e, he, hmem⟩ := mem_numbered_iff.1 h
        refine ⟨position, e, he, ?_⟩
        simp only [memberPieces, List.mem_cons, List.not_mem_nil, or_false] at hmem
        rcases hmem with hglue | rfl | rfl
        · exact absurd hglue (hp _)
        · exact .attributes hshown.1
        · exact .declaration hshown.1
    · cases h
  · intro h
    obtain ⟨position, e, he, hof⟩ := h
    have hmem : p ∈ memberPieces (members c t kind).1 (.member kind image type) position e := by
      cases hof <;> simp [memberPieces]
    have hshown : kind.isShown c = true := by
      cases hof <;> assumption
    have hempty : (members c t kind).2.isEmpty = false := by
      cases hentries : (members c t kind).2 with
      | nil => simp [hentries] at he
      | cons _ _ => rfl
    rw [hshown, hempty, Bool.not_false, Bool.and_self, if_pos rfl]
    exact List.mem_cons_of_mem _ (mem_numbered_iff.2 ⟨position, e, he, hmem⟩)

theorem mem_typePieces_iff (hp : ∀ text, p ≠ .glue text) :
    p ∈ typePieces c image type t ↔ p.Of (.type image type) (typeEntry c t) c ∨
      ∃ kind, p ∈ sectionPieces c t image type kind := by
  have hkinds : (∃ kind, p ∈ sectionPieces c t image type kind) ↔
      p ∈ sectionPieces c t image type .field ∨ p ∈ sectionPieces c t image type .property ∨
        p ∈ sectionPieces c t image type .method := by
    constructor
    · intro h
      obtain ⟨kind, h⟩ := h
      cases kind <;> simp [h]
    · rintro (h | h | h) <;> exact ⟨_, h⟩
  have hown : p.Of (.type image type) (typeEntry c t) c ↔
      (c.attributes = true ∧ p = .attributes (.type image type) (typeEntry c t).attributes) ∨
        p = .declaration (.type image type) (typeEntry c t).lines := by
    constructor
    · intro h
      cases h with
      | attributes hc => exact .inl ⟨hc, rfl⟩
      | declaration _ => exact .inr rfl
    · rintro (⟨hc, rfl⟩ | rfl)
      · exact .attributes hc
      · exact .declaration rfl
  rw [hkinds, hown, typePieces]
  cases c.attributes <;> simp [hp, or_assoc]

theorem mem_pieces_iff [Places] (hp : ∀ text, p ≠ .glue text) :
    p ∈ pieces c outcomes ↔ ∃ location e, Stands c outcomes location e ∧ p.Of location e c := by
  have hlines : p ∉ outcomes.map (.glue ∘ Text.imageLine) := by
    intro h
    obtain ⟨o, -, rfl⟩ := List.mem_map.1 h
    exact hp _ rfl
  rw [pieces, List.mem_append, or_iff_right hlines, mem_numbered_iff]
  constructor
  · intro h
    obtain ⟨image, o, ho, h⟩ := h
    cases o with
    | failed f => exact absurd (List.mem_singleton.1 h) (hp _)
    | assembled decl =>
      obtain ⟨type, t, ht, h⟩ := mem_numbered_iff.1 h
      obtain hof | ⟨kind, h⟩ := (mem_typePieces_iff hp).1 h
      · exact ⟨_, _, .type ho ht, hof⟩
      · obtain ⟨position, e, he, hof⟩ := (mem_sectionPieces_iff hp).1 h
        exact ⟨_, e, .member ho ht he, hof⟩
  · intro h
    obtain ⟨location, e, hstands, hof⟩ := h
    cases hstands with
    | type ho ht =>
      exact ⟨_, _, ho, mem_numbered_iff.2 ⟨_, _, ht, (mem_typePieces_iff hp).2 (.inl hof)⟩⟩
    | @member image type position decl t kind e ho ht he =>
      have hsection := (mem_sectionPieces_iff hp).2 ⟨position, e, he, hof⟩
      exact ⟨_, _, ho, mem_numbered_iff.2 ⟨_, _, ht, (mem_typePieces_iff hp).2
        (.inr ⟨kind, hsection⟩)⟩⟩

end Pieces

section Records

variable {image type position : Nat} {location : Location} {e : Entry} {record : Json}

def item? (key : String) (position : Nat) (json : Json) : Option Json :=
  match json.get? key with
  | some (.array items) => items[position]?
  | _ => none

def typeRecord? (document : Json) (image type : Nat) : Option Json :=
  item? "images" image document >>= item? "typedObjects" type

def record? (document : Json) : Location → Option Json
  | .type image type => typeRecord? document image type
  | .member kind image type position => typeRecord? document image type >>= item? kind.key position

theorem item?_of_get? {json : Json} {key : String} {items : List Json}
    (h : json.get? key = some (.array items)) : item? key position json = items[position]? := by
  rw [item?, h]

theorem typeRecord?_eq_some_iff [Places] : typeRecord? (Document.ofOutcomes c outcomes) image type =
    some record ↔ ∃ decl t, outcomes[image]? = some (.assembled decl) ∧
      decl.types[type]? = some t ∧ Document.type c t = record := by
  have himages : (Document.ofOutcomes c outcomes).get? "images" =
      some (.array (outcomes.map (Document.image c))) := rfl
  rw [typeRecord?, item?_of_get? himages, List.getElem?_map]
  cases outcomes[image]? with
  | none => simp
  | some o =>
    cases o with
    | assembled decl =>
      have htypes : (Document.image c (.assembled decl)).get? "typedObjects" =
          some (.array (decl.types.map (Document.type c))) := rfl
      simp [item?_of_get? htypes]
    | failed f =>
      have htypes : (Document.image c (.failed f)).get? "typedObjects" = some (.array []) := rfl
      simp [item?_of_get? htypes]

theorem get?_members (t : TypeDecl) (kind : MemberKind) : (Document.type c t).get? kind.key =
    some (.array ((members c t kind).2.map Entry.record)) := by
  obtain ⟨hfields, hproperties, hmethods⟩ := get?_type_members c t
  cases kind with
  | field => rw [members, List.map_map]; exact hfields
  | property => rw [members, List.map_map]; exact hproperties
  | method => rw [members, List.map_map]; exact hmethods

theorem record?_eq_some_iff [Places] :
    record? (Document.ofOutcomes c outcomes) location = some record ↔
      ∃ e, Stands c outcomes location e ∧ e.record = record := by
  cases location with
  | type image type =>
    rw [record?, typeRecord?_eq_some_iff]
    constructor
    · intro h
      obtain ⟨decl, t, ho, ht, hrecord⟩ := h
      exact ⟨_, .type ho ht, hrecord⟩
    · intro h
      obtain ⟨_, ⟨ho, ht⟩, hrecord⟩ := h
      exact ⟨_, _, ho, ht, hrecord⟩
  | member kind image type position =>
    simp only [record?, Option.bind_eq_bind, Option.bind_eq_some_iff, typeRecord?_eq_some_iff]
    constructor
    · intro h
      obtain ⟨_, ⟨decl, t, ho, ht, rfl⟩, hrecord⟩ := h
      rw [item?_of_get? (get?_members t kind), List.getElem?_map, Option.map_eq_some_iff]
        at hrecord
      obtain ⟨e, he, hrecord⟩ := hrecord
      exact ⟨e, .member ho ht he, hrecord⟩
    · intro h
      obtain ⟨e, hstands, hrecord⟩ := h
      cases hstands with
      | @member _ _ _ decl t _ _ ho ht he =>
        refine ⟨_, ⟨decl, t, ho, ht, rfl⟩, ?_⟩
        rw [item?_of_get? (get?_members t kind), List.getElem?_map, he, Option.map_some, hrecord]

theorem Stands.get?_attributes (h : Stands c outcomes location e) :
    e.record.get? "attributes" = some (.string e.attributes) := by
  cases h with
  | type _ _ => rfl
  | @member _ _ _ _ t kind _ _ _ he =>
    cases kind with
    | field =>
      obtain ⟨f, -, rfl⟩ := List.mem_map.1 (List.mem_of_getElem? he)
      rfl
    | property =>
      obtain ⟨p, -, rfl⟩ := List.mem_map.1 (List.mem_of_getElem? he)
      rfl
    | method =>
      obtain ⟨m, -, rfl⟩ := List.mem_map.1 (List.mem_of_getElem? he)
      rfl

end Records

section Agreement

variable {location : Location} {lines : String} [Places]

theorem declaration_mem_pieces_iff : .declaration location lines ∈ pieces c outcomes ↔
    ∃ e, Stands c outcomes location e ∧ location.isShown c = true ∧ e.lines = lines := by
  rw [mem_pieces_iff (by simp)]
  constructor
  · intro h
    obtain ⟨_, e, hstands, hof⟩ := h
    cases hof with
    | declaration hshown => exact ⟨e, hstands, hshown, rfl⟩
  · intro h
    obtain ⟨e, hstands, hshown, rfl⟩ := h
    exact ⟨location, e, hstands, .declaration hshown⟩

theorem attributes_mem_pieces_iff : .attributes location lines ∈ pieces c outcomes ↔
    ∃ e, Stands c outcomes location e ∧ location.showsAttributes c = true ∧
      e.attributes = lines := by
  rw [mem_pieces_iff (by simp)]
  constructor
  · intro h
    obtain ⟨_, e, hstands, hof⟩ := h
    cases hof with
    | attributes hshown => exact ⟨e, hstands, hshown, rfl⟩
  · intro h
    obtain ⟨e, hstands, hshown, rfl⟩ := h
    exact ⟨location, e, hstands, .attributes hshown⟩

theorem exists_record_iff : (∃ record, record? (Document.ofOutcomes c outcomes) location =
    some record) ↔ ∃ e, Stands c outcomes location e := by
  simp only [record?_eq_some_iff]
  constructor
  · intro h
    obtain ⟨_, e, hstands, -⟩ := h
    exact ⟨e, hstands⟩
  · intro h
    obtain ⟨e, hstands⟩ := h
    exact ⟨_, e, hstands, rfl⟩

theorem exists_record_attributes_iff : (∃ record,
    record? (Document.ofOutcomes c outcomes) location = some record ∧
      record.get? "attributes" = some (.string lines)) ↔
    ∃ e, Stands c outcomes location e ∧ e.attributes = lines := by
  simp only [record?_eq_some_iff]
  constructor
  · intro h
    obtain ⟨_, ⟨e, hstands, rfl⟩, hlines⟩ := h
    rw [hstands.get?_attributes] at hlines
    exact ⟨e, hstands, Json.string.inj (Option.some.inj hlines)⟩
  · intro h
    obtain ⟨e, hstands, rfl⟩ := h
    exact ⟨_, ⟨e, hstands, rfl⟩, hstands.get?_attributes⟩

/-- The artifacts list the same declarations, with the same attribute lines if there are any. -/
structure Alike (c : Config) (outcomes : List Outcome) : Prop where
  declaration : ∀ location, (∃ lines, .declaration location lines ∈ pieces c outcomes) ↔
    ∃ record, record? (Document.ofOutcomes c outcomes) location = some record
  attributes : ∀ location lines, lines ≠ "" → (.attributes location lines ∈ pieces c outcomes ↔
    ∃ record, record? (Document.ofOutcomes c outcomes) location = some record ∧
      record.get? "attributes" = some (.string lines))

/-- The configuration shows all that a type has. -/
structure ShowsAll (c : Config) (t : TypeDecl) : Prop where
  attributes : c.attributes = true ∨ t.attributeLines = ""
  members : ∀ kind, kind.isShown c = true ∨ (members c t kind).2 = []

omit [Places] in
theorem isShown_of_showsAll {e : Entry} (h : Stands c outcomes location e)
    (hall : ∀ decl, .assembled decl ∈ outcomes → ∀ t ∈ decl.types, ShowsAll c t) :
    location.isShown c = true ∧ (e.attributes ≠ "" → location.showsAttributes c = true) := by
  cases h with
  | type ho ht =>
    have hshows := hall _ (List.mem_of_getElem? ho) _ (List.mem_of_getElem? ht)
    exact ⟨rfl, hshows.attributes.resolve_right⟩
  | @member _ _ _ _ _ kind _ ho ht he =>
    have hshows := hall _ (List.mem_of_getElem? ho) _ (List.mem_of_getElem? ht)
    have hkind : kind.isShown c = true := by
      refine (hshows.members kind).resolve_right fun hempty ↦ ?_
      rw [hempty] at he
      cases he
    exact ⟨hkind, fun _ ↦ hkind⟩

theorem Alike.showsAll (h : Alike c outcomes) {decl : ImageDecl}
    (hdecl : .assembled decl ∈ outcomes) {t : TypeDecl} (ht : t ∈ decl.types) : ShowsAll c t := by
  obtain ⟨image, ho⟩ := List.mem_iff_getElem?.1 hdecl
  obtain ⟨type, ht⟩ := List.mem_iff_getElem?.1 ht
  refine ⟨or_iff_not_imp_right.2 fun hlines ↦ ?_, fun kind ↦ or_iff_not_imp_right.2 fun hne ↦ ?_⟩
  · have hmem := (h.attributes (.type image type) t.attributeLines hlines).2
      (exists_record_attributes_iff.2 ⟨_, .type ho ht, rfl⟩)
    obtain ⟨_, -, hshown, -⟩ := attributes_mem_pieces_iff.1 hmem
    exact hshown
  · obtain ⟨e, he⟩ := List.exists_mem_of_ne_nil _ hne
    obtain ⟨position, he⟩ := List.mem_iff_getElem?.1 he
    have hmem := (h.declaration (.member kind image type position)).2
      (exists_record_iff.2 ⟨e, .member ho ht he⟩)
    obtain ⟨_, hmem⟩ := hmem
    obtain ⟨_, -, hshown, -⟩ := declaration_mem_pieces_iff.1 hmem
    exact hshown

theorem alike_iff_showsAll : Alike c outcomes ↔
    ∀ decl, .assembled decl ∈ outcomes → ∀ t ∈ decl.types, ShowsAll c t := by
  refine ⟨fun h decl hdecl t ht ↦ h.showsAll hdecl ht, fun hall ↦ ⟨fun location ↦ ?_,
    fun location lines hlines ↦ ?_⟩⟩
  · rw [exists_record_iff]
    constructor
    · intro h
      obtain ⟨_, hmem⟩ := h
      obtain ⟨e, hstands, -⟩ := declaration_mem_pieces_iff.1 hmem
      exact ⟨e, hstands⟩
    · intro h
      obtain ⟨e, hstands⟩ := h
      obtain ⟨hshown, -⟩ := isShown_of_showsAll hstands hall
      exact ⟨_, declaration_mem_pieces_iff.2 ⟨e, hstands, hshown, rfl⟩⟩
  · rw [exists_record_attributes_iff, attributes_mem_pieces_iff]
    constructor
    · intro h
      obtain ⟨e, hstands, -, he⟩ := h
      exact ⟨e, hstands, he⟩
    · intro h
      obtain ⟨e, hstands, rfl⟩ := h
      obtain ⟨-, hshown⟩ := isShown_of_showsAll hstands hall
      exact ⟨e, hstands, hshown hlines, rfl⟩

end Agreement

end Listed

section Assembled

variable {m : Metadata} {c : Config} [Places]

theorem showsAll_of_typeShows {answer : Nat → UInt32 → List Modifier} {image : ImageRow}
    {imageName : String} {type : Nat} {row : TypeRow} {t : TypeDecl}
    (h : m.TypeShows c answer image imageName type row t) : ShowsAll c t := by
  refine ⟨or_iff_not_imp_left.2 fun hc ↦ ?_, fun kind ↦ or_iff_not_imp_left.2 fun hkind ↦ ?_⟩
  · rw [Bool.not_eq_true] at hc
    have hattributes := h.attributes
    rw [Metadata.shownAttributes, hc, if_neg Bool.false_ne_true] at hattributes
    have hserializable := h.isSerializable
    rw [hc, Bool.false_and] at hserializable
    rw [TypeDecl.attributeLines, ← Except.ok.inj hattributes, hserializable]
    rfl
  · rw [Bool.not_eq_true] at hkind
    cases kind with
    | field => rw [members, h.fields.hidden hkind]; rfl
    | property => rw [members, h.properties.hidden hkind]; rfl
    | method => rw [members, h.methods.hidden hkind]; rfl

theorem exists_imageShows {image : Nat} {decl : ImageDecl}
    (h : (m.assemble c)[image]? = some (.assembled decl)) :
    ∃ row answer, m.images[image]? = some row ∧ m.ImageShows c answer row image decl := by
  rw [Metadata.assemble_eq_soloOutcomes, Metadata.soloOutcomes, List.getElem?_map,
    Option.map_eq_some_iff] at h
  obtain ⟨_, hentry, houtcome⟩ := h
  rw [List.getElem?_zipIdx, Option.map_eq_some_iff] at hentry
  obtain ⟨row, hrow, rfl⟩ := hentry
  simp only [Nat.zero_add] at houtcome
  cases hdirect : (m.assembleImage c image row).direct with
  | error e =>
    simp only [hdirect] at houtcome
    cases houtcome
  | ok decl' =>
    simp only [hdirect] at houtcome
    cases houtcome
    have hrun := (Assembly.run_of_sound (m.asks_assembleImage c image row)
      (ModifierCache.sound_empty m.toSnapshot)).1
    exact ⟨row, _, hrow, (m.imageShows_of_assembleImage c row (hrun.trans hdirect)).1⟩

theorem alike_assemble (m : Metadata) (c : Config) : Alike c (m.assemble c) := by
  refine alike_iff_showsAll.2 fun decl hdecl t ht ↦ ?_
  obtain ⟨image, himage⟩ := List.mem_iff_getElem?.1 hdecl
  obtain ⟨_, _, -, hshows⟩ := exists_imageShows himage
  obtain ⟨i, hi⟩ := List.mem_iff_getElem?.1 ht
  obtain ⟨row, -, htype⟩ := hshows.exists_type hi
  exact showsAll_of_typeShows htype

end Assembled

/-- Both artifacts of any trees list the same declarations with the same attribute lines exactly if
the configuration that they are written with shows all that the trees have. It does if the trees
were assembled with it. -/
theorem alike_iff [Places] (c : Config) (outcomes : List Outcome) :
    String.join ((pieces c outcomes).map Piece.text) = Text.render c outcomes ∧
    Json.parse? (Document.render c outcomes) = some (Document.ofOutcomes c outcomes) ∧
    (Alike c outcomes ↔ ∀ decl, .assembled decl ∈ outcomes → ∀ t ∈ decl.types, ShowsAll c t) ∧
    ∀ m : Metadata, Alike c (m.assemble c) := by
  have hdocument := (Json.parse?_pretty (written_ofOutcomes c outcomes)).1
  exact ⟨join_pieces c outcomes, hdocument, alike_iff_showsAll, fun m ↦ alike_assemble m c⟩

def player : Outcome :=
  .assembled {
    index := 0
    name := "Game.dll"
    typeStart := 0
    types := [{
      index := 0
      space := ""
      name := "Player"
      category := .reference
      access := .everywhere
      modifier := none
      bases := []
      attributes := ""
      isSerializable := false
      fields := [⟨"", [.access .everywhere], false, "int", "health", none, some 16⟩]
      properties := []
      methods := [] }] }

open scoped Places in
/-- The field of the tree is in the document, but not in the text. -/
theorem not_alike_player : ∃ record,
    record? (Document.ofOutcomes { Config.full with fields := false } [player])
      (.member .field 0 0 0) = some record ∧
    record.get? "name" = some (.string "health") ∧
    Text.render { Config.full with fields := false } [player] =
      "// Image 0: Game.dll - 0\n\n// Namespace: \n" ++
        "public class Player // TypeDefIndex: 0\n\x7b\x7d\n" ∧
    ¬ Alike { Config.full with fields := false } [player] := by
  refine ⟨_, rfl, rfl, rfl, fun halike ↦ ?_⟩
  have hall := halike.showsAll (List.mem_singleton_self _) (List.mem_singleton_self _)
  obtain hshown | hempty := hall.members .field
  · cases hshown
  · cases hempty

end MetadataDump.Dump
