import MetadataDump.Proofs.Assembly.Schedule
import MetadataDump.Proofs.Dump.Members

namespace MetadataDump

open Json (Same)

namespace Dump

variable {c : Config}

theorem memberSection_eq {α : Type} (isShown : Bool) (title : String) {write : α → String}
    {as bs : List α} (h : as.map write = bs.map write) :
    Text.memberSection isShown title write as = Text.memberSection isShown title write bs := by
  have hempty : as.isEmpty = bs.isEmpty := by
    rw [← List.isEmpty_map, h, List.isEmpty_map]
  rw [Text.memberSection, Text.memberSection, h, hempty]

theorem get?_type_members (c : Config) (t : TypeDecl) :
    (Document.type c t).get? "fields" = some (.array (t.fields.map Document.field)) ∧
      (Document.type c t).get? "properties" = some (.array (t.properties.map Document.property)) ∧
      (Document.type c t).get? "methods" = some (.array (t.methods.map Document.method)) := by
  unfold Document.type
  cases c.typeIndex <;> exact ⟨rfl, rfl, rfl⟩

theorem indexComment_eq_of_same {t u : TypeDecl}
    (h : Same (Document.type c t) (Document.type c u)) :
    Text.indexComment c t.index = Text.indexComment c u.index := by
  unfold Text.indexComment
  cases hc : c.typeIndex with
  | false => rfl
  | true =>
    simp only [Document.type, hc, if_true] at h
    rw [(h.member "typeDefIndex" rfl rfl).ofNat_eq]

theorem type_eq_of_same {s s' : Snapshot} {t u : TypeDecl} (ht : t.Assembled s c)
    (hu : u.Assembled s' c) (h : Same (Document.type c t) (Document.type c u)) :
    Text.type c t = Text.type c u := by
  have hspace := (h.member "namespace" rfl rfl).string_eq
  have hbases := (h.member "extends" rfl rfl).strings_eq
  have hattributes := (h.member "attributes" rfl rfl).string_eq
  have hmodifiers := modifiers_eq_of_same (h.member "visibility" rfl rfl)
  have hcategory := (h.member "category" rfl rfl).string_eq
  have hname := (h.member "typeName" rfl rfl).string_eq
  have hindex := indexComment_eq_of_same h
  obtain ⟨htf, htp, htm⟩ := get?_type_members c t
  obtain ⟨huf, hup, hum⟩ := get?_type_members c u
  have hfields := map_eq_of_same Text.field (h.member "fields" htf huf) fun f g hmem ↦
    field_eq_of_same (ht.fields f (List.of_mem_zip hmem).1) (hu.fields g (List.of_mem_zip hmem).2)
  have hproperties := map_eq_of_same Text.property (h.member "properties" htp hup) fun _ _ _ ↦
    property_eq_of_same
  have hmethods := map_eq_of_same (Text.method c) (h.member "methods" htm hum) fun d e hmem ↦
    method_eq_of_same c (ht.methods d (List.of_mem_zip hmem).1)
      (hu.methods e (List.of_mem_zip hmem).2)
  unfold Text.type Text.header
  rw [hspace, hbases, hattributes, hmodifiers, hcategory, hname, hindex,
    memberSection_eq _ _ hfields, memberSection_eq _ _ hproperties, memberSection_eq _ _ hmethods]

def place (o : Outcome) : Nat × UInt32 := (o.index, o.typeStart)

def headerLine (index : Nat) (name : String) (start : UInt32) : String :=
  s!"// Image {index}: {name} - {start.toNat}\n"

theorem image_eq_of_same [Places] {s s' : Snapshot} {o p : Outcome} (ho : o.Assembled s c)
    (hp : p.Assembled s' c) (hplace : place o = place p)
    (h : Same (Document.image c o) (Document.image c p)) :
    Text.imageLine o = Text.imageLine p ∧ Text.image c o = Text.image c p := by
  obtain ⟨hindex, hstart⟩ := Prod.mk.inj hplace
  have hline (hname : o.name = p.name) : Text.imageLine o = Text.imageLine p := by
    rw [Text.imageLine, Text.imageLine, hindex, hname, hstart]
  cases o with
  | assembled d =>
    cases p with
    | assembled e =>
      have htypes := map_eq_of_same (Text.type c) (h.member "typedObjects" rfl rfl)
        fun t u hmem ↦
          type_eq_of_same (ho t (List.of_mem_zip hmem).1) (hp u (List.of_mem_zip hmem).2)
      exact ⟨hline (h.member "name" rfl rfl).string_eq, congrArg String.join htypes⟩
    | failed g => cases h.get? "error"
  | failed f =>
    cases p with
    | assembled e => cases h.get? "error"
    | failed g =>
      have hname : f.name = g.name := (h.member "name" rfl rfl).string_eq
      have herror := (h.member "error" rfl rfl).string_eq
      have htext : Text.failure f = Text.failure g := by
        unfold Text.failure
        rw [hname, herror]
      exact ⟨hline hname, htext⟩

end Dump

namespace Metadata

theorem assembled_of_mem_assemble [Places] (m : Metadata) (c : Config) :
    ∀ o ∈ m.assemble c, o.Assembled m.toSnapshot c := by
  rw [assemble_eq_soloOutcomes]
  intro o ho
  obtain ⟨⟨image, index⟩, _, rfl⟩ := List.mem_map.1 ho
  dsimp only
  cases hdirect : (m.assembleImage c index image).direct with
  | ok decl => exact (m.assembled_of_assembleImage c image hdirect).2.2
  | error e => trivial

theorem map_place_assemble [Places] (m : Metadata) (c : Config) :
    (m.assemble c).map Dump.place = (m.images.map ImageRow.typeStart).zipIdx.map Prod.swap := by
  rw [assemble_eq_soloOutcomes, soloOutcomes, List.map_map, List.zipIdx_map, List.map_map]
  refine List.map_congr_left ?_
  rintro ⟨image, index⟩ -
  simp only [Function.comp_apply, Prod.map, Prod.swap]
  cases hdirect : (m.assembleImage c index image).direct with
  | ok decl =>
    obtain ⟨hindex, hstart, _⟩ := m.assembled_of_assembleImage c image hdirect
    exact Prod.ext hindex hstart
  | error e => rfl

theorem imageLine_of_getElem? [Places] (m : Metadata) (c : Config) {k : Nat} {o : Outcome}
    (h : (m.assemble c)[k]? = some o) :
    Dump.Text.imageLine o = Dump.headerLine k o.name o.typeStart := by
  have hplace := congrArg (·[k]?) (m.map_place_assemble c)
  simp only [List.getElem?_map, h, List.getElem?_zipIdx, Option.map_map] at hplace
  obtain ⟨image, -, himage⟩ := Option.map_eq_some_iff.1 hplace.symm
  have hindex : o.index = k := by
    have hfst := congrArg Prod.fst himage
    simpa [Dump.place] using hfst.symm
  rw [Dump.Text.imageLine, hindex]
  rfl

/-- The text of an assembly is decided by its document and by where the types of the images
start. -/
theorem render_text_eq_of_same [Places] (c : Config) (m n : Metadata)
    (hstart : m.images.map ImageRow.typeStart = n.images.map ImageRow.typeStart)
    (hsame : Same (Dump.Document.ofOutcomes c (m.assemble c))
      (Dump.Document.ofOutcomes c (n.assemble c))) :
    Dump.Text.render c (m.assemble c) = Dump.Text.render c (n.assemble c) := by
  have hplace : (m.assemble c).map Dump.place = (n.assemble c).map Dump.place := by
    rw [map_place_assemble, map_place_assemble, hstart]
  have himages := hsame.member "images" rfl rfl
  have hpairs : ∀ o p, (o, p) ∈ (m.assemble c).zip (n.assemble c) →
      Same (Dump.Document.image c o) (Dump.Document.image c p) →
      Dump.Text.imageLine o = Dump.Text.imageLine p ∧
        Dump.Text.image c o = Dump.Text.image c p := by
    intro o p hmem
    obtain ⟨ho, hp⟩ := List.of_mem_zip hmem
    exact Dump.image_eq_of_same (m.assembled_of_mem_assemble c o ho)
      (n.assembled_of_mem_assemble c p hp)
      ((List.forall₂_iff_zip.1 (Dump.forall₂_iff_map_eq.2 hplace)).2 hmem)
  have hlines := Dump.map_eq_of_same Dump.Text.imageLine himages fun o p hmem h ↦
    (hpairs o p hmem h).1
  have htexts := Dump.map_eq_of_same (Dump.Text.image c) himages fun o p hmem h ↦
    (hpairs o p hmem h).2
  rw [Dump.Text.render, Dump.Text.render, hlines, htexts]

def sampleClass (unused : List String) : Metadata :=
  .ofSnapshot { Snapshot.blank ⟨24, 0⟩ with
    strings := ("Boxes.dll" :: "Box" :: "size" :: unused).toArray
    images := [⟨0, 0, 1, 0, 0, 0⟩]
    typeDefs := #[⟨1, 2, -1, -1, -1, 0x100001, 0, 0, 0, 0, 0, 0, 1, 0, 0, -1, 0⟩]
    fields := #[⟨2, 0, -1, 0⟩]
    types := #[⟨"int", none, 0x6, 0x8, false, none⟩]
    fieldDefaults := (∅ : Std.ExtTreeMap UInt64 DefaultRow).insert 0 ⟨0, 7⟩
    literals := (∅ : Std.ExtTreeMap Int32 DefaultValue).insert 7 (.int 5) }

open scoped Places in
theorem render_text_sampleClass :
    Dump.Text.render .full ((sampleClass []).assemble .full) =
      Dump.Text.render .full ((sampleClass ["unused"]).assemble .full) := by
  have hsame : Dump.Document.ofOutcomes .full ((sampleClass []).assemble .full) =
      Dump.Document.ofOutcomes .full ((sampleClass ["unused"]).assemble .full) := rfl
  exact render_text_eq_of_same .full (sampleClass []) (sampleClass ["unused"]) rfl
    (hsame ▸ Same.refl _)

end Metadata

end MetadataDump
