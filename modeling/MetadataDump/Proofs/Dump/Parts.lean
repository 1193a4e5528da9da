import MetadataDump.Proofs.Declaration.Isolation
import MetadataDump.Proofs.Dump.Equivalence

namespace MetadataDump

/-- What a dump of some images shows of one of their outcomes: a line of the head of the text, a
block of its body and a record of the document. All of them stand in the order of the images, and
every line of the head announces the image at its position. -/
structure Dump.Shows [Places] (c : Config) (images : List ImageRow) (outcomes : List Outcome)
    (k : Nat) (o : Outcome) : Prop where
  outcome : outcomes[k]? = some o
  order : outcomes.map place = (images.map ImageRow.typeStart).zipIdx.map Prod.swap
  text : Text.render c outcomes =
    String.join (outcomes.map Text.imageLine) ++ String.join (outcomes.map (Text.image c))
  headers : ∀ j p, outcomes[j]? = some p → Text.imageLine p = headerLine j p.name p.typeStart
  line : (outcomes.map Text.imageLine)[k]? = some (Text.imageLine o)
  block : (outcomes.map (Text.image c))[k]? = some (Text.image c o)
  document : Document.ofOutcomes c outcomes =
    .object [("images", .array (outcomes.map (Document.image c)))]
  record : (outcomes.map (Document.image c))[k]? = some (Document.image c o)

namespace Metadata

variable (m : Metadata) (c : Config)

theorem shows_assemble [Places] {k : Nat} {o : Outcome} (h : (m.assemble c)[k]? = some o) :
    Dump.Shows c m.images (m.assemble c) k o where
  outcome := h
  order := m.map_place_assemble c
  text := rfl
  headers _ _ := m.imageLine_of_getElem? c
  line := by rw [List.getElem?_map, h]; rfl
  block := by rw [List.getElem?_map, h]; rfl
  document := rfl
  record := by rw [List.getElem?_map, h]; rfl

theorem getElem?_assemble [Places] {k : Nat} {image : ImageRow} (hk : m.images[k]? = some image) :
    (m.assemble c)[k]? = some (m.outcome k image (m.assembleImage c k image).direct) := by
  rw [assemble_eq_soloOutcomes, soloOutcomes, List.getElem?_map, List.getElem?_zipIdx, hk]
  simp only [Option.map_some, Nat.zero_add]

variable {m c} {typeDefs : Array TypeRow} {fields : Array FieldRow}
  {properties : Array PropertyRow}

/-- Damage outside an image never reaches its part of the artifacts. Whatever the rows are that it
does not own, and whichever other images fail on them, the image has the same outcome, the same line
and block of text and the same record. If attributes are data, then they must not be shown, since
they may name any row. -/
theorem shows_withRows [Places] {k : Nat} {image : ImageRow} (hk : m.images[k]? = some image)
    (hc : c.attributes = true → m.version.major < 29)
    (h : m.AgreesOn image (m.withRows typeDefs fields properties)) :
    ∃ o, Dump.Shows c m.images (m.assemble c) k o ∧
      Dump.Shows c m.images ((m.withRows typeDefs fields properties).assemble c) k o := by
  have hk' : (m.withRows typeDefs fields properties).images[k]? = some image := hk
  refine ⟨_, m.shows_assemble c (m.getElem?_assemble c hk),
    shows_assemble (m.withRows typeDefs fields properties) c ?_⟩
  rw [getElem?_assemble _ c hk', assembleImage_withRows hc h]
  rfl

def shapes : Metadata := ofSnapshot (.shapes ⟨24, 0⟩)

/-- Shapes and squares, where the rows of the shapes refer to nothing that is there. -/
def damagedShapes : Metadata :=
  shapes.withRows
    (shapes.typeDefs.set! 0 ⟨99, 99, 99, 99, 99, 0, 99, 99, 99, 99, 9, 9, 9, 9, 0, 99, 0⟩)
    (shapes.fields.set! 0 ⟨99, 99, 99, 0⟩) (shapes.properties.set! 0 ⟨99, 99, 99, 0, 99, 0⟩)

theorem eq_one_of_owns {range : TypeRow → RowRange} {i : Nat} {row : TypeRow}
    (hrow : shapes.typeDefs[1]? = some row) (hrange : (range row).positions = [1])
    (h : shapes.Owns .squares range i) : i = 1 := by
  obtain ⟨type, htype, row', hrow', hi⟩ := h
  obtain rfl := List.mem_singleton.1 htype
  obtain rfl := Option.some.inj (hrow'.symm.trans hrow)
  rw [hrange, List.mem_singleton] at hi
  omega

theorem agreesOn_damagedShapes : shapes.AgreesOn .squares damagedShapes where
  typeDefs type htype := by
    obtain rfl := List.mem_singleton.1 htype
    rfl
  fields i hi := by
    obtain rfl := eq_one_of_owns rfl rfl hi
    rfl
  properties i hi := by
    obtain rfl := eq_one_of_owns rfl rfl hi
    rfl

open scoped Places in
theorem shows_damagedShapes :
    shapes.AgreesOn .squares damagedShapes ∧
    (shapes.assemble .full).map Outcome.isFailed = [false, false] ∧
    (damagedShapes.assemble .full).map Outcome.isFailed = [true, false] ∧
    ∃ o, Dump.Shows .full shapes.images (shapes.assemble .full) 1 o ∧
      Dump.Shows .full shapes.images (damagedShapes.assemble .full) 1 o := by
  have himage : shapes.images[1]? = some .squares := rfl
  have hversion : shapes.version.major < 29 := by decide
  exact ⟨agreesOn_damagedShapes, rfl, rfl,
    shows_withRows himage (fun _ ↦ hversion) agreesOn_damagedShapes⟩

end Metadata

end MetadataDump
