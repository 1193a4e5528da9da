import MetadataDump.Dump.Document
import MetadataDump.Dump.Run
import MetadataDump.Dump.Text
import MetadataDump.Json.Parser
import MetadataDump.Proofs.Dump.Equivalence
import MetadataDump.Proofs.Json.RoundTrip

namespace MetadataDump

namespace Json

@[simp] theorem written_null : Written .null := .null

@[simp] theorem written_bool (b : Bool) : Written (.bool b) := .bool b

@[simp] theorem written_string (s : String) : Written (.string s) := .string s

@[simp] theorem written_ofNat (n : Nat) : Written (ofNat n) := .number _

@[simp] theorem written_ofInt (n : Int) : Written (ofInt n) := .number _

@[simp] theorem written_strings (texts : List String) : Written (strings texts) := by
  apply Written.array
  intro v hv
  obtain ⟨s, -, rfl⟩ := List.mem_map.1 hv
  exact .string s

theorem written_ofOption {α : Type} {f : α → Json} (hf : ∀ a, Written (f a)) (x : Option α) :
    Written (ofOption f x) := by
  cases x with
  | none => exact .null
  | some a => exact hf a

theorem written_map {α : Type} {f : α → Json} (hf : ∀ a, Written (f a)) (as : List α) :
    Written (.array (as.map f)) := by
  apply Written.array
  intro v hv
  obtain ⟨a, -, rfl⟩ := List.mem_map.1 hv
  exact hf a

/-- Members whose names are written plainly, with values that are. -/
def PlainMembers (members : Members) : Prop :=
  ∀ m ∈ members, m.1 = .ofString m.1.text ∧ Written m.2

theorem PlainMembers.object {members : Members} (h : PlainMembers members) :
    Written (.object members) := .object (fun m hm ↦ (h m hm).1) fun m hm ↦ (h m hm).2

@[simp] theorem plainMembers_nil : PlainMembers [] := fun _ hm ↦ absurd hm List.not_mem_nil

@[simp] theorem plainMembers_cons {name : String} {v : Json} {members : Members} :
    PlainMembers ((Name.ofString name, v) :: members) ↔ Written v ∧ PlainMembers members := by
  unfold PlainMembers
  rw [List.forall_mem_cons]
  exact and_congr_left fun _ ↦ and_iff_right rfl

@[simp] theorem plainMembers_append {ms ns : Members} :
    PlainMembers (ms ++ ns) ↔ PlainMembers ms ∧ PlainMembers ns := List.forall_mem_append

end Json

namespace Dump

open Json (PlainMembers Written)

section Documents

theorem written_default (d : Option Literal) : Written (Document.default d) :=
  Json.written_ofOption (fun _ ↦ .string _) d

theorem written_field (f : FieldDecl) : Written (Document.field f) := by
  apply PlainMembers.object
  simp [Document.modifiers, written_default]

theorem written_accessor (name : String) (a : Accessor) : Written (Document.accessor name a) := by
  apply PlainMembers.object
  simp [Document.modifiers]

theorem written_property (p : PropertyDecl) : Written (Document.property p) := by
  have htype := Json.written_ofOption (f := fun a : Accessor ↦ .string a.typeName)
    (fun _ ↦ .string _) p.primary
  have haccessor := Json.written_ofOption (written_accessor p.name)
  apply PlainMembers.object
  simp [Document.modifiers, htype, haccessor]

theorem written_parameter (p : ParameterDecl) : Written (Document.parameter p) := by
  apply PlainMembers.object
  simp [written_default]

theorem plainMembers_address (a : Option Address) : PlainMembers (Document.address a) := by
  simp [Document.address]

theorem written_instantiation (a : Option Address) (i : Instantiation) :
    Written (Document.instantiation a i) := by
  apply PlainMembers.object
  simp [plainMembers_address]

theorem written_method (m : MethodDecl) : Written (Document.method m) := by
  have hparameters := Json.written_map written_parameter m.parameters
  have hslot := Json.written_ofOption (f := fun slot : UInt16 ↦ .ofNat slot.toNat)
    (fun _ ↦ .number _) m.slot
  have hgenerics : Written (.array (m.generics.flatMap Document.group)) := by
    apply Written.array
    intro v hv
    obtain ⟨g, -, hg⟩ := List.mem_flatMap.1 hv
    obtain ⟨i, -, rfl⟩ := List.mem_map.1 hg
    exact written_instantiation g.address i
  apply PlainMembers.object
  simp [Document.modifiers, plainMembers_address, hparameters, hslot, hgenerics]

theorem written_type (c : Config) (t : TypeDecl) : Written (Document.type c t) := by
  have hfields := Json.written_map written_field t.fields
  have hproperties := Json.written_map written_property t.properties
  have hmethods := Json.written_map written_method t.methods
  apply PlainMembers.object
  cases c.typeIndex <;> simp [Document.modifiers, hfields, hproperties, hmethods]

theorem written_image [Places] (c : Config) (o : Outcome) : Written (Document.image c o) := by
  cases o with
  | assembled decl =>
    have htypes := Json.written_map (written_type c) decl.types
    apply PlainMembers.object
    simp [htypes]
  | failed f =>
    apply PlainMembers.object
    simp [Json.Written.array]

theorem written_ofOutcomes [Places] (c : Config) (outcomes : List Outcome) :
    Written (Document.ofOutcomes c outcomes) := by
  have himages := Json.written_map (written_image c) outcomes
  apply PlainMembers.object
  simp [himages]

end Documents

section Counts

variable {c : Config} {outcomes : List Outcome}

def errorBlock (name message : String) : String :=
  s!"/*ERROR: Some errors in dumping image {name}\n{message}*/\n"

def isErrorBlock (block : String) : Bool :=
  "/*ERROR: Some errors in dumping image ".toList.isPrefixOf block.toList

theorem isErrorBlock_errorBlock (name message : String) :
    isErrorBlock (errorBlock name message) = true := by
  unfold isErrorBlock errorBlock
  simp only [String.toList_append, List.append_assoc]
  exact List.isPrefixOf_iff_prefix.2 (List.prefix_append _ _)

theorem exists_type_eq (c : Config) (t : TypeDecl) :
    ∃ rest, (Text.type c t).toList = '\n' :: rest := by
  unfold Text.type
  simp only [String.toList_append]
  exact ⟨_, rfl⟩

theorem isErrorBlock_image [Places] (c : Config) (o : Outcome) :
    isErrorBlock (Text.image c o) = o.isFailed := by
  cases o with
  | assembled decl =>
    show isErrorBlock (String.join (decl.types.map (Text.type c))) = false
    cases decl.types with
    | nil => rfl
    | cons t ts =>
      obtain ⟨rest, hrest⟩ := exists_type_eq c t
      unfold isErrorBlock
      rw [List.map_cons, String.join_cons, String.toList_append, hrest]
      rfl
  | failed f =>
    exact isErrorBlock_errorBlock f.name f.error.message

/-- The text of a dump of some outcomes is a header for each of them and then a block for each. The
block of a failed image is one comment on its error, and no other block begins like one. -/
structure TextCounts [Places] (c : Config) (outcomes : List Outcome) (text : String)
    (s : Summary) : Prop where
  eq_join : text =
    String.join (outcomes.map Text.imageLine) ++ String.join (outcomes.map (Text.image c))
  header : ∀ k o, outcomes[k]? = some o → Text.imageLine o = headerLine k o.name o.typeStart
  failed_block : ∀ f, .failed f ∈ outcomes →
    Text.image c (.failed f) = errorBlock f.name f.error.message
  isErrorBlock_iff : ∀ block ∈ outcomes.map (Text.image c),
    isErrorBlock block = true ↔ ∃ name message, block = errorBlock name message
  images : (outcomes.map Text.imageLine).length = s.images
  failed : (outcomes.map (Text.image c)).countP isErrorBlock = s.failed

def DocumentCounts (text : String) (s : Summary) : Prop :=
  ∃ (document : Json) (images : List Json),
    Json.parse? text = some document ∧ document.get? "images" = some (.array images) ∧
      images.length = s.images ∧ images.countP (fun v ↦ (v.get? "error").isSome) = s.failed

theorem textCounts_render [Places] (m : Metadata) (c : Config) :
    TextCounts c (m.assemble c) (Text.render c (m.assemble c)) (.ofOutcomes (m.assemble c)) where
  eq_join := rfl
  header _ _ := m.imageLine_of_getElem? c
  failed_block _ _ := rfl
  isErrorBlock_iff := by
    intro block hblock
    obtain ⟨o, -, rfl⟩ := List.mem_map.1 hblock
    constructor
    · rw [isErrorBlock_image]
      intro hfailed
      cases o with
      | assembled decl => cases hfailed
      | failed f => exact ⟨f.name, f.error.message, rfl⟩
    · rintro ⟨name, message, heq⟩
      rw [heq]
      exact isErrorBlock_errorBlock name message
  images := List.length_map _
  failed := by
    rw [List.countP_map]
    exact List.countP_congr fun o _ ↦ by rw [Function.comp_apply, isErrorBlock_image]

theorem documentCounts_render [Places] (c : Config) (outcomes : List Outcome) :
    DocumentCounts (Document.render c outcomes) (.ofOutcomes outcomes) := by
  have herror : ∀ o, ((Document.image c o).get? "error").isSome = o.isFailed := by
    intro o
    cases o <;> rfl
  refine ⟨Document.ofOutcomes c outcomes, outcomes.map (Document.image c), ?_, rfl, ?_, ?_⟩
  · exact (Json.parse?_pretty (written_ofOutcomes c outcomes)).1
  · rw [List.length_map]
    rfl
  · rw [List.countP_map]
    exact List.countP_congr fun o _ ↦ by rw [Function.comp_apply, herror]

end Counts

end Dump

end MetadataDump
