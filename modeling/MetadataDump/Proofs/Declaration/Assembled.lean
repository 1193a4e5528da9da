import MetadataDump.Proofs.Assembly.Questions
import MetadataDump.Proofs.Declaration.Groups
import MetadataDump.Proofs.Declaration.Literal
import MetadataDump.Proofs.Snapshot.Lookup

namespace MetadataDump

/-- Exactly the constants show their modifier. Offsets, where shown, are those of all other
fields. -/
structure FieldDecl.Assembled (c : Config) (f : FieldDecl) : Prop where
  isConst : f.isConst = true ↔ .constant ∈ f.modifiers
  offset : f.offset.isSome = (c.fieldOffsets && !f.isConst)
  default : ∀ d ∈ f.default, d.IsClear

structure MethodDecl.Assembled (s : Snapshot) (d : MethodDecl) : Prop where
  address : ∀ a ∈ d.address, a.va ≠ 0
  parameters : ∀ p ∈ d.parameters, ∀ l ∈ p.default, l.IsClear
  generics : GenericGroup.Grouped s d.generics

structure TypeDecl.Assembled (s : Snapshot) (c : Config) (t : TypeDecl) : Prop where
  fields : ∀ f ∈ t.fields, f.Assembled c
  methods : ∀ d ∈ t.methods, d.Assembled s

def Outcome.Assembled (s : Snapshot) (c : Config) : Outcome → Prop
  | .assembled decl => ∀ t ∈ decl.types, t.Assembled s c
  | .failed _ => True

theorem constant_mem_modifiers_iff (word : UInt32) :
    .constant ∈ (Flags.fieldHeader word).modifiers ↔ (Flags.fieldHeader word).isConst = true := by
  unfold Flags.fieldHeader Flags.FieldHeader.modifiers
  cases Flags.has word 0x40 with
  | true => simp
  | false => cases Flags.has word 0x10 <;> cases Flags.has word 0x20 <;> simp

theorem Snapshot.isClear_of_mem_literal? (s : Snapshot) {row : Option DefaultRow} {d : Literal}
    (h : d ∈ s.literal? row) : d.IsClear := by
  obtain ⟨row, _, rfl⟩ := Option.map_eq_some_iff.1 h
  exact DefaultValue.isClear_literal _

namespace Metadata

variable (m : Metadata) (c : Config) (image : ImageRow)

theorem assembled_of_assembleField [Places] {type : Nat} {owner : TypeRow} {position : Int}
    {f : FieldDecl}
    (h : m.assembleField c image type owner position = .ok f) : f.Assembled c := by
  simp only [assembleField, bind_eq_ok_iff] at h
  obtain ⟨row, _, reference, _, attributes, _, typeName, _, name, _, hf⟩ := h
  obtain rfl := Except.ok.inj hf
  refine ⟨(constant_mem_modifiers_iff _).symm, ?_, fun d hd ↦ m.isClear_of_mem_literal? hd⟩
  dsimp only
  split
  · simp [*]
  · simp [*]

theorem isClear_of_assembleParameter {position : Int} {p : ParameterDecl}
    (h : m.assembleParameter position = .ok p) : ∀ l ∈ p.default, l.IsClear := by
  simp only [assembleParameter, bind_eq_ok_iff] at h
  obtain ⟨row, _, reference, _, typeName, _, name, _, hp⟩ := h
  obtain rfl := Except.ok.inj hp
  exact fun l hl ↦ m.isClear_of_mem_literal? hl

theorem assembled_of_assembleMethod [Places] {imageName : String} {position : Int} {d : MethodDecl}
    (h : (m.assembleMethod c image imageName position).direct = .ok d) :
    d.Assembled m.toSnapshot := by
  simp only [assembleMethod, Assembly.direct_bind, Assembly.direct_lift, bind_eq_ok_iff] at h
  obtain ⟨row, _, attributes, _, name, _, generics, _, reference, _, parameters, hparameters,
    modifiers, _, returnType, _, hd⟩ := h
  obtain rfl := Except.ok.inj hd
  refine ⟨fun a ha ↦ ?_, forall_of_mapM_eq_ok (fun _ _ ↦ m.isClear_of_assembleParameter)
    hparameters, GenericGroup.grouped_ofSpecs _ _⟩
  dsimp only [methodAddress?] at ha
  split at ha
  · split at ha
    · cases ha
    · exact m.va_ne_zero_of_mem_address? ha
  · cases ha

theorem forall_of_members {α : Type} {isShown : Bool} {range : RowRange}
    {assemble : Int → Assembly α} {p : α → Prop}
    (hp : ∀ position a, (assemble position).direct = .ok a → p a) {as : List α}
    (h : (members isShown range assemble).direct = .ok as) : ∀ a ∈ as, p a := by
  unfold members at h
  cases isShown with
  | false =>
    obtain rfl := Except.ok.inj h
    simp
  | true =>
    simp only [if_true, Assembly.direct_mapM] at h
    exact forall_of_mapM_eq_ok hp h

theorem assembled_of_assembleType [Places] {imageName : String} {index : Nat} {t : TypeDecl}
    (h : (m.assembleType c image imageName index).direct = .ok t) : t.Assembled m.toSnapshot c := by
  simp only [assembleType, Assembly.direct_bind, Assembly.direct_lift, bind_eq_ok_iff] at h
  obtain ⟨row, _, bases, _, space, _, attributes, _, name, _, fields, hfields, properties, _,
    methods, hmethods, ht⟩ := h
  obtain rfl := Except.ok.inj ht
  refine ⟨forall_of_members (fun _ _ hf ↦ ?_) hfields, forall_of_members (fun _ _ hd ↦ ?_) hmethods⟩
  · exact m.assembled_of_assembleField c image hf
  · exact m.assembled_of_assembleMethod c image hd

theorem assembled_of_assembleImage [Places] {index : Nat} {decl : ImageDecl}
    (h : (m.assembleImage c index image).direct = .ok decl) :
    decl.index = index ∧ decl.typeStart = image.typeStart ∧
      ∀ t ∈ decl.types, t.Assembled m.toSnapshot c := by
  simp only [assembleImage, Assembly.direct_bind, Assembly.direct_lift, Assembly.direct_mapM,
    bind_eq_ok_iff] at h
  obtain ⟨name, _, _, _, types, htypes, hdecl⟩ := h
  obtain rfl := Except.ok.inj hdecl
  exact ⟨rfl, rfl, forall_of_mapM_eq_ok (fun _ _ ↦ m.assembled_of_assembleType c image) htypes⟩

end Metadata

end MetadataDump
