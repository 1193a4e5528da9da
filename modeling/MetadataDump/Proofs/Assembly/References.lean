import MetadataDump.Proofs.Assembly.Memo

namespace MetadataDump

namespace Snapshot

variable (s : Snapshot)

def HasText (i : UInt32) : Prop := i.toNat < s.strings.size

def HasType (i : Int32) : Prop := InTable s.types i.toInt

def HasTypeIfAny (i : Int32) : Prop := 0 ≤ i.toInt → s.HasType i

def HasContainerIfAny (i : Int32) : Prop := 0 ≤ i.toInt → InTable s.genericContainers i.toInt

def HasRow {α : Type} (rows : Array α) (i : Int) (p : α → Prop) : Prop :=
  ∃ row, RowAt rows i row ∧ p row

def HasRange (range : RowRange) (p : Int → Prop) : Prop :=
  ∀ j < range.count.toNat, p (range.start.toInt + (j : Int))

structure ParameterResolves (row : ParameterRow) : Prop where
  type : s.HasType row.typeIndex
  name : s.HasText row.nameIndex

end Snapshot

namespace Metadata

open Snapshot

variable (m : Metadata) (c : Config) (image : ImageRow)

/-- Where attributes are shown and generated by functions, a declaration with an attribute range
needs the range, its part of the attribute types, and the types in it. -/
def AttributesResolve (index : Int32) (token : UInt32) : Prop :=
  c.attributes → 21 ≤ m.version.major → m.version.major < 29 →
    ∀ i, m.attributeIndex? image index token = some i →
      ∃ range, m.attributeTypeRanges[i]? = some range ∧
        range.start.toNat + range.count.toNat ≤ m.attributeTypes.length ∧
        ∀ j < range.count.toNat, ∃ type,
          m.attributeTypes[range.start.toNat + j]? = some type ∧ m.HasType type

structure FieldResolves (row : FieldRow) : Prop where
  type : m.HasType row.typeIndex
  name : m.HasText row.nameIndex
  attributes : m.AttributesResolve c image row.customAttributeIndex row.token

/-- The method of an accessor, counted from the first one of the owner, unless it is absent. -/
def AccessorResolves (owner : TypeRow) (relative : Int32) (p : MethodRow → Prop) : Prop :=
  0 ≤ relative.toInt → HasRow m.methods (owner.methodStart.toInt + relative.toInt) p

structure PropertyResolves (owner : TypeRow) (row : PropertyRow) : Prop where
  name : m.HasText row.nameIndex
  getter : m.AccessorResolves owner row.get fun method ↦ m.HasType method.returnType
  setter : m.AccessorResolves owner row.set fun method ↦
    HasRow m.parameters method.parameterStart.toInt fun parameter ↦ m.HasType parameter.typeIndex
  attributes : m.AttributesResolve c image row.customAttributeIndex row.token

structure MethodResolves (row : MethodRow) : Prop where
  name : m.HasText row.nameIndex
  returnType : m.HasType row.returnType
  container : m.HasContainerIfAny row.genericContainerIndex
  parameters : HasRange row.parameterRange fun position ↦
    HasRow m.parameters position m.ParameterResolves
  attributes : m.AttributesResolve c image row.customAttributeIndex row.token

/-- Members only count if members of their kind are shown. -/
structure TypeResolves (row : TypeRow) : Prop where
  space : m.HasText row.namespaceIndex
  name : m.HasText row.nameIndex
  parent : m.HasTypeIfAny row.parentIndex
  interfaces : HasRange row.interfaceRange fun position ↦
    HasRow m.interfaceIndices position m.HasType
  container : m.HasContainerIfAny row.genericContainerIndex
  attributes : m.AttributesResolve c image row.customAttributeIndex row.token
  fields : c.fields → HasRange row.fieldRange fun position ↦
    HasRow m.fields position (m.FieldResolves c image)
  properties : c.properties → HasRange row.propertyRange fun position ↦
    HasRow m.properties position (m.PropertyResolves c image row)
  methods : c.methods → HasRange row.methodRange fun position ↦
    HasRow m.methods position (m.MethodResolves c image)

structure ImageResolves : Prop where
  name : m.HasText image.nameIndex
  range : image.typeCount = 0 ∨
    image.typeStart.toNat + image.typeCount.toNat ≤ m.typeDefs.size
  types : ∀ j < image.typeCount.toNat,
    HasRow m.typeDefs (image.typeStart.toNat + j : Nat) (m.TypeResolves c image)

end Metadata

namespace Assembly

variable {α β : Type} {P Q : Prop}

/-- The computation succeeds exactly if `P` holds, whatever the answers to its questions. -/
def Decides (P : Prop) : Assembly α → Prop
  | .done result => Succeeds result ↔ P
  | .ask _ _ resume => ∀ answer, Decides P (resume answer)

theorem Decides.iff {x : Assembly α} (hx : x.Decides P) (h : P ↔ Q) : x.Decides Q := by
  induction x with
  | done r => exact Iff.trans hx h
  | ask method flags resume ih => exact fun answer ↦ ih answer (hx answer)

theorem Decides.run {x : Assembly α} (hx : x.Decides P) (cache : ModifierCache) :
    Succeeds (x.run cache).1 ↔ P := by
  induction x generalizing cache with
  | done r => exact hx
  | ask method flags resume ih => exact ih _ (hx _) _

theorem decides_lift (e : Except Error α) : (liftM e : Assembly α).Decides (Succeeds e) := Iff.rfl

theorem decides_pure (a : α) : (pure a : Assembly α).Decides True :=
  iff_true_intro (succeeds_ok a)

theorem decides_modifiers (method : Nat) (flags : UInt32) :
    (modifiers method flags).Decides True :=
  fun answer ↦ decides_pure answer

theorem decides_unless_absent {i : Int32} {a : α} {x : Assembly α} (hx : x.Decides P) :
    (if i < 0 then pure a else x : Assembly α).Decides (0 ≤ i.toInt → P) := by
  have hi : i < 0 ↔ i.toInt < 0 := Int32.lt_iff_toInt_lt
  by_cases h : i < 0
  · have hneg := hi.1 h
    rw [if_pos h]
    exact (decides_pure a).iff (iff_of_true trivial fun _ ↦ by omega)
  · have hnonneg := mt hi.2 h
    rw [if_neg h]
    exact hx.iff ⟨fun hp _ ↦ hp, fun hp ↦ hp (by omega)⟩

/-- What a step returns may decide what follows only if the step is a question to the tables. -/
theorem decides_lift_bind {e : Except Error α} {f : α → Assembly β} {p : α → Prop}
    (hf : ∀ a, e = .ok a → (f a).Decides (p a)) :
    (liftM e >>= f : Assembly β).Decides (∃ a, e = .ok a ∧ p a) := by
  cases e with
  | ok a => exact (hf a rfl).iff (by simp)
  | error e => exact iff_of_false (not_succeeds_error e) (by simp)

theorem Decides.bind {x : Assembly α} {f : α → Assembly β} (hx : x.Decides P)
    (hf : ∀ a, (f a).Decides Q) : (x >>= f).Decides (P ∧ Q) := by
  induction x with
  | done r =>
    cases r with
    | ok a => exact (hf a).iff (by rw [← (show _ ↔ P from hx)]; simp [succeeds_ok])
    | error e => exact iff_of_false (not_succeeds_error e) fun h ↦ not_succeeds_error e (hx.2 h.1)
  | ask method flags resume ih => exact fun answer ↦ ih answer (hx answer)

theorem decides_mapM {f : α → Assembly β} {p : α → Prop} (hf : ∀ a, (f a).Decides (p a))
    (as : List α) : (as.mapM f).Decides (∀ a ∈ as, p a) := by
  induction as with
  | nil => exact (decides_pure []).iff (by simp)
  | cons a as ih =>
    rw [List.mapM_cons]
    exact ((hf a).bind fun _ ↦ ih.bind fun _ ↦ decides_pure _).iff (by simp)

end Assembly

end MetadataDump
