import MetadataDump.Proofs.Declaration.Faithful

namespace MetadataDump

theorem RowRange.head?_positions_eq_some_iff {range : RowRange} {position : Int} :
    range.positions.head? = some position ↔ range.count ≠ 0 ∧ position = range.start.toInt := by
  have hzero : range.count = 0 ↔ range.count.toNat = 0 := UInt16.toNat_inj.symm
  rw [ne_eq, hzero, positions, List.head?_map]
  cases range.count.toNat with
  | zero => simp
  | succ n => simp [List.range_succ_eq_map, eq_comm]

theorem RowRange.add_mem_positions_iff {range : RowRange} {i : Int} (hi : 0 ≤ i) :
    range.start.toInt + i ∈ range.positions ↔ i < range.count.toNat := by
  rw [mem_positions_iff]
  constructor
  · intro h
    obtain ⟨j, hj, he⟩ := h
    omega
  · intro h
    exact ⟨i.toNat, by omega, by omega⟩

theorem Copies.forall_iff {α β : Type} {rows : Array α} {range : RowRange}
    {shows : Nat → α → β → Prop} {items : List β} (h : Copies rows range shows items)
    {p : α → Prop} {q : β → Prop} (hpq : ∀ j row item, shows j row item → (q item ↔ p row)) :
    (∀ item ∈ items, q item) ↔ ∀ j < range.count.toNat, ∀ row,
      RowAt rows (range.start.toInt + (j : Int)) row → p row := by
  constructor
  · intro hq j hj row hrow
    obtain ⟨row', item, hrow', hitem, hshows⟩ := h.item j hj
    obtain rfl := hrow.unique hrow'
    exact (hpq j row item hshows).1 (hq item (List.mem_of_getElem? hitem))
  · intro hp item hitem
    obtain ⟨j, hj⟩ := List.mem_iff_getElem?.1 hitem
    obtain ⟨hlt, -⟩ := List.getElem?_eq_some_iff.1 hj
    obtain ⟨row, hrow, hshows⟩ := h.exists_row hj
    exact (hpq j row item hshows).2 (hp j (h.length ▸ hlt) row hrow)

namespace Metadata

variable (m : Metadata)

/-- An accessor that is a method of a type. `IsType` tells which type it has to show. -/
def AccessorBelongs (owner : TypeRow) (IsType : MethodRow → Int32 → Prop) (a : Accessor) : Prop :=
  (a.method : Int) ∈ owner.methodRange.positions ∧ ∃ method type,
    RowAt m.methods a.method method ∧ IsType method type ∧ m.typeName type = .ok a.typeName

def IsFirstParameterType (method : MethodRow) (type : Int32) : Prop :=
  ∃ position parameter, method.parameterRange.positions.head? = some position ∧
    RowAt m.parameters position parameter ∧ type = parameter.typeIndex

structure PropertyBelongs (owner : TypeRow) (p : PropertyDecl) : Prop where
  getter : ∀ a ∈ p.getter, m.AccessorBelongs owner (fun method type ↦ type = method.returnType) a
  setter : ∀ a ∈ p.setter, m.AccessorBelongs owner m.IsFirstParameterType a

/-- All accessors are methods of the type that owns the property. -/
def AccessorsBelong (decl : ImageDecl) : Prop :=
  ∀ t ∈ decl.types, ∃ owner, m.typeDefs[t.index]? = some owner ∧
    ∀ p ∈ t.properties, m.PropertyBelongs owner p

/-- A property whose accessors are counted no further than its type has methods, and whose setter
has a parameter. -/
structure PropertyInRange (owner : TypeRow) (row : PropertyRow) : Prop where
  getter : row.get.toInt < owner.methodCount.toNat
  setter : row.set.toInt < owner.methodCount.toNat
  parameter : 0 ≤ row.set.toInt → ∀ method,
    RowAt m.methods (owner.methodStart.toInt + row.set.toInt) method → method.parameterCount ≠ 0

variable {m} {c : Config} {answer : Nat → UInt32 → List Modifier} {image : ImageRow}
  {owner : TypeRow}

theorem accessorBelongs_iff {relative : Int32} {IsShown IsType : MethodRow → Int32 → Prop}
    {P : MethodRow → Prop} {shown : Option Accessor}
    (h : m.AccessorShows answer owner relative IsShown shown)
    (htypes : ∀ method type, IsType method type ↔ P method ∧ IsShown method type) :
    (∀ a ∈ shown, m.AccessorBelongs owner IsType a) ↔
      relative.toInt < owner.methodCount.toNat ∧ (0 ≤ relative.toInt → ∀ method,
        RowAt m.methods (owner.methodStart.toInt + relative.toInt) method → P method) := by
  cases shown with
  | none =>
    have hneg : relative.toInt < 0 := h
    exact iff_of_true nofun ⟨by omega, fun hle ↦ by omega⟩
  | some a =>
    obtain ⟨hrelative, method, type, hmethod, hposition, -, htype, hname⟩ := h
    have hmem : owner.methodStart.toInt + relative.toInt ∈ owner.methodRange.positions ↔
        relative.toInt < owner.methodCount.toNat := RowRange.add_mem_positions_iff hrelative
    constructor
    · intro hbelongs
      obtain ⟨hin, method', type', hmethod', htype', -⟩ := hbelongs a rfl
      rw [hposition] at hin hmethod'
      refine ⟨hmem.1 hin, fun _ method'' hmethod'' ↦ ?_⟩
      obtain rfl := hmethod'.unique hmethod''
      exact ((htypes _ _).1 htype').1
    · intro hrange a' ha'
      obtain ⟨hlt, hp⟩ := hrange
      obtain rfl := Option.some.inj ha'
      refine ⟨?_, method, type, ?_, (htypes _ _).2 ⟨hp hrelative method hmethod, htype⟩, hname⟩
      · rw [hposition]
        exact hmem.2 hlt
      · rw [hposition]
        exact hmethod

theorem isFirstParameterType_iff {method : MethodRow} {type : Int32} :
    m.IsFirstParameterType method type ↔ method.parameterCount ≠ 0 ∧
      ∃ parameter, RowAt m.parameters method.parameterStart.toInt parameter ∧
        type = parameter.typeIndex := by
  simp only [IsFirstParameterType, RowRange.head?_positions_eq_some_iff]
  constructor
  · intro h
    obtain ⟨_, parameter, ⟨hcount, rfl⟩, hparameter, htype⟩ := h
    exact ⟨hcount, parameter, hparameter, htype⟩
  · intro h
    obtain ⟨hcount, parameter, hparameter, htype⟩ := h
    exact ⟨_, parameter, ⟨hcount, rfl⟩, hparameter, htype⟩

theorem propertyBelongs_iff [Places] {row : PropertyRow} {p : PropertyDecl}
    (h : m.PropertyShows c answer image owner row p) :
    m.PropertyBelongs owner p ↔ m.PropertyInRange owner row := by
  have hgetter := accessorBelongs_iff h.getter (P := fun _ ↦ True) fun _ _ ↦ by rw [true_and]
  have hsetter := accessorBelongs_iff h.setter (P := fun method ↦ method.parameterCount ≠ 0)
    fun _ _ ↦ isFirstParameterType_iff (m := m)
  constructor
  · intro hbelongs
    obtain ⟨hget, -⟩ := hgetter.1 hbelongs.getter
    obtain ⟨hset, hparameter⟩ := hsetter.1 hbelongs.setter
    exact ⟨hget, hset, hparameter⟩
  · intro hrange
    exact ⟨hgetter.2 ⟨hrange.getter, fun _ _ _ ↦ trivial⟩,
      hsetter.2 ⟨hrange.setter, hrange.parameter⟩⟩

theorem propertiesBelong_iff [Places] {imageName : String} {type : Nat} {t : TypeDecl}
    (h : m.TypeShows c answer image imageName type owner t) :
    (∀ p ∈ t.properties, m.PropertyBelongs owner p) ↔ (c.properties = true →
      ∀ j < owner.propertyCount.toNat, ∀ row,
        RowAt m.properties (owner.propertyStart.toInt + (j : Int)) row →
          m.PropertyInRange owner row) := by
  cases hshown : c.properties with
  | false =>
    rw [h.properties.hidden hshown]
    exact iff_of_true nofun nofun
  | true =>
    rw [(h.properties.shown hshown).forall_iff fun _ _ _ ↦ propertyBelongs_iff]
    exact ⟨fun hp _ ↦ hp, fun hp ↦ hp rfl⟩

/-- All accessors of an assembled image are methods of the types that own the properties, and show
types of these methods, exactly if the rows of all properties that are shown are in range. -/
theorem accessorsBelong_iff_inRange [Places] {index : Nat} {cache : ModifierCache}
    {decl : ImageDecl}
    (h : ((m.assembleImage c index image).run cache).1 = .ok decl) :
    m.AccessorsBelong decl ↔ (c.properties = true → ∀ i < image.typeCount.toNat, ∀ owner,
      m.typeDefs[image.typeStart.toNat + i]? = some owner → ∀ j < owner.propertyCount.toNat,
        ∀ row, RowAt m.properties (owner.propertyStart.toInt + (j : Int)) row →
          m.PropertyInRange owner row) := by
  rw [Assembly.run_eq_answered (m.asks_assembleImage c index image)] at h
  have hshows := m.imageShows_of_answered c image h
  constructor
  · intro hbelong hshown i hi owner howner
    obtain ⟨owner', t, howner', ht, htype⟩ := hshows.type i hi
    obtain rfl := Option.some.inj (howner.symm.trans howner')
    obtain ⟨owner', howner', hproperties⟩ := hbelong t (List.mem_of_getElem? ht)
    rw [htype.index] at howner'
    obtain rfl := Option.some.inj (howner.symm.trans howner')
    exact (propertiesBelong_iff htype).1 hproperties hshown
  · intro hrange t ht
    obtain ⟨i, hi⟩ := List.mem_iff_getElem?.1 ht
    obtain ⟨hlt, -⟩ := List.getElem?_eq_some_iff.1 hi
    rw [hshows.length] at hlt
    obtain ⟨owner, t', howner, ht', htype⟩ := hshows.type i hlt
    obtain rfl := Option.some.inj (hi.symm.trans ht')
    refine ⟨owner, htype.index ▸ howner, (propertiesBelong_iff htype).2 fun hshown ↦ ?_⟩
    exact hrange hshown i hlt owner howner

open scoped Places in
theorem accessorsBelong_squares :
    (((ofSnapshot (.shapes ⟨24, 0⟩)).assembleImage .full 1 .squares).run .empty).1 = .ok squares ∧
      (ofSnapshot (.shapes ⟨24, 0⟩)).AccessorsBelong squares := by
  have hsquares : (((ofSnapshot (.shapes ⟨24, 0⟩)).assembleImage .full 1 .squares).run .empty).1 =
      .ok squares := rfl
  refine ⟨hsquares, (accessorsBelong_iff_inRange hsquares).2 ?_⟩
  intro _ i hi owner howner j hj row hrow
  obtain rfl := Nat.lt_one_iff.1 hi
  obtain rfl := Option.some.inj howner
  obtain rfl := Nat.lt_one_iff.1 hj
  obtain rfl := Option.some.inj hrow.2
  exact ⟨by decide, by decide, fun hset ↦ absurd hset (by decide)⟩

def settings : Metadata :=
  ofSnapshot { Snapshot.blank ⟨24, 0⟩ with
    strings := #["Game.dll", "", "Settings", "Player", "set_Volume", "Volume", "Play", "speed"]
    images := [⟨0, 0, 2, 0, 0, 0⟩]
    typeDefs := #[
      ⟨2, 1, -1, -1, -1, 1, 0, 0, 0, 0, 1, 1, 0, 0, 0, -1, 0⟩,
      ⟨3, 1, -1, -1, -1, 1, 0, 1, 0, 0, 1, 0, 0, 0, 0, -1, 0⟩]
    properties := #[⟨5, -1, 0, 0, -1, 0⟩]
    methods := #[
      ⟨4, 0, 0, 0, -1, 0, 6, 0, 0xFFFF, 0, -1⟩,
      ⟨6, 1, 0, 0, -1, 0, 6, 0, 0xFFFF, 1, -1⟩]
    parameters := #[⟨7, 0, 1⟩]
    types := #[⟨"void", none, 0, 0, false, none⟩, ⟨"float", none, 0, 0, false, none⟩] }

open scoped Places in
/-- The setter has no parameters and shows the type of the one that the other type's method has. -/
theorem not_accessorsBelong_settings : ∃ decl,
    ((settings.assembleImage .full 0 ⟨0, 0, 2, 0, 0, 0⟩).run .empty).1 = .ok decl ∧
      (decl.types.map fun t ↦ t.properties.map PropertyDecl.setter) =
        [[some ⟨0, [.access .everywhere], "float"⟩], []] ∧
      (decl.types.map fun t ↦ t.methods.map MethodDecl.parameters) =
        [[[]], [[⟨.plain, "float", "speed", none⟩]]] ∧
      ¬ settings.AccessorsBelong decl := by
  refine ⟨_, rfl, rfl, rfl, fun hbelong ↦ ?_⟩
  obtain ⟨owner, howner, hproperties⟩ := hbelong _ (List.mem_cons_self ..)
  obtain ⟨-, method, type, hmethod, htype, -⟩ :=
    (hproperties _ (List.mem_cons_self ..)).setter _ rfl
  obtain rfl := Option.some.inj hmethod.2
  obtain ⟨position, parameter, hposition, -⟩ := htype
  cases hposition

end Metadata

end MetadataDump
