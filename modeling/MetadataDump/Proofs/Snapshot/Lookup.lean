import Mathlib
import MetadataDump.Snapshot.Index

namespace MetadataDump

section Results

variable {ε α β : Type}

def Succeeds (x : Except ε α) : Prop := ∃ a, x = .ok a

theorem bind_eq_ok_iff {x : Except ε α} {f : α → Except ε β} {b : β} :
    x >>= f = .ok b ↔ ∃ a, x = .ok a ∧ f a = .ok b := by
  cases x <;> simp [bind, Except.bind]

theorem map_eq_ok_iff {x : Except ε α} {f : α → β} {b : β} :
    f <$> x = .ok b ↔ ∃ a, x = .ok a ∧ f a = b := by
  cases x <;> simp [Functor.map, Except.map]

theorem succeeds_ok (a : α) : Succeeds (.ok a : Except ε α) := ⟨a, rfl⟩

theorem succeeds_pure (a : α) : Succeeds (pure a : Except ε α) := ⟨a, rfl⟩

theorem not_succeeds_error (e : ε) : ¬ Succeeds (.error e : Except ε α) := fun ⟨_, h⟩ ↦ nomatch h

theorem succeeds_map_iff {x : Except ε α} {f : α → β} : Succeeds (f <$> x) ↔ Succeeds x := by
  simp only [Succeeds, map_eq_ok_iff]
  exact ⟨fun ⟨_, a, h, _⟩ ↦ ⟨a, h⟩, fun ⟨a, h⟩ ↦ ⟨f a, a, h, rfl⟩⟩

theorem succeeds_bind_iff {x : Except ε α} {f : α → Except ε β} :
    Succeeds (x >>= f) ↔ ∃ a, x = .ok a ∧ Succeeds (f a) := by
  simp only [Succeeds, bind_eq_ok_iff]
  exact ⟨fun ⟨b, a, ha, hb⟩ ↦ ⟨a, ha, b, hb⟩, fun ⟨a, ha, b, hb⟩ ↦ ⟨b, a, ha, hb⟩⟩

theorem succeeds_unless_absent_iff {i : Int32} {a : α} {x : Except ε α} :
    Succeeds (if i < 0 then .ok a else x) ↔ (0 ≤ i.toInt → Succeeds x) := by
  have hi : i < 0 ↔ i.toInt < 0 := Int32.lt_iff_toInt_lt
  by_cases h : i < 0
  · have hneg := hi.1 h
    rw [if_pos h]
    exact iff_of_true (succeeds_ok a) fun _ ↦ by omega
  · have hnonneg := mt hi.2 h
    rw [if_neg h]
    exact ⟨fun hx _ ↦ hx, fun hx ↦ hx (by omega)⟩

theorem succeeds_bind_and_iff {x : Except ε α} {f : α → Except ε β} {p : Prop}
    (hf : ∀ a, Succeeds (f a) ↔ p) : Succeeds (x >>= f) ↔ Succeeds x ∧ p := by
  simp only [succeeds_bind_iff, hf, exists_and_right]
  rfl

theorem succeeds_mapM_iff {f : α → Except ε β} {as : List α} :
    Succeeds (as.mapM f) ↔ ∀ a ∈ as, Succeeds (f a) := by
  induction as with
  | nil => simp [succeeds_pure]
  | cons a as ih =>
    simp only [List.mapM_cons, succeeds_bind_iff, List.forall_mem_cons, ← ih, succeeds_pure,
      and_true]
    exact ⟨fun ⟨b, hb, h⟩ ↦ ⟨⟨b, hb⟩, h⟩, fun ⟨⟨b, hb⟩, h⟩ ↦ ⟨b, hb, h⟩⟩

theorem mapM_eq_ok_iff {f : α → Except ε β} {as : List α} {bs : List β} :
    as.mapM f = .ok bs ↔ as.map f = bs.map .ok := by
  induction as generalizing bs with
  | nil => cases bs <;> simp [pure, Except.pure]
  | cons a as ih =>
    simp only [List.mapM_cons, bind_eq_ok_iff, ih]
    cases bs with
    | nil => simp [pure, Except.pure]
    | cons b bs => simp [pure, Except.pure]

theorem mapM_eq_ok_map {γ : Type} {f : α → Except ε β} {g : α → Except ε γ} {r : β → γ}
    (hfg : ∀ a b, f a = .ok b → g a = .ok (r b)) {as : List α} {bs : List β}
    (h : as.mapM f = .ok bs) : as.mapM g = .ok (bs.map r) := by
  rw [mapM_eq_ok_iff] at h ⊢
  induction as generalizing bs with
  | nil =>
    obtain rfl := List.map_eq_nil_iff.1 h.symm
    rfl
  | cons a as ih =>
    cases bs with
    | nil => cases h
    | cons b bs =>
      obtain ⟨hb, hbs⟩ := List.cons.inj h
      rw [List.map_cons, List.map_cons, List.map_cons, hfg a b hb, ih hbs]

theorem forall_of_mapM_eq_ok {f : α → Except ε β} {p : β → Prop} (hf : ∀ a b, f a = .ok b → p b)
    {as : List α} {bs : List β} (h : as.mapM f = .ok bs) : ∀ b ∈ bs, p b := by
  intro b hb
  have hmem : .ok b ∈ as.map f := mapM_eq_ok_iff.1 h ▸ List.mem_map_of_mem hb
  obtain ⟨a, _, ha⟩ := List.mem_map.1 hmem
  exact hf a b ha

end Results

section Tables

variable {α : Type} {table : Table} {rows : Array α} {i : Int} {row : α}

def RowAt (rows : Array α) (i : Int) (row : α) : Prop := 0 ≤ i ∧ rows[i.toNat]? = some row

def InTable (rows : Array α) (i : Int) : Prop := 0 ≤ i ∧ i < rows.size

theorem RowAt.unique {other : α} (h : RowAt rows i row) (h' : RowAt rows i other) : row = other :=
  Option.some.inj (h.2.symm.trans h'.2)

theorem lookup_eq_ok_iff : lookup table rows i = .ok row ↔ RowAt rows i row := by
  unfold lookup RowAt
  by_cases h : i < 0
  · have hneg : ¬ 0 ≤ i := Int.not_le.2 h
    simp only [h, hneg, if_true, false_and, reduceCtorEq]
  · have hnonneg : 0 ≤ i := Int.not_lt.1 h
    simp only [h, hnonneg, if_false, true_and]
    cases rows[i.toNat]? <;> simp

theorem inTable_iff : InTable rows i ↔ ∃ row, RowAt rows i row := by
  simp only [InTable, RowAt, Array.getElem?_eq_some_iff, exists_and_left]
  refine and_congr_right fun h ↦ ⟨fun hlt ↦ ⟨_, by omega, rfl⟩, fun ⟨_, hlt, _⟩ ↦ by omega⟩

theorem succeeds_lookup_iff : Succeeds (lookup table rows i) ↔ InTable rows i := by
  simp only [Succeeds, lookup_eq_ok_iff, inTable_iff]

end Tables

namespace Snapshot

variable {s : Snapshot} {i : Int32}

theorem text_eq_ok_iff {i : UInt32} {text : String} :
    s.text i = .ok text ↔ s.strings[i.toNat]? = some text := by
  rw [Snapshot.text, lookup_eq_ok_iff, RowAt, Int.toNat_natCast]
  exact and_iff_right (Int.natCast_nonneg _)

theorem typeName_eq_ok_iff {name : String} :
    s.typeName i = .ok name ↔ ∃ entry, RowAt s.types i.toInt entry ∧ entry.name = name := by
  rw [typeName, map_eq_ok_iff, typeEntry]
  simp only [lookup_eq_ok_iff]

theorem enumElement_eq_ok_iff {element : UInt8} :
    s.enumElement i = .ok element ↔
      ∃ entry, RowAt s.types i.toInt entry ∧ entry.enumElement = some element := by
  rw [enumElement, MetadataDump.bind_eq_ok_iff, typeEntry]
  simp only [lookup_eq_ok_iff]
  refine exists_congr fun entry ↦ and_congr_right fun _ ↦ ?_
  cases entry.enumElement <;> simp [pure, Except.pure, throw, throwThe, MonadExceptOf.throw]

theorem typeDefName_of_typeDef {i : Int} {row : TypeRow} (h : s.typeDef i = .ok row) :
    s.typeDefName i false true = s.text row.nameIndex >>= fun name ↦
      s.genericSuffix row.genericContainerIndex >>= fun back ↦ pure (name ++ back) := by
  have hfront : s.typeDefName i false true = s.text row.nameIndex >>= fun name ↦
      s.genericSuffix row.genericContainerIndex >>= fun back ↦ pure ("" ++ name ++ back) := by
    unfold typeDefName
    rw [h]
    rfl
  simpa only [String.empty_append] using hfront

end Snapshot

def Snapshot.blank (version : Version) : Snapshot where
  version
  imageBase := 0
  pointerSize := 8
  sections := []
  strings := #[]
  images := []
  typeDefs := #[]
  fields := #[]
  properties := #[]
  methods := #[]
  parameters := #[]
  interfaceIndices := #[]
  types := #[]
  genericContainers := #[]
  fieldOffsets := ∅
  methodPointers := ∅
  fieldDefaults := ∅
  parameterDefaults := ∅
  defaultDataOffset := 0
  literals := ∅
  methodSpecs := #[]
  attributeTypeRanges := #[]
  attributeTypes := []
  attributeGenerators := #[]
  attributeDataRanges := #[]
  attributeData := .empty

def ImageRow.squares : ImageRow := ⟨1, 1, 1, 0, 1, 1⟩

/-- Two images, of shapes and of squares, which own the first and the second row of every member
table. Their rows have the same tokens. -/
def Snapshot.shapes (version : Version) : Snapshot :=
  { Snapshot.blank version with
    strings := #["Shapes.dll", "Squares.dll", "Drawing", "Shape", "Square", "side", "Area",
      "get_Area", "scale"]
    images := [⟨0, 0, 1, 0, 0, 1⟩, .squares]
    typeDefs := #[
      ⟨3, 2, 3, -1, -1, 0x81, 0, 0, 0, 0, 1, 1, 1, 1, 0, -1, 0x02000002⟩,
      ⟨4, 2, 1, -1, -1, 0x2101, 1, 1, 1, 1, 1, 1, 1, 1, 0, -1, 0x02000002⟩]
    fields := #[⟨5, 0, -1, 0x04000001⟩, ⟨5, 0, -1, 0x04000001⟩]
    properties := #[⟨6, 0, -1, 0, -1, 0x17000001⟩, ⟨6, 0, -1, 0, -1, 0x17000001⟩]
    methods := #[
      ⟨7, 0, 0, 0, -1, 0x06000001, 0x5C6, 0, 4, 1, -1⟩,
      ⟨7, 1, 0, 1, -1, 0x06000001, 0xC6, 0, 4, 1, -1⟩]
    parameters := #[⟨8, 0x08000001, 4⟩, ⟨8, 0x08000001, 4⟩]
    interfaceIndices := #[2, 2]
    types := #[⟨"int", none, 0x6, 0x8, false, none⟩, ⟨"Shape", none, 0, 0x12, false, none⟩,
      ⟨"IShape", none, 0, 0x12, false, none⟩, ⟨"object", none, 0, 0x1C, false, none⟩,
      ⟨"int", none, 0, 0x8, false, none⟩]
    fieldOffsets := (∅ : Std.ExtTreeMap UInt64 (List Int32)).insert 1 [16]
    methodPointers := (∅ : Std.ExtTreeMap String (List UInt64)).insert "Squares.dll" [0x1000]
    fieldDefaults := (∅ : Std.ExtTreeMap UInt64 DefaultRow).insert 1 ⟨0, 7⟩
    literals := (∅ : Std.ExtTreeMap Int32 DefaultValue).insert 7 (.int 5) }

theorem RowRange.mem_positions_iff {r : RowRange} {position : Int} :
    position ∈ r.positions ↔ ∃ j < r.count.toNat, position = r.start.toInt + (j : Int) := by
  simp only [positions, List.mem_map, List.mem_range]
  exact exists_congr fun j ↦ and_congr_right fun _ ↦ eq_comm

end MetadataDump
