import MetadataDump.Dump.Document
import MetadataDump.Dump.Text
import MetadataDump.Proofs.Declaration.Faithful
import MetadataDump.Proofs.Text.Hex

namespace MetadataDump

/-- What the artifacts show as the offset of a field: a number in its record, and the same 32 bits
as digits behind its line unless the offset is not shown. -/
structure FieldDecl.ShowsOffset (isShown : Bool) (f : FieldDecl) (n : Int32) : Prop where
  record : (Dump.Document.field f).get? "offset" = some (.ofInt n.toInt)
  line : ∃ digits, Text.hexNumber? digits = some n.toUInt32.toNat ∧ Dump.Text.field f =
    f.attributes ++ "\t" ++ Dump.Text.modifiers f.modifiers ++ f.typeName ++ " " ++ f.name ++
      Dump.Text.suffix f.default ++ ";" ++ (if isShown then " // 0x" ++ digits else "") ++ "\n"

theorem FieldDecl.showsOffset (f : FieldDecl) :
    f.ShowsOffset f.offset.isSome (f.offset.getD 0) := by
  refine ⟨rfl, Text.upperHex (f.offset.getD 0).toUInt32.toNat, Text.hexNumber?_upperHex _, ?_⟩
  rw [Dump.Text.field]
  cases f.offset <;> rfl

namespace Metadata

variable (m : Metadata) (isShown : Bool) (type : Nat) (owner : TypeRow) (j : Nat)
  (header : Flags.FieldHeader)

/-- The offset that the field `j` of a type should have: what is recorded for it, without the header
of a boxed object where there is one, and 0 if nothing is recorded or to be shown. -/
structure OffsetResolved (n : Int32) : Prop where
  hidden : isShown = false → n = 0
  unrecorded : m.recordedOffset? type j = none → n = 0
  plain : isShown = true → owner.isValueType = false ∨ header.isStatic = true →
    ∀ offset, m.recordedOffset? type j = some offset → n = offset
  boxed : isShown = true → owner.isValueType = true ∧ header.isStatic = false →
    2 * m.pointerSize.toNat < 0x80000000 → ∀ offset, m.recordedOffset? type j = some offset →
      n = .ofInt (offset.toInt - 2 * m.pointerSize.toNat)

/-- Nothing is recorded for an instance field of a value type whose offset is to be shown. -/
structure HeaderAlone : Prop where
  shown : isShown = true
  boxed : owner.isValueType = true ∧ header.isStatic = false
  unrecorded : m.recordedOffset? type j = none
  header : m.headerSize ≠ 0

variable {m isShown type owner j header}

theorem headerSize_of_lt (h : 2 * m.pointerSize.toNat < 0x80000000) :
    m.headerSize = .ofInt (2 * m.pointerSize.toNat) := by
  rw [Snapshot.headerSize, if_pos h]
  rfl

theorem fieldOffset_of_plain {isValueType isStatic : Bool}
    (h : isValueType = false ∨ isStatic = true) :
    m.fieldOffset type j isValueType isStatic = (m.recordedOffset? type j).getD 0 := by
  rw [Snapshot.fieldOffset, if_neg]
  rcases h with rfl | rfl <;> simp

theorem fieldOffset_of_boxed {isValueType isStatic : Bool}
    (h : isValueType = true ∧ isStatic = false) : m.fieldOffset type j isValueType isStatic =
      (m.recordedOffset? type j).getD 0 - m.headerSize := by
  obtain ⟨rfl, rfl⟩ := h
  rfl

theorem offsetResolved_zero (h : isShown = false ∨ m.recordedOffset? type j = none) :
    m.OffsetResolved isShown type owner j header 0 := by
  refine ⟨fun _ ↦ rfl, fun _ ↦ rfl, fun hshown _ offset hoffset ↦ ?_,
    fun hshown _ _ offset hoffset ↦ ?_⟩
  · simp [hshown, hoffset] at h
  · simp [hshown, hoffset] at h

theorem offsetResolved_of_recorded {offset : Int32}
    (h : m.recordedOffset? type j = some offset) :
    m.OffsetResolved true type owner j header
      (m.fieldOffset type j owner.isValueType header.isStatic) := by
  refine ⟨nofun, by simp [h], fun _ hplain offset' hoffset' ↦ ?_,
    fun _ hboxed hlt offset' hoffset' ↦ ?_⟩
  · rw [fieldOffset_of_plain hplain, hoffset', Option.getD_some]
  · rw [fieldOffset_of_boxed hboxed, hoffset', Option.getD_some, headerSize_of_lt hlt,
      Int32.ofInt_sub, Int32.ofInt_toInt]

theorem fieldOffset_cases :
    (¬ m.HeaderAlone true type owner j header ∧ m.OffsetResolved true type owner j header
        (m.fieldOffset type j owner.isValueType header.isStatic)) ∨
      (m.HeaderAlone true type owner j header ∧
        m.fieldOffset type j owner.isValueType header.isStatic = -m.headerSize) := by
  cases hrecorded : m.recordedOffset? type j with
  | some offset =>
    left
    refine ⟨fun h ↦ ?_, offsetResolved_of_recorded hrecorded⟩
    cases h.unrecorded.symm.trans hrecorded
  | none =>
    have hzero : m.OffsetResolved true type owner j header 0 := offsetResolved_zero (.inr hrecorded)
    by_cases hboxed : owner.isValueType = true ∧ header.isStatic = false
    · rw [fieldOffset_of_boxed hboxed, hrecorded, Option.getD_none, Int32.zero_sub]
      by_cases hheader : m.headerSize = 0
      · left
        refine ⟨fun h ↦ h.header hheader, ?_⟩
        rwa [hheader, Int32.neg_zero]
      · exact .inr ⟨⟨rfl, hboxed, hrecorded, hheader⟩, rfl⟩
    · have hplain : owner.isValueType = false ∨ header.isStatic = true := by
        simpa [or_iff_not_imp_left] using hboxed
      left
      refine ⟨fun h ↦ hboxed h.boxed, ?_⟩
      rwa [fieldOffset_of_plain hplain, hrecorded, Option.getD_none]

theorem not_offsetResolved_of_headerAlone (h : m.HeaderAlone isShown type owner j header) :
    ¬ m.OffsetResolved isShown type owner j header (-m.headerSize) := by
  intro hresolved
  have hneg := congrArg (- ·) (hresolved.unrecorded h.unrecorded)
  rw [Int32.neg_neg, Int32.neg_zero] at hneg
  exact h.header hneg

theorem offset_of_fieldFlagsShow {c : Config} {f : FieldDecl}
    (h : m.FieldFlagsShow c type owner j header f) :
    f.offset.isSome = (c.fieldOffsets && !header.isConst) ∧
    (m.OffsetResolved (c.fieldOffsets && !header.isConst) type owner j header (f.offset.getD 0) ↔
      ¬ m.HeaderAlone (c.fieldOffsets && !header.isConst) type owner j header) ∧
    (m.HeaderAlone (c.fieldOffsets && !header.isConst) type owner j header →
      f.offset.getD 0 = -m.headerSize) := by
  rw [h.offset]
  cases c.fieldOffsets && !header.isConst with
  | false =>
    have halone : ¬ m.HeaderAlone false type owner j header := fun h ↦ nomatch h.shown
    exact ⟨rfl, iff_of_true (offsetResolved_zero (.inl rfl)) halone, fun h ↦ absurd h halone⟩
  | true =>
    refine ⟨rfl, ?_⟩
    rw [if_pos rfl, Option.getD_some]
    rcases fieldOffset_cases (m := m) with ⟨halone, hresolved⟩ | ⟨halone, hoffset⟩
    · exact ⟨iff_of_true hresolved halone, fun h ↦ absurd h halone⟩
    · rw [hoffset]
      exact ⟨iff_of_false (not_offsetResolved_of_headerAlone halone) (not_not_intro halone),
        fun _ ↦ rfl⟩

/-- Both artifacts show one offset for each field of an assembled image. It is the recorded offset,
adjusted, or 0, except for the instance fields of value types without a recorded offset. -/
theorem offsets_of_assembleImage [Places] {c : Config} {image : ImageRow} {index : Nat}
    {cache : ModifierCache} {decl : ImageDecl}
    (h : ((m.assembleImage c index image).run cache).1 = .ok decl) {i j : Nat} {t : TypeDecl}
    {f : FieldDecl} (ht : decl.types[i]? = some t) (hf : t.fields[j]? = some f) :
    ∃ owner row reference n, m.typeDefs[image.typeStart.toNat + i]? = some owner ∧
      RowAt m.fields (owner.fieldStart.toInt + (j : Int)) row ∧
      m.typeReference row.typeIndex = .ok reference ∧
      let type := image.typeStart.toNat + i
      let header := Flags.fieldHeader reference.attrs.toUInt32
      let isShown := c.fieldOffsets && !header.isConst
      f.ShowsOffset isShown n ∧
        (m.OffsetResolved isShown type owner j header n ↔
          ¬ m.HeaderAlone isShown type owner j header) ∧
        (m.HeaderAlone isShown type owner j header → n = -m.headerSize) := by
  rw [Assembly.run_eq_answered (m.asks_assembleImage c index image)] at h
  obtain ⟨owner, howner, htype⟩ := (m.imageShows_of_answered c image h).exists_type ht
  obtain ⟨row, hrow, hfield⟩ := htype.fields.exists_row hf
  obtain ⟨reference, hreference, hflags⟩ := hfield.flags
  obtain ⟨hshown, hoffset⟩ := offset_of_fieldFlagsShow hflags
  have hshows := f.showsOffset
  rw [hshown] at hshows
  exact ⟨owner, row, reference, f.offset.getD 0, howner, hrow, hreference, hshows, hoffset⟩

open scoped Places in
theorem offsets_squares :
    (((ofSnapshot (.shapes ⟨24, 0⟩)).assembleImage .full 1 .squares).run .empty).1 = .ok squares ∧
      ∃ t f owner header, squares.types[0]? = some t ∧ t.fields[0]? = some f ∧
        f.ShowsOffset true 16 ∧
        (ofSnapshot (.shapes ⟨24, 0⟩)).OffsetResolved true 1 owner 0 header 16 := by
  have hsquares : (((ofSnapshot (.shapes ⟨24, 0⟩)).assembleImage .full 1 .squares).run .empty).1 =
      .ok squares := rfl
  obtain ⟨owner, row, reference, n, howner, hrow, hreference, hshows, hresolved, -⟩ :=
    offsets_of_assembleImage hsquares (i := 0) (j := 0) rfl rfl
  obtain rfl := Option.some.inj howner
  obtain rfl := Option.some.inj hrow.2
  obtain rfl := Except.ok.inj hreference
  have hn := hresolved.2 fun halone ↦ nomatch halone.boxed.1
  obtain rfl : n = 16 := hn.plain rfl (.inl rfl) 16 rfl
  exact ⟨hsquares, _, _, _, _, rfl, rfl, hshows, hn⟩

def vector : Metadata :=
  ofSnapshot { Snapshot.blank ⟨24, 0⟩ with
    strings := #["Game.dll", "", "Vector", "x"]
    images := [⟨0, 0, 1, 0, 0, 0⟩]
    typeDefs := #[⟨2, 1, -1, -1, -1, 1, 0, 0, 0, 0, 0, 0, 1, 0, 1, -1, 0⟩]
    fields := #[⟨3, 0, -1, 0⟩]
    types := #[⟨"float", none, 6, 0, false, none⟩] }

open scoped Places in
/-- The missing offset is shown as that of the header in front of the object. -/
theorem not_offsetResolved_vector : ∃ decl t f,
    ((vector.assembleImage .full 0 ⟨0, 0, 1, 0, 0, 0⟩).run .empty).1 = .ok decl ∧
      decl.types = [t] ∧ t.fields = [f] ∧ vector.recordedOffset? 0 0 = none ∧
      (Dump.Document.field f).get? "offset" = some (.ofInt (-16)) ∧
      Dump.Text.field f = "\tpublic float x; // 0xFFFFFFF0\n" ∧
      ∀ owner header, ¬ vector.OffsetResolved true 0 owner 0 header (-16) := by
  refine ⟨_, _, _, rfl, rfl, rfl, rfl, rfl, rfl, fun owner header hresolved ↦ ?_⟩
  exact absurd (hresolved.unrecorded rfl) (by decide)

end Metadata

end MetadataDump
