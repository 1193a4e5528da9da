import MetadataDump.Proofs.Attribute.Values

namespace MetadataDump

namespace Snapshot

variable {s : Snapshot}

theorem memberName_eq_ok_iff {α : Type} {table : Table} {rows : Array α} {nameIndex : α → UInt32}
    {start : Int32} {position : Nat} {name : String} :
    (Reader.memberIndex start position >>= fun i ↦
      lookup table rows i >>= fun row ↦ s.text (nameIndex row)) = .ok name ↔
      s.IsMemberName rows nameIndex start position name := by
  have hstart : start < 0 ↔ start.toInt < 0 := Int32.lt_iff_toInt_lt
  simp only [MetadataDump.bind_eq_ok_iff, lookup_eq_ok_iff, text_eq_ok_iff, IsMemberName]
  unfold Reader.memberIndex
  by_cases h : start < 0
  · have hneg := hstart.1 h
    rw [if_pos h]
    exact iff_of_false (by simp) fun hn ↦ by omega
  · have hnonneg := mt hstart.2 h
    rw [if_neg h]
    constructor
    · rintro ⟨i, hi, hrow⟩
      obtain rfl := Except.ok.inj hi
      refine ⟨by omega, ?_⟩
      rwa [Int.natCast_add, Int.toNat_of_nonneg (by omega)] at hrow
    · rintro ⟨hle, hrow⟩
      refine ⟨_, rfl, ?_⟩
      rwa [Int.natCast_add, Int.toNat_of_nonneg hle]

end Snapshot

namespace Reader

variable {s : Snapshot}

theorem accepts_member (owner : TypeRow) : (member s owner).Accepts (MemberForm s owner) := by
  refine (accepts_compressedInt.bind fun position ↦ accepts_ite (fun _ ↦ accepts_pure _) fun _ ↦
    accepts_compressedUInt.bind_idle fun index ↦ accepts_lift_bind fun row ↦ accepts_pure _).congr
    fun bs m ↦ ⟨?_, ?_⟩
  · rintro ⟨cs, ds, i, rfl, hi, h⟩
    have hsign : 0 ≤ i ↔ 0 ≤ i.toInt := Int32.le_iff_toInt_le
    split at h
    · rename_i hle
      obtain ⟨rfl, rfl⟩ := h
      rw [List.append_nil]
      refine .own ?_
      rwa [Int.toNat_of_nonneg (hsign.1 hle)]
    · rename_i hlt
      have hneg := mt hsign.2 hlt
      obtain ⟨index, hindex, row, hrow, rfl⟩ := h
      refine .declared ?_ hindex (lookup_eq_ok_iff.1 hrow)
      rwa [show -(((-(i.toInt + 1)).toNat : Int) + 1) = i.toInt by omega]
  · intro h
    cases h with
    | @own _ position hi =>
      obtain ⟨i, he⟩ := hi.exists_toInt_eq
      have hsign : 0 ≤ i ↔ 0 ≤ i.toInt := Int32.le_iff_toInt_le
      refine ⟨bs, [], i, (List.append_nil bs).symm, show IntForm _ bs by rwa [he], ?_⟩
      dsimp only
      rw [if_pos (hsign.2 (by omega)), he]
      exact ⟨rfl, rfl⟩
    | @declared cs ds position index declaring hi hindex hrow =>
      obtain ⟨i, he⟩ := hi.exists_toInt_eq
      have hsign : 0 ≤ i ↔ 0 ≤ i.toInt := Int32.le_iff_toInt_le
      obtain ⟨k, rfl⟩ := hindex.exists_toNat_eq
      refine ⟨cs, ds, i, rfl, show IntForm _ cs by rwa [he], ?_⟩
      dsimp only
      rw [if_neg (mt hsign.1 (by omega)), he]
      have hlookup : s.typeDef k.toNat = .ok declaring := lookup_eq_ok_iff.2 hrow
      refine ⟨k, hindex, declaring, hlookup, ?_⟩
      rw [show (-(-((position : Int) + 1) + 1)).toNat = position by omega]

theorem accepts_assignment {isName : TypeRow → Nat → String → Prop}
    {name : TypeRow → Nat → Except Error String}
    (hname : ∀ declaring position text,
      name declaring position = .ok text ↔ isName declaring position text) (owner : TypeRow) :
    (assignment s name owner).Accepts (AssignmentForm s isName owner) := by
  refine ((accepts_value 0).bind fun value ↦ (accepts_member owner).bind_idle fun m ↦
    accepts_lift_bind fun text ↦ accepts_pure _).congr fun bs a ↦ ⟨?_, ?_⟩
  · rintro ⟨cs, ds, value, rfl, hvalue, ⟨declaring, position⟩, hmember, text, htext, rfl⟩
    exact .mk hvalue hmember ((hname _ _ _).1 htext)
  · rintro ⟨hvalue, hmember, htext⟩
    exact ⟨_, _, _, rfl, hvalue, _, hmember, _, (hname _ _ _).2 htext, rfl⟩

theorem accepts_fieldAssignment (owner : TypeRow) :
    (assignment s (fieldName s) owner).Accepts (AssignmentForm s s.IsFieldName owner) :=
  accepts_assignment (fun _ _ _ ↦ Snapshot.memberName_eq_ok_iff) owner

theorem accepts_propertyAssignment (owner : TypeRow) :
    (assignment s (propertyName s) owner).Accepts (AssignmentForm s s.IsPropertyName owner) :=
  accepts_assignment (fun _ _ _ ↦ Snapshot.memberName_eq_ok_iff) owner

theorem accepts_recordArguments (owner : TypeRow) :
    (recordArguments s owner).Accepts (RecordForm s owner) := by
  have hfield := accepts_fieldAssignment (s := s) owner
  have hproperty := accepts_propertyAssignment (s := s) owner
  refine (accepts_compressedUInt.bind fun n ↦ accepts_compressedUInt.bind fun k ↦
    accepts_compressedUInt.bind fun l ↦ ((accepts_value 0).times n.toNat).bind fun fixed ↦
    (hfield.times k.toNat).bind fun fields ↦ (hproperty.times l.toNat).bind_idle fun properties ↦
    accepts_pure _).congr fun bs r ↦ ⟨?_, ?_⟩
  · rintro ⟨bs, _, n, rfl, hn, cs, _, k, rfl, hk, ds, _, l, rfl, hl, vs, _, fixed, rfl,
      ⟨hfixed, hvs⟩, fs, ps, fields, rfl, ⟨hfields, hfs⟩, properties, ⟨hproperties, hps⟩, rfl⟩
    exact .mk (hfixed ▸ hn) (hfields ▸ hk) (hproperties ▸ hl) hvs hfs hps
  · rintro ⟨hn, hk, hl, hvs, hfs, hps⟩
    obtain ⟨n, hfixed⟩ := hn.exists_toNat_eq
    obtain ⟨k, hfields⟩ := hk.exists_toNat_eq
    obtain ⟨l, hproperties⟩ := hl.exists_toNat_eq
    rw [← hfixed] at hn
    rw [← hfields] at hk
    rw [← hproperties] at hl
    exact ⟨_, _, n, rfl, hn, _, _, k, rfl, hk, _, _, l, rfl, hl, _, _, _, rfl, ⟨hfixed.symm, hvs⟩,
      _, _, _, rfl, ⟨hfields.symm, hfs⟩, _, ⟨hproperties.symm, hps⟩, rfl⟩

theorem grounded_recordArguments (owner : TypeRow) : Grounded (recordArguments s owner) :=
  grounded_compressedUInt.bind _

end Reader

end MetadataDump
