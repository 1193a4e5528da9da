import MetadataDump.Proofs.Attribute.Records

namespace MetadataDump.RecordReader

variable {s : Snapshot} {r : RecordReader}

def reads (s : Snapshot) : Nat → RecordReader → List (Except Error Attribute) × RecordReader
  | 0, r => ([], r)
  | n + 1, r =>
    match next s r with
    | .ok a r =>
      let (results, r) := reads s n r
      (.ok a :: results, r)
    | .error e r =>
      let (results, r) := reads s n r
      (.error e :: results, r)

theorem reads_succ_eq_iff {n : Nat} {as : List Attribute} {r' : RecordReader} :
    reads s (n + 1) r = (as.map .ok, r') ↔ ∃ a bs r₁, as = a :: bs ∧ next s r = .ok a r₁ ∧
      reads s n r₁ = (bs.map .ok, r') := by
  rw [reads]
  cases hnext : next s r with
  | error e r₁ => cases as <;> simp
  | ok a r₁ =>
    cases as with
    | nil => simp
    | cons b bs => simp [Prod.ext_iff, and_assoc, eq_comm]

theorem pos_add_length_le {bytes : ByteArray} {pos : Nat} {bs : List UInt8}
    (hpos : pos ≤ bytes.size) (hbs : bs <+: bytes.data.toList.drop pos) :
    pos + bs.length ≤ bytes.size := by
  have hlength := hbs.length_le
  rw [List.length_drop] at hlength
  have hsize : bytes.data.toList.length = bytes.size := rfl
  omega

section Steps

variable {α : Type} {r' : RecordReader}

theorem get_ok_iff {current : RecordReader} :
    (get : EStateM Error RecordReader RecordReader) r = .ok current r' ↔
      current = r ∧ r' = r := by
  show EStateM.Result.ok r r = .ok current r' ↔ _
  simp [eq_comm]

theorem modify_ok_iff {f : RecordReader → RecordReader} {u : PUnit} :
    (modify f : EStateM Error RecordReader PUnit) r = .ok u r' ↔ r' = f r := by
  show EStateM.Result.ok PUnit.unit (f r) = .ok u r' ↔ _
  simp [eq_comm]

theorem readAt_ok_iff {pos : Nat} {x : Reader α} {v : α × Nat} :
    readAt pos x r = .ok v r' ↔ ∃ c, x ⟨r.bytes, pos⟩ = .ok v.1 c ∧ v.2 = c.pos ∧ r' = r := by
  unfold readAt
  cases x ⟨r.bytes, pos⟩ with
  | ok a c => simp [Prod.ext_iff, eq_comm, and_assoc]
  | error e c => simp

theorem lift_ok_iff {e : Except Error α} {v : α} :
    lift e r = .ok v r' ↔ e = .ok v ∧ r' = r := by
  cases e with
  | ok w =>
    show EStateM.Result.ok w r = .ok v r' ↔ _
    simp [eq_comm]
  | error e =>
    show EStateM.Result.error e r = .ok v r' ↔ _
    simp

end Steps

theorem next_ok_iff {a : Attribute} {r' : RecordReader} : next s r = .ok a r' ↔
    ∃ index c owner values d name, Reader.i32 ⟨r.bytes, r.constructorPos⟩ = .ok index c ∧
      attributeType s index = .ok owner ∧
      Reader.recordArguments s owner ⟨r.bytes, r.recordPos⟩ = .ok values d ∧
      s.text owner.nameIndex = .ok name ∧ a = ⟨attributeName name, values.fixed, values.named⟩ ∧
      r' = { r with constructorPos := c.pos, recordPos := d.pos } := by
  simp only [next, Reader.bind_ok_iff, get_ok_iff, modify_ok_iff, readAt_ok_iff, lift_ok_iff]
  constructor
  · intro h
    obtain ⟨_, _, ⟨rfl, rfl⟩, ⟨index, _⟩, _, ⟨c, hindex, rfl, rfl⟩, _, _, rfl, owner, _,
      ⟨howner, rfl⟩, _, _, ⟨rfl, rfl⟩, ⟨values, _⟩, _, ⟨d, hvalues, rfl, rfl⟩, _, _, rfl, name, _,
      ⟨hname, rfl⟩, h⟩ := h
    cases h
    exact ⟨index, c, owner, values, d, name, hindex, howner, hvalues, hname, rfl, rfl⟩
  · intro h
    obtain ⟨index, c, owner, values, d, name, hindex, howner, hvalues, hname, rfl, rfl⟩ := h
    exact ⟨r, r, ⟨rfl, rfl⟩, (index, c.pos), r, ⟨c, hindex, rfl, rfl⟩, ⟨⟩, _, rfl, owner, _,
      ⟨howner, rfl⟩, _, _, ⟨rfl, rfl⟩, (values, d.pos), _, ⟨d, hvalues, rfl, rfl⟩, ⟨⟩, _, rfl,
      name, _, ⟨hname, rfl⟩, rfl⟩

theorem next_error {index : Int32} {c d : Cursor} {owner : TypeRow} {e : Error}
    (hindex : Reader.i32 ⟨r.bytes, r.constructorPos⟩ = .ok index c)
    (howner : attributeType s index = .ok owner)
    (hrecord : Reader.recordArguments s owner ⟨r.bytes, r.recordPos⟩ = .error e d) :
    next s r = .error e { r with constructorPos := c.pos } := by
  simp only [next, bind, EStateM.bind, get, getThe, MonadStateOf.get, EStateM.get, readAt, hindex,
    modify, modifyGet, MonadStateOf.modifyGet, EStateM.modifyGet, lift, howner, hrecord, pure,
    EStateM.pure]

theorem attributeType_eq_ok {constructor : Int32} {method : MethodRow} {owner : TypeRow}
    (hmethod : RowAt s.methods constructor.toInt method)
    (howner : RowAt s.typeDefs method.declaringType.toNat owner) :
    attributeType s constructor = .ok owner := by
  have hneg : ¬ constructor < 0 := by
    rw [Int32.lt_iff_toInt_lt]
    exact Int.not_lt.2 hmethod.1
  have hmethod : s.methodDef constructor.toInt = .ok method := lookup_eq_ok_iff.2 hmethod
  have howner : s.typeDef method.declaringType.toNat = .ok owner := lookup_eq_ok_iff.2 howner
  rw [attributeType, if_neg hneg]
  show (s.methodDef constructor.toInt >>= fun method ↦ s.typeDef method.declaringType.toNat) = _
  rw [hmethod]
  exact howner

theorem next_of_attributeForm {constructor : Int32} {bs : List UInt8} {a : Attribute}
    (h : AttributeForm s constructor bs a) (hcpos : r.constructorPos ≤ r.bytes.size)
    (hrpos : r.recordPos ≤ r.bytes.size)
    (hc : leBytes 4 constructor.toUInt32.toNat <+: r.bytes.data.toList.drop r.constructorPos)
    (hr : bs <+: r.bytes.data.toList.drop r.recordPos) :
    next s r = .ok a { r with
      constructorPos := r.constructorPos + 4, recordPos := r.recordPos + bs.length } := by
  cases h with
  | @mk _ method owner name values hmethod howner hname hrecord =>
    have hindex := Reader.accepts_i32.read (c := ⟨r.bytes, r.constructorPos⟩) hcpos
      (a := constructor) rfl hc
    have hvalues := (Reader.accepts_recordArguments owner).read
      (c := ⟨r.bytes, r.recordPos⟩) hrpos hrecord hr
    rw [length_leBytes] at hindex
    exact next_ok_iff.2 ⟨constructor, _, owner, values, _, name, hindex,
      attributeType_eq_ok hmethod howner, hvalues, Snapshot.text_eq_ok_iff.2 hname, rfl, rfl⟩

theorem reads_of_recordsForm {constructors : List Int32} {body : List UInt8} {as : List Attribute}
    (h : RecordsForm s constructors body as) (hcpos : r.constructorPos ≤ r.bytes.size)
    (hrpos : r.recordPos ≤ r.bytes.size)
    (hc : constructorTable constructors <+: r.bytes.data.toList.drop r.constructorPos)
    (hr : body <+: r.bytes.data.toList.drop r.recordPos) :
    reads s as.length r = (as.map .ok, { r with
      constructorPos := r.constructorPos + 4 * constructors.length
      recordPos := r.recordPos + body.length }) := by
  induction h generalizing r with
  | nil => rfl
  | @cons constructor constructors bs cs a as ha h ih =>
    have htable : constructorTable (constructor :: constructors) =
        leBytes 4 constructor.toUInt32.toNat ++ constructorTable constructors := List.flatMap_cons
    rw [htable, append_prefix_iff, List.drop_drop, length_leBytes] at hc
    rw [append_prefix_iff, List.drop_drop] at hr
    have hcpos' := pos_add_length_le hcpos hc.1
    have hrpos' := pos_add_length_le hrpos hr.1
    rw [length_leBytes] at hcpos'
    have hnext := next_of_attributeForm ha hcpos hrpos hc.1 hr.1
    rw [List.length_cons, reads, hnext]
    dsimp only
    have hend : r.constructorPos + 4 + 4 * constructors.length =
        r.constructorPos + 4 * (constructors.length + 1) := by omega
    rw [ih hcpos' hrpos' hc.2 hr.2, List.length_cons, List.length_append, List.map_cons, hend,
      Nat.add_assoc]

theorem length_constructorTable (constructors : List Int32) :
    (constructorTable constructors).length = 4 * constructors.length := by
  induction constructors with
  | nil => rfl
  | cons constructor constructors ih =>
    rw [constructorTable, List.flatMap_cons, List.length_append, length_leBytes, List.length_cons]
    rw [constructorTable] at ih
    omega

theorem length_of_recordsForm {constructors : List Int32} {body : List UInt8} {as : List Attribute}
    (h : RecordsForm s constructors body as) : constructors.length = as.length := by
  induction h with
  | nil => rfl
  | cons _ _ ih => exact congrArg (· + 1) ih

theorem ofBytes_of_header {bytes : ByteArray} {header rest : List UInt8} {n : Nat}
    (h : UIntForm n header) (hbytes : bytes.data.toList = header ++ rest)
    (hn : 4 * n ≤ rest.length) : ∃ count : UInt32, count.toNat = n ∧
      ofBytes bytes = .ok ⟨bytes, count, header.length, header.length + 4 * n⟩ := by
  obtain ⟨count, rfl⟩ := h.exists_toNat_eq
  have hsize : bytes.size = header.length + rest.length := by
    rw [← List.length_append, ← hbytes]
    rfl
  have hprefix : header <+: (Cursor.ofBytes bytes).rest := ⟨rest, hbytes.symm⟩
  have hvalid : (Cursor.ofBytes bytes).Valid := Nat.zero_le bytes.size
  have hread := Reader.accepts_compressedUInt.read hvalid h hprefix
  have hpos : ((Cursor.ofBytes bytes).skip header.length).pos = header.length := Nat.zero_add _
  refine ⟨count, rfl, ?_⟩
  rw [ofBytes, hread]
  dsimp only
  rw [hpos, if_pos (by omega)]

/-- Data in a form of some attributes are read back as these attributes, in order. -/
theorem reads_of_dataForm {s : Snapshot} {trailing : List UInt8} {bytes : ByteArray}
    {as : List Attribute} (h : DataForm s trailing bytes.data.toList as) :
    ∃ r, ofBytes bytes = .ok r ∧ r.count.toNat = as.length ∧
      (reads s as.length r).1 = as.map .ok ∧
      bytes.data.toList.drop (reads s as.length r).2.recordPos = trailing := by
  obtain ⟨data, hbytes⟩ : ∃ data, bytes.data.toList = data := ⟨_, rfl⟩
  rw [hbytes] at h ⊢
  cases h with
  | @mk header body constructors _ hheader hrecords =>
    have htable := length_constructorTable constructors
    have hlength := length_of_recordsForm hrecords
    obtain ⟨count, hcount, hreader⟩ := ofBytes_of_header hheader hbytes
      (by rw [List.length_append]; omega)
    have hsize : bytes.size = header.length + (4 * constructors.length +
        (body.length + trailing.length)) := by
      rw [← htable, ← List.length_append, ← List.length_append, ← List.length_append, ← hbytes]
      rfl
    have hconstructors : bytes.data.toList.drop header.length =
        constructorTable constructors ++ (body ++ trailing) := by
      rw [hbytes, List.drop_left]
    have hbody : bytes.data.toList.drop (header.length + 4 * constructors.length) =
        body ++ trailing := by
      rw [← List.drop_drop, hconstructors, ← htable, List.drop_left]
    have hreads := reads_of_recordsForm
      (r := ⟨bytes, count, header.length, header.length + 4 * constructors.length⟩) hrecords
      (by dsimp only; omega) (by dsimp only; omega) (hconstructors ▸ List.prefix_append _ _)
      (hbody ▸ List.prefix_append _ _)
    refine ⟨_, hreader, hcount.trans hlength, ?_, ?_⟩
    · rw [hreads]
    · rw [hreads, ← hbytes, ← List.drop_drop, hbody, List.drop_left]

def sampleOwner : TypeRow := ⟨0, 0, -1, -1, -1, 0, 0, 0, 0, 0, 1, 0, 1, 0, 0, -1, 0⟩

def sampleType : Snapshot :=
  { Snapshot.blank ⟨29, 0⟩ with
    strings := #["ObsoleteAttribute", "IsError"]
    typeDefs := #[sampleOwner]
    methods := #[⟨0, 0, -1, 0, -1, 0, 0, 0, 0xFFFF, 0, -1⟩]
    fields := #[⟨1, -1, -1, 0⟩] }

def sampleData : List UInt8 :=
  [0x01, 0x00, 0x00, 0x00, 0x00, 0x01, 0x01, 0x00, 0x1D, 0xC0, 0x00, 0x00, 0x04, 0x02, 0x00, 0x01,
    0x00, 0x02, 0x01, 0x00, 0xAB]

def sampleAttribute : Attribute :=
  ⟨"Obsolete", [.array [.bool true, .bool false]], [⟨"IsError", .bool true⟩]⟩

theorem recordsForm_sample : RecordsForm sampleType [0]
    [0x01, 0x01, 0x00, 0x1D, 0xC0, 0x00, 0x00, 0x04, 0x02, 0x00, 0x01, 0x00, 0x02, 0x01, 0x00]
    [sampleAttribute] := by
  have hone : ∀ n < 0x80, UIntForm n [.ofNat n] := fun n ↦ .one
  have htype : ∀ tag : UInt8, tag ≠ 0x55 → TypeForm sampleType [tag] ⟨tag, none⟩ := fun _ ↦ .plain
  have hbool : ∀ room b, ValueForm sampleType (room + 1) ⟨0x02, none⟩ [b] (.bool (b ≠ 0)) :=
    fun room b ↦ ⟨_, .scalar ⟨b, rfl, rfl⟩, rfl⟩
  -- The length of the array takes four bytes, where one would do.
  have hlength : IntForm ([.bool true, .bool false] : List Argument).length
      [0xC0, 0x00, 0x00, 0x04] := UIntForm.four (show 4 < 0x20000000 by decide)
  have helements : Form.Sequence (ValueForm sampleType 63 ⟨0x02, none⟩) [0x01, 0x00]
      [.bool true, .bool false] := .cons (hbool 62 1) (.cons (hbool 62 0) .nil)
  have harray : TypedForm sampleType 0
      [0x1D, 0xC0, 0x00, 0x00, 0x04, 0x02, 0x00, 0x01, 0x00] (.array [.bool true, .bool false]) :=
    ⟨[0x1D], _, ⟨0x1D, none⟩, rfl, htype _ (by decide), _,
      .uniform hlength (htype 0x02 (by decide)) (show (0x00 : UInt8) ≠ 1 by decide) helements, rfl⟩
  have hvalue : TypedForm sampleType 0 [0x02, 0x01] (.bool true) :=
    ⟨[0x02], [0x01], ⟨0x02, none⟩, rfl, htype _ (by decide), hbool 63 1⟩
  have hname : sampleType.IsFieldName sampleOwner 0 "IsError" :=
    ⟨by decide, ⟨1, -1, -1, 0⟩, ⟨by decide, rfl⟩, rfl⟩
  have hmember : MemberForm sampleType sampleOwner [0x00] (sampleOwner, 0) :=
    .own (hone 0 (by decide))
  have hfield : AssignmentForm sampleType sampleType.IsFieldName sampleOwner [0x02, 0x01, 0x00]
      ⟨"IsError", .bool true⟩ := .mk hvalue hmember hname
  have hcount : UIntForm 1 [0x01] := hone 1 (by decide)
  have hrecord : RecordForm sampleType sampleOwner
      ([0x01] ++ ([0x01] ++ ([0x00] ++ ([0x1D, 0xC0, 0x00, 0x00, 0x04, 0x02, 0x00, 0x01, 0x00] ++
        ([0x02, 0x01, 0x00] ++ [])))))
      ⟨[.array [.bool true, .bool false]], [⟨"IsError", .bool true⟩] ++ []⟩ :=
    .mk hcount hcount (hone 0 (by decide)) (.cons harray .nil) (.cons hfield .nil) .nil
  have hmethod : RowAt sampleType.methods (0 : Int32).toInt
      ⟨0, 0, -1, 0, -1, 0, 0, 0, 0xFFFF, 0, -1⟩ := ⟨by decide, rfl⟩
  have howner : RowAt sampleType.typeDefs (0 : UInt32).toNat sampleOwner := ⟨by decide, rfl⟩
  exact .cons (.mk hmethod howner rfl hrecord) .nil

theorem dataForm_sample : DataForm sampleType [0xAB] sampleData [sampleAttribute] := by
  have hheader : UIntForm ([0] : List Int32).length [0x01] := .one (by decide)
  exact .mk hheader recordsForm_sample

theorem reads_sampleData : ∃ r, ofBytes ⟨sampleData.toArray⟩ = .ok r ∧ r.count.toNat = 1 ∧
    (reads sampleType 1 r).1 = [.ok sampleAttribute] ∧
    sampleData.drop (reads sampleType 1 r).2.recordPos = [0xAB] := by
  have h : DataForm sampleType [0xAB] (ByteArray.mk sampleData.toArray).data.toList
      [sampleAttribute] := dataForm_sample
  exact reads_of_dataForm h

end MetadataDump.RecordReader
