import MetadataDump.Proofs.Attribute.Size

namespace MetadataDump

def Int32Form : Form Int32 := fun bs n ↦ bs = leBytes 4 n.toUInt32.toNat

theorem exists_int32Form_at {bytes : ByteArray} {pos : Nat} (h : pos + 4 ≤ bytes.size) :
    ∃ n, Int32Form.At bytes pos (pos + 4) n := by
  obtain ⟨bs, hbs⟩ : ∃ bs, (bytes.extract pos (pos + 4)).data.toList = bs := ⟨_, rfl⟩
  have hlength : bs.length = 4 := by
    rw [← hbs, Array.length_toList]
    show (bytes.extract pos (pos + 4)).size = 4
    rw [ByteArray.size_extract]
    omega
  have hlt : littleEndian bs < 2 ^ 32 := by
    have hlt := littleEndian_lt bs
    rwa [hlength] at hlt
  refine ⟨(UInt32.ofNat (littleEndian bs)).toInt32, Nat.le_add_right pos 4, h, ?_⟩
  rw [hbs, Int32Form, UInt32.toUInt32_toInt32, UInt32.toNat_ofNat_of_lt' hlt, ← hlength,
    leBytes_littleEndian]

namespace RecordReader

variable {s : Snapshot} {r : RecordReader}

section Runs

def read (s : Snapshot) (r : RecordReader) : Except Error Attribute × RecordReader :=
  match next s r with
  | .ok a r => (.ok a, r)
  | .error e r => (.error e, r)

def after (s : Snapshot) (r : RecordReader) (i : Nat) : RecordReader := (reads s i r).2

theorem reads_succ (n : Nat) : reads s (n + 1) r =
    ((read s r).1 :: (reads s n (read s r).2).1, (reads s n (read s r).2).2) := by
  rw [reads, read]
  cases next s r <;> rfl

theorem after_succ_left (i : Nat) : after s r (i + 1) = after s (read s r).2 i := by
  rw [after, reads_succ, after]

theorem after_succ (i : Nat) : after s r (i + 1) = (read s (after s r i)).2 := by
  induction i generalizing r with
  | zero => rw [after_succ_left]; rfl
  | succ i ih => rw [after_succ_left, ih, ← after_succ_left]

theorem getElem?_reads {n i : Nat} :
    (reads s n r).1[i]? = if i < n then some (read s (after s r i)).1 else none := by
  induction n generalizing r i with
  | zero => rfl
  | succ n ih =>
    rw [reads_succ]
    cases i with
    | zero => rfl
    | succ i =>
      rw [List.getElem?_cons_succ, ih, after_succ_left]
      simp only [Nat.add_lt_add_iff_right]

end Runs

section Steps

/-- What becomes of the record at a position, given its constructor, and the position after it. -/
inductive Resolves (s : Snapshot) (bytes : ByteArray) (constructor : Int32) (pos : Nat) :
    Except Error Attribute → Nat → Prop
  | noType {e : Error} : attributeType s constructor = .error e →
      Resolves s bytes constructor pos (.error e) pos
  | badRecord {owner : TypeRow} {e : Error} {d : Cursor} :
      attributeType s constructor = .ok owner →
      Reader.recordArguments s owner ⟨bytes, pos⟩ = .error e d →
      Resolves s bytes constructor pos (.error e) pos
  /-- The record is passed although its attribute has no name. -/
  | noName {owner : TypeRow} {values : RecordArguments} {stop : Nat} {e : Error} :
      attributeType s constructor = .ok owner → (RecordForm s owner).At bytes pos stop values →
      s.text owner.nameIndex = .error e → Resolves s bytes constructor pos (.error e) stop
  | whole {owner : TypeRow} {values : RecordArguments} {stop : Nat} {name : String} :
      attributeType s constructor = .ok owner → (RecordForm s owner).At bytes pos stop values →
      s.text owner.nameIndex = .ok name → Resolves s bytes constructor pos
        (.ok ⟨attributeName name, values.fixed, values.named⟩) stop

theorem Resolves.le {bytes : ByteArray} {constructor : Int32} {pos stop : Nat}
    {result : Except Error Attribute} (h : Resolves s bytes constructor pos result stop) :
    pos ≤ stop ∧ (pos ≤ bytes.size → stop ≤ bytes.size) := by
  cases h with
  | noType _ => exact ⟨Nat.le_refl pos, id⟩
  | badRecord _ _ => exact ⟨Nat.le_refl pos, id⟩
  | noName _ hat _ => exact ⟨hat.1, fun _ ↦ hat.2.1⟩
  | whole _ hat _ => exact ⟨hat.1, fun _ ↦ hat.2.1⟩

theorem lt_of_recordForm_at {bytes : ByteArray} {pos stop : Nat} {owner : TypeRow}
    {values : RecordArguments} (h : (RecordForm s owner).At bytes pos stop values) :
    pos < stop := by
  obtain ⟨hle, hsize, hform⟩ := h
  have hlength := hform.three_le_length
  rw [Array.length_toList] at hlength
  have hextract : (bytes.extract pos stop).data.size = stop - pos := by
    show (bytes.extract pos stop).size = _
    rw [ByteArray.size_extract]
    omega
  omega

theorem Resolves.lt {bytes : ByteArray} {constructor : Int32} {pos stop : Nat} {a : Attribute}
    (h : Resolves s bytes constructor pos (.ok a) stop) : pos < stop := by
  cases h with
  | whole _ hat _ => exact lt_of_recordForm_at hat

section Errors

variable {constructor : Int32} {c : Cursor} {e : Error}

theorem next_error_of_type
    (hconstructor : Reader.i32 ⟨r.bytes, r.constructorPos⟩ = .ok constructor c)
    (htype : attributeType s constructor = .error e) :
    next s r = .error e { r with constructorPos := c.pos } := by
  simp only [next, bind, EStateM.bind, get, getThe, MonadStateOf.get, EStateM.get, readAt,
    hconstructor, modify, modifyGet, MonadStateOf.modifyGet, EStateM.modifyGet, lift, htype, throw,
    throwThe, MonadExceptOf.throw, EStateM.throw]

/-- The name is looked up when both positions have moved. -/
theorem next_error_of_name {owner : TypeRow} {values : RecordArguments} {d : Cursor}
    (hconstructor : Reader.i32 ⟨r.bytes, r.constructorPos⟩ = .ok constructor c)
    (howner : attributeType s constructor = .ok owner)
    (hvalues : Reader.recordArguments s owner ⟨r.bytes, r.recordPos⟩ = .ok values d)
    (hname : s.text owner.nameIndex = .error e) :
    next s r = .error e { r with constructorPos := c.pos, recordPos := d.pos } := by
  simp only [next, bind, EStateM.bind, get, getThe, MonadStateOf.get, EStateM.get, readAt,
    hconstructor, modify, modifyGet, MonadStateOf.modifyGet, EStateM.modifyGet, lift, howner,
    hvalues, hname, pure, EStateM.pure, throw, throwThe, MonadExceptOf.throw, EStateM.throw]

end Errors

theorem read_of_constructor {e : Error} {c : Cursor}
    (h : Reader.i32 ⟨r.bytes, r.constructorPos⟩ = .error e c) : read s r = (.error e, r) := by
  simp only [read, next, bind, EStateM.bind, get, getThe, MonadStateOf.get, EStateM.get, readAt, h]

/-- What one read does: the constructor is passed in any case, and then the record is resolved. -/
theorem resolves_read {constructor : Int32} {c : Cursor}
    (h : Reader.i32 ⟨r.bytes, r.constructorPos⟩ = .ok constructor c) :
    (read s r).2 =
        { r with constructorPos := c.pos, recordPos := (read s r).2.recordPos } ∧
      Resolves s r.bytes constructor r.recordPos (read s r).1 (read s r).2.recordPos := by
  unfold read
  cases howner : attributeType s constructor with
  | error e =>
    rw [next_error_of_type h howner]
    exact ⟨rfl, .noType howner⟩
  | ok owner =>
    cases hvalues : Reader.recordArguments s owner ⟨r.bytes, r.recordPos⟩ with
    | error e d =>
      rw [next_error h howner hvalues]
      exact ⟨rfl, .badRecord howner hvalues⟩
    | ok values d =>
      have hat := ((Reader.accepts_recordArguments owner).at_of_ok
        (Reader.grounded_recordArguments owner hvalues) hvalues).2
      cases hname : s.text owner.nameIndex with
      | error e =>
        rw [next_error_of_name h howner hvalues hname]
        exact ⟨rfl, .noName howner hat hname⟩
      | ok name =>
        have hnext := next_ok_iff.2
          ⟨constructor, c, owner, values, d, name, h, howner, hvalues, hname, rfl, rfl⟩
        rw [hnext]
        exact ⟨rfl, .whole howner hat hname⟩

end Steps

/-- The positions after `i` reads with a reader that started as `r`. -/
structure InStep (r : RecordReader) (i : Nat) (r' : RecordReader) : Prop where
  bytes : r'.bytes = r.bytes
  count : r'.count = r.count
  constructorPos : r'.constructorPos = r.constructorPos + 4 * i
  tableEnd_le : r.constructorPos + 4 * r.count.toNat ≤ r'.recordPos
  recordPos_le : r'.recordPos ≤ r.bytes.size

theorem InStep.start {bytes : ByteArray} (h : ofBytes bytes = .ok r) :
    r.bytes = bytes ∧ InStep r 0 r := by
  obtain ⟨count, c, -, hsize, rfl⟩ := ofBytes_eq_ok_iff.1 h
  exact ⟨rfl, rfl, rfl, rfl, Nat.le_refl _, hsize⟩

theorem InStep.exists_constructor_of_le {i : Nat} {r' : RecordReader} (h : InStep r i r')
    (hi : r.constructorPos + 4 * (i + 1) ≤ r.bytes.size) : ∃ constructor,
      Int32Form.At r.bytes (r.constructorPos + 4 * i) (r.constructorPos + 4 * (i + 1))
        constructor ∧
      Reader.i32 ⟨r'.bytes, r'.constructorPos⟩ =
        .ok constructor ⟨r'.bytes, r.constructorPos + 4 * (i + 1)⟩ := by
  have hend : r.constructorPos + 4 * i + 4 ≤ r.bytes.size := by omega
  obtain ⟨constructor, hat⟩ := exists_int32Form_at hend
  refine ⟨constructor, hat, ?_⟩
  rw [h.bytes, h.constructorPos]
  exact Reader.accepts_i32.ok_of_at hat

theorem InStep.read {i : Nat} {r' : RecordReader} (h : InStep r i r')
    (hi : r.constructorPos + 4 * (i + 1) ≤ r.bytes.size) : InStep r (i + 1) (read s r').2 := by
  obtain ⟨constructor, -, hconstructor⟩ := h.exists_constructor_of_le hi
  obtain ⟨hread, hresolves⟩ := resolves_read (s := s) hconstructor
  obtain ⟨hle, hsize⟩ := hresolves.le
  rw [h.bytes] at hsize
  refine ⟨?_, ?_, ?_, h.tableEnd_le.trans hle, hsize h.recordPos_le⟩
  · rw [hread, h.bytes]
  · rw [hread, h.count]
  · rw [hread]

theorem InStep.after_of_le {i : Nat} (h : InStep r 0 r)
    (hi : r.constructorPos + 4 * i ≤ r.bytes.size) : InStep r i (after s r i) := by
  induction i with
  | zero => exact h
  | succ i ih =>
    rw [after_succ]
    exact (ih (by omega)).read hi

theorem InStep.tableEnd_le_size {i : Nat} {r' : RecordReader} (h : InStep r i r') :
    r.constructorPos + 4 * r.count.toNat ≤ r.bytes.size :=
  h.tableEnd_le.trans h.recordPos_le

theorem InStep.exists_constructor {i : Nat} {r' : RecordReader} (h : InStep r i r')
    (hi : i < r.count.toNat) : ∃ constructor,
      Int32Form.At r.bytes (r.constructorPos + 4 * i) (r.constructorPos + 4 * (i + 1))
        constructor ∧
      Reader.i32 ⟨r'.bytes, r'.constructorPos⟩ =
        .ok constructor ⟨r'.bytes, r.constructorPos + 4 * (i + 1)⟩ := by
  have htable := h.tableEnd_le_size
  exact h.exists_constructor_of_le (by omega)

theorem InStep.after {i : Nat} (h : InStep r 0 r) (hi : i ≤ r.count.toNat) :
    InStep r i (after s r i) := by
  have htable := h.tableEnd_le_size
  exact h.after_of_le (by omega)

/-- Both positions stay in step with the table, whichever reads fail. The read `i` finds the
constructor `i`, resolves the next record with it, and goes on from there to the end of this record
or not at all. -/
theorem inStep_of_ofBytes {bytes : ByteArray} (h : ofBytes bytes = .ok r) (s : Snapshot) :
    (∀ i ≤ r.count.toNat, InStep r i (after s r i)) ∧
    ∀ i < r.count.toNat, ∃ constructor result,
      Int32Form.At bytes (r.constructorPos + 4 * i) (r.constructorPos + 4 * (i + 1))
        constructor ∧
      Reader.i32 ⟨bytes, (after s r i).constructorPos⟩ =
        .ok constructor ⟨bytes, r.constructorPos + 4 * (i + 1)⟩ ∧
      (∀ n, i < n → (reads s n r).1[i]? = some result) ∧
      Resolves s bytes constructor (after s r i).recordPos result
        (after s r (i + 1)).recordPos ∧
      (after s r i).recordPos ≤ (after s r (i + 1)).recordPos ∧
      ∀ a, result = .ok a → (after s r i).recordPos < (after s r (i + 1)).recordPos := by
  obtain ⟨rfl, hstart⟩ := InStep.start h
  refine ⟨fun i hi ↦ hstart.after hi, fun i hi ↦ ?_⟩
  have hstep : InStep r i (after s r i) := hstart.after (Nat.le_of_lt hi)
  obtain ⟨constructor, hat, hconstructor⟩ := hstep.exists_constructor hi
  have hresolves := (resolves_read (s := s) hconstructor).2
  rw [hstep.bytes] at hconstructor hresolves
  rw [← after_succ] at hresolves
  refine ⟨constructor, _, hat, hconstructor, fun n hn ↦ ?_, hresolves, hresolves.le.1, ?_⟩
  · rw [getElem?_reads, if_pos hn]
  · intro a ha
    rw [ha] at hresolves
    exact hresolves.lt

/-- Three constructors, the first of which is none and the last of which has no record. -/
def mixedData : ByteArray :=
  ⟨#[0x03, 0xFF, 0xFF, 0xFF, 0xFF, 0x00, 0x00, 0x00, 0x00, 0x00, 0x00, 0x00, 0x00, 0x00, 0x00,
    0x00, 0x00]⟩

theorem inStep_mixedData : ∃ r, ofBytes mixedData = .ok r ∧ r.count.toNat = 3 ∧
    (reads sampleType 3 r).1 = [.error (.malformed (.negativeConstructor (-1))),
      .ok ⟨"Obsolete", [], []⟩, .error (.outOfBounds .number)] ∧
    InStep r 3 (after sampleType r 3) := by
  have hheader : ofBytes mixedData = .ok ⟨mixedData, 3, 1, 13⟩ := rfl
  refine ⟨_, hheader, rfl, ?_, (inStep_of_ofBytes hheader sampleType).1 3 (Nat.le_refl 3)⟩
  rfl

end RecordReader

end MetadataDump
