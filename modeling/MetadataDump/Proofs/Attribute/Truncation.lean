import MetadataDump.Proofs.Attribute.Decode
import MetadataDump.Proofs.Bytes.Truncation

namespace MetadataDump

namespace Reader

variable {s : Snapshot}

theorem needsAll_valueType : NeedsAll (valueType s) := by
  refine needsAll_u8.bind accepts_u8 fun tag ↦ needsAll_ite (fun _ ↦ ?_) fun _ ↦ needsAll_pure _
  refine needsAll_compressedInt.bind accepts_compressedInt fun index ↦ ?_
  refine (needsAll_lift _).bind (accepts_lift _) fun element ↦ ?_
  exact (needsAll_lift _).map (accepts_lift _) _

theorem needsAll_length? (invalid : Int32 → Damage) : NeedsAll (length? invalid) := by
  refine needsAll_compressedInt.bind accepts_compressedInt fun n ↦ ?_
  exact needsAll_ite (fun _ ↦ needsAll_pure _) fun _ ↦
    needsAll_ite (fun _ ↦ needsAll_throw _) fun _ ↦ needsAll_pure _

section Payload

variable {f : ValueType → Reader Argument} {inner : ValueType → Form Argument}

theorem needsAll_boxedPayload (nf : ∀ t, NeedsAll (f t)) : NeedsAll (valueType s >>= f) :=
  needsAll_valueType.bind accepts_valueType nf

theorem needsAll_payload (nf : ∀ t, NeedsAll (f t)) (hf : ∀ t, (f t).Accepts (inner t))
    (tag : UInt8) : NeedsAll (payload s f tag) := by
  unfold payload
  split
  · exact needsAll_u8.map accepts_u8 _
  · exact needsAll_u16.map accepts_u16 _
  · exact needsAll_i8.map accepts_i8 _
  · exact needsAll_u8.map accepts_u8 _
  · exact needsAll_i16.map accepts_i16 _
  · exact needsAll_u16.map accepts_u16 _
  · exact needsAll_compressedInt.map accepts_compressedInt _
  · exact needsAll_compressedUInt.map accepts_compressedUInt _
  · exact needsAll_i64.map accepts_i64 _
  · exact needsAll_u64.map accepts_u64 _
  · exact needsAll_u32.map accepts_u32 _
  · exact needsAll_u64.map accepts_u64 _
  · refine (needsAll_length? _).bind (accepts_length? _) fun n ↦ ?_
    cases n with
    | none => exact needsAll_pure _
    | some n => exact (needsAll_text n).map (accepts_text n) _
  · exact needsAll_boxedPayload nf
  · refine (needsAll_length? _).bind (accepts_length? _) fun n ↦ ?_
    cases n with
    | none => exact needsAll_pure _
    | some n =>
      refine needsAll_valueType.bind accepts_valueType fun t ↦ ?_
      refine needsAll_u8.bind accepts_u8 fun flag ↦ ?_
      have helement := accepts_ite (P := flag = 1)
        (fun _ ↦ (accepts_valueType (s := s)).bind hf) fun _ ↦ hf t
      have nelement := needsAll_ite (P := flag = 1)
        (fun _ ↦ needsAll_boxedPayload (s := s) nf) fun _ ↦ nf t
      exact (nelement.times helement n).map (helement.times n) _
  · refine needsAll_compressedInt.bind accepts_compressedInt fun index ↦ ?_
    exact needsAll_ite (fun _ ↦ needsAll_pure _) fun _ ↦ (needsAll_lift _).map (accepts_lift _) _
  · exact needsAll_throw _

end Payload

theorem needsAll_valueOf (room : Nat) (t : ValueType) : NeedsAll (valueOf s room t) := by
  induction room generalizing t with
  | zero => exact needsAll_throw _
  | succ room ih =>
    exact (needsAll_payload ih (accepts_valueOf room) t.tag).map
      (accepts_payload (accepts_valueOf room) t.tag) _

theorem needsAll_value (depth : Nat) : NeedsAll (value s depth) :=
  needsAll_valueType.bind accepts_valueType fun t ↦ needsAll_valueOf _ t

theorem needsAll_member (owner : TypeRow) : NeedsAll (member s owner) := by
  refine needsAll_compressedInt.bind accepts_compressedInt fun position ↦ ?_
  refine needsAll_ite (fun _ ↦ needsAll_pure _) fun _ ↦ ?_
  refine needsAll_compressedUInt.bind accepts_compressedUInt fun index ↦ ?_
  exact (needsAll_lift _).map (accepts_lift _) _

theorem needsAll_assignment (name : TypeRow → Nat → Except Error String) (owner : TypeRow) :
    NeedsAll (assignment s name owner) := by
  refine (needsAll_value 0).bind (accepts_value 0) fun value ↦ ?_
  refine (needsAll_member owner).bind (accepts_member owner) fun m ↦ ?_
  exact (needsAll_lift _).map (accepts_lift _) _

theorem needsAll_recordArguments (owner : TypeRow) : NeedsAll (recordArguments s owner) := by
  refine needsAll_compressedUInt.bind accepts_compressedUInt fun n ↦ ?_
  refine needsAll_compressedUInt.bind accepts_compressedUInt fun k ↦ ?_
  refine needsAll_compressedUInt.bind accepts_compressedUInt fun l ↦ ?_
  refine ((needsAll_value 0).times (accepts_value 0) _).bind ((accepts_value 0).times _) fun vs ↦ ?_
  refine ((needsAll_assignment _ owner).times (accepts_fieldAssignment owner) _).bind
    ((accepts_fieldAssignment owner).times _) fun fs ↦ ?_
  exact ((needsAll_assignment _ owner).times (accepts_propertyAssignment owner) _).map
    ((accepts_propertyAssignment owner).times _) _

end Reader

namespace RecordReader

variable {s : Snapshot} {r r' : RecordReader} {a : Attribute}

def on (r : RecordReader) (bytes : ByteArray) : RecordReader := { r with bytes }

theorem pos_of_next (h : next s r = .ok a r') :
    r'.bytes = r.bytes ∧ r'.constructorPos = r.constructorPos + 4 ∧
      r.recordPos ≤ r'.recordPos ∧ r'.recordPos ≤ r.bytes.size := by
  obtain ⟨index, c, owner, values, d, name, hindex, -, hvalues, -, -, rfl⟩ := next_ok_iff.1 h
  have hc := Reader.grounded_i32 hindex
  have hd := Reader.grounded_recordArguments owner hvalues
  obtain ⟨bs, hbs, -, rfl⟩ := (Reader.accepts_i32 _ hc index c).1 hindex
  obtain ⟨-, hle, hsize, -⟩ := (Reader.accepts_recordArguments owner).at_of_ok hd hvalues
  refine ⟨rfl, ?_, hle, hsize⟩
  rw [hbs, length_leBytes]
  rfl

theorem next_on_of_agree {other : ByteArray} {e : Nat} (h : next s r = .ok a r')
    (hc : r'.constructorPos ≤ e) (hr : r'.recordPos ≤ e)
    (he : other.extract 0 e = r.bytes.extract 0 e) :
    next s (r.on other) = .ok a (r'.on other) := by
  obtain ⟨index, c, owner, values, d, name, hindex, howner, hvalues, hname, rfl, rfl⟩ :=
    next_ok_iff.1 h
  have hindex' := Reader.accepts_i32.ok_of_agree (Reader.grounded_i32 hindex) hindex hc he
  have hvalues' := (Reader.accepts_recordArguments owner).ok_of_agree
    (Reader.grounded_recordArguments owner hvalues) hvalues hr he
  exact next_ok_iff.2 ⟨index, _, owner, values, _, name, hindex', howner, hvalues', hname, rfl, rfl⟩

theorem next_on_extract {m : Nat} (h : next s r = .ok a r') (hc : r'.constructorPos ≤ m)
    (hr : r.recordPos ≤ m) (hm : m < r'.recordPos) :
    ∃ check r₁, next s (r.on (r.bytes.extract 0 m)) = .error (.outOfBounds check) r₁ := by
  obtain ⟨index, c, owner, values, d, name, hindex, howner, hvalues, -, -, rfl⟩ := next_ok_iff.1 h
  have hindex' := Reader.accepts_i32.ok_of_agree (Reader.grounded_i32 hindex) hindex hc
    (extract_zero_idem r.bytes m)
  have hd := Reader.grounded_recordArguments owner hvalues
  obtain ⟨check, d', hvalues'⟩ := (Reader.needsAll_recordArguments owner).error_of_lt
    (Reader.accepts_recordArguments owner) hd hvalues hr hm
  exact ⟨check, _, next_error hindex' howner hvalues'⟩

section Runs

variable {n : Nat} {as : List Attribute} {bytes : ByteArray}

theorem pos_of_reads (h : reads s n r = (as.map .ok, r')) :
    r'.bytes = r.bytes ∧ r'.constructorPos = r.constructorPos + 4 * n ∧
      r.recordPos ≤ r'.recordPos := by
  induction n generalizing r as with
  | zero =>
    obtain rfl := (Prod.mk.inj h).2
    exact ⟨rfl, rfl, Nat.le_refl _⟩
  | succ n ih =>
    obtain ⟨a, bs, r₁, rfl, hnext, hreads⟩ := reads_succ_eq_iff.1 h
    obtain ⟨hbytes, hc, hle, -⟩ := pos_of_next hnext
    obtain ⟨hbytes', hc', hle'⟩ := ih hreads
    exact ⟨hbytes'.trans hbytes, by omega, hle.trans hle'⟩

theorem reads_take (h : reads s n r = (as.map .ok, r')) {i : Nat} (hi : i ≤ n) :
    reads s i r = ((as.take i).map .ok, (reads s i r).2) := by
  induction n generalizing r as i with
  | zero =>
    obtain rfl := Nat.le_zero.1 hi
    rfl
  | succ n ih =>
    cases i with
    | zero => rfl
    | succ i =>
      obtain ⟨a, bs, r₁, rfl, hnext, hreads⟩ := reads_succ_eq_iff.1 h
      refine reads_succ_eq_iff.2 ⟨a, bs.take i, r₁, rfl, hnext, ?_⟩
      rw [ih hreads (Nat.le_of_succ_le_succ hi), reads, hnext]

def recordEnd (s : Snapshot) (r : RecordReader) (i : Nat) : Nat := (reads s i r).2.recordPos

theorem recordEnd_succ (h : next s r = .ok a r') (i : Nat) :
    recordEnd s r (i + 1) = recordEnd s r' i := by
  rw [recordEnd, reads, h]
  rfl

theorem recordPos_le_recordEnd (h : reads s n r = (as.map .ok, r')) {i : Nat} (hi : i ≤ n) :
    r.recordPos ≤ recordEnd s r i :=
  (pos_of_reads (reads_take h hi)).2.2

theorem reads_on_of_agree {other : ByteArray} {e : Nat} (h : reads s n r = (as.map .ok, r'))
    (hc : r'.constructorPos ≤ e) (hr : r'.recordPos ≤ e)
    (he : other.extract 0 e = r.bytes.extract 0 e) :
    reads s n (r.on other) = (as.map .ok, r'.on other) := by
  induction n generalizing r as with
  | zero =>
    obtain ⟨has, rfl⟩ := Prod.mk.inj h
    rw [← has]
    rfl
  | succ n ih =>
    obtain ⟨a, bs, r₁, rfl, hnext, hreads⟩ := reads_succ_eq_iff.1 h
    obtain ⟨hbytes, -, -, -⟩ := pos_of_next hnext
    obtain ⟨-, hc₁, hr₁⟩ := pos_of_reads hreads
    have hnext' := next_on_of_agree hnext (by omega) (hr₁.trans hr) he
    exact reads_succ_eq_iff.2 ⟨a, bs, r₁.on other, rfl, hnext', ih hreads (hbytes ▸ he)⟩

theorem reads_on_extract {m : Nat} (h : reads s n r = (as.map .ok, r'))
    (hc : r'.constructorPos ≤ m) (hr : r.recordPos ≤ m) (hm : m < r'.recordPos) :
    ∃ j < n, (∀ i ≤ n, recordEnd s r i ≤ m ↔ i ≤ j) ∧
      ∃ check, (reads s (j + 1) (r.on (r.bytes.extract 0 m))).1 =
        (as.take j).map .ok ++ [.error (.outOfBounds check)] := by
  induction n generalizing r as with
  | zero =>
    obtain rfl := (Prod.mk.inj h).2
    omega
  | succ n ih =>
    obtain ⟨a, bs, r₁, rfl, hnext, hreads⟩ := reads_succ_eq_iff.1 h
    obtain ⟨hbytes, -, -, -⟩ := pos_of_next hnext
    obtain ⟨-, hc₁, -⟩ := pos_of_reads hreads
    by_cases hcut : r₁.recordPos ≤ m
    · obtain ⟨j, hj, hends, check, hcutReads⟩ := ih hreads hcut
      have hnext' := next_on_of_agree hnext (by omega) hcut (extract_zero_idem r.bytes m)
      refine ⟨j + 1, Nat.succ_lt_succ hj, fun i hi ↦ ?_, check, ?_⟩
      · cases i with
        | zero => exact iff_of_true hr (Nat.zero_le _)
        | succ i =>
          rw [recordEnd_succ hnext, hends i (Nat.le_of_succ_le_succ hi), Nat.add_le_add_iff_right]
      · rw [hbytes] at hcutReads
        rw [reads, hnext', List.take_succ_cons, List.map_cons, List.cons_append, ← hcutReads]
    · have hcut := Nat.not_le.1 hcut
      obtain ⟨check, r₂, hnext'⟩ := next_on_extract hnext (by omega) hr hcut
      refine ⟨0, Nat.succ_pos n, fun i hi ↦ ?_, check, ?_⟩
      · cases i with
        | zero => exact iff_of_true hr (Nat.le_refl 0)
        | succ i =>
          have hle := recordPos_le_recordEnd hreads (Nat.le_of_succ_le_succ hi)
          rw [recordEnd_succ hnext]
          omega
      · rw [reads, hnext']
        rfl

theorem ofBytes_eq_ok_iff : ofBytes bytes = .ok r ↔
    ∃ count c, Reader.compressedUInt (Cursor.ofBytes bytes) = .ok count c ∧
      c.pos + 4 * count.toNat ≤ bytes.size ∧
      r = ⟨bytes, count, c.pos, c.pos + 4 * count.toNat⟩ := by
  unfold ofBytes
  cases hcount : Reader.compressedUInt (Cursor.ofBytes bytes) with
  | error e c => simp
  | ok count c =>
    by_cases hsize : c.pos + 4 * count.toNat ≤ bytes.size
    · simp [hsize, eq_comm]
    · simp [hsize]

theorem ofBytes_of_agree {other : ByteArray} {e : Nat} (h : ofBytes bytes = .ok r)
    (hr : r.recordPos ≤ e) (he : other.extract 0 e = bytes.extract 0 e) :
    ofBytes other = .ok (r.on other) := by
  obtain ⟨count, c, hcount, hsize, rfl⟩ := ofBytes_eq_ok_iff.1 h
  have hvalid : (Cursor.ofBytes bytes).Valid := Nat.zero_le _
  have hlength := congrArg ByteArray.size he
  rw [ByteArray.size_extract, ByteArray.size_extract] at hlength
  have hcount' := Reader.accepts_compressedUInt.ok_of_agree hvalid hcount
    ((Nat.le_add_right _ _).trans hr) he
  exact ofBytes_eq_ok_iff.2 ⟨count, _, hcount', by dsimp only at hr ⊢; omega, rfl⟩

/-- Attributes that were read depend on the bytes up to the end of the last of them and on no
others. Of these bytes none may be missing: the attributes that are still there as a whole are the
same, and the next one runs out of bytes. -/
theorem reads_depends_on_bytes {k : Nat} (h : ofBytes bytes = .ok r) (hk : k ≤ r.count.toNat)
    (hreads : reads s k r = (as.map .ok, r')) :
    (∀ other : ByteArray, other.extract 0 r'.recordPos = bytes.extract 0 r'.recordPos →
      ofBytes other = .ok (r.on other) ∧
        reads s k (r.on other) = (as.map .ok, r'.on other)) ∧
    ∀ m, r.recordPos ≤ m → m < r'.recordPos →
      ofBytes (bytes.extract 0 m) = .ok (r.on (bytes.extract 0 m)) ∧
      ∃ j < k, (∀ i ≤ k, recordEnd s r i ≤ m ↔ i ≤ j) ∧
        ∃ check, (reads s (j + 1) (r.on (bytes.extract 0 m))).1 =
          (as.take j).map .ok ++ [.error (.outOfBounds check)] := by
  obtain ⟨hbytes, hc, hr⟩ := pos_of_reads hreads
  have hfields : r.bytes = bytes ∧ r.constructorPos + 4 * r.count.toNat = r.recordPos := by
    obtain ⟨count, c, -, -, rfl⟩ := ofBytes_eq_ok_iff.1 h
    exact ⟨rfl, rfl⟩
  obtain ⟨rfl, htable⟩ := hfields
  constructor
  · intro other he
    exact ⟨ofBytes_of_agree h hr he, reads_on_of_agree hreads (by omega) (Nat.le_refl _) he⟩
  · intro m hm hlt
    have hheader := ofBytes_of_agree h hm (extract_zero_idem r.bytes m)
    exact ⟨hheader, reads_on_extract hreads (by omega) hm hlt⟩

end Runs

theorem reads_sampleRecord : reads sampleType 1 ⟨⟨sampleData.toArray⟩, 1, 1, 5⟩ =
    ([sampleAttribute].map .ok, ⟨⟨sampleData.toArray⟩, 1, 5, 20⟩) := by
  have h := reads_of_recordsForm (r := ⟨⟨sampleData.toArray⟩, 1, 1, 5⟩) recordsForm_sample
    (by decide) (by decide) (by decide) (by decide)
  exact h

theorem reads_depends_on_bytes_sample :
    (∃ r, ofBytes ⟨(sampleData.take 20).toArray⟩ = .ok r ∧
      (reads sampleType 1 r).1 = [.ok sampleAttribute]) ∧
    ∃ r check, ofBytes ((⟨sampleData.toArray⟩ : ByteArray).extract 0 19) = .ok r ∧
      (reads sampleType 1 r).1 = [.error (.outOfBounds check)] := by
  have hheader : ofBytes ⟨sampleData.toArray⟩ = .ok ⟨⟨sampleData.toArray⟩, 1, 1, 5⟩ := rfl
  obtain ⟨hagree, hcut⟩ := reads_depends_on_bytes hheader (k := 1) (by decide) reads_sampleRecord
  obtain ⟨hheader, hreads⟩ := hagree ⟨(sampleData.take 20).toArray⟩ rfl
  obtain ⟨hheader', j, hj, -, check, hreads'⟩ := hcut 19 (by decide) (by decide)
  obtain rfl := Nat.lt_one_iff.1 hj
  exact ⟨⟨_, hheader, by rw [hreads]; rfl⟩, _, check, hheader', hreads'⟩

end RecordReader

end MetadataDump
