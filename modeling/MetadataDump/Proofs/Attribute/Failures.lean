import MetadataDump.Proofs.Attribute.Cursors

namespace MetadataDump

theorem Reader.i32_eq_ok_iff {bytes : ByteArray} {pos : Nat} {n : Int32} {c : Cursor} :
    Reader.i32 ⟨bytes, pos⟩ = .ok n c ↔
      Int32Form.At bytes pos (pos + 4) n ∧ c = ⟨bytes, pos + 4⟩ := by
  constructor
  · intro h
    have hvalid := grounded_i32 h
    have hat := (accepts_i32.at_of_ok hvalid h).2
    obtain ⟨bs, hbs, -, rfl⟩ := (accepts_i32 _ hvalid n c).1 h
    have hskip : (⟨bytes, pos⟩ : Cursor).skip bs.length = ⟨bytes, pos + 4⟩ := by
      rw [hbs, length_leBytes]
      rfl
    rw [hskip] at hat ⊢
    exact ⟨hat, rfl⟩
  · rintro ⟨hat, rfl⟩
    exact accepts_i32.ok_of_at hat

namespace RecordReader

variable {s : Snapshot} {r : RecordReader}

/-- A read that fails leaves the record where it is. -/
def Keeps (s : Snapshot) (r : RecordReader) : Prop :=
  ∀ e, (read s r).1 = .error e → (read s r).2.recordPos = r.recordPos

/-- The next record is there as a whole, and the name of its attribute type is not. -/
inductive Nameless (s : Snapshot) (r : RecordReader) (stop : Nat) (e : Error) : Prop
  | mk {constructor : Int32} {owner : TypeRow} {values : RecordArguments} :
      Int32Form.At r.bytes r.constructorPos (r.constructorPos + 4) constructor →
      attributeType s constructor = .ok owner →
      (RecordForm s owner).At r.bytes r.recordPos stop values →
      s.text owner.nameIndex = .error e → Nameless s r stop e

theorem Nameless.lt {stop : Nat} {e : Error} (h : Nameless s r stop e) : r.recordPos < stop := by
  obtain ⟨-, -, hat, -⟩ := h
  exact lt_of_recordForm_at hat

theorem Nameless.read {stop : Nat} {e : Error} (h : Nameless s r stop e) :
    RecordReader.read s r =
      (.error e, { r with constructorPos := r.constructorPos + 4, recordPos := stop }) := by
  obtain ⟨hconstructor, howner, hat, hname⟩ := h
  have hi32 := Reader.i32_eq_ok_iff.2 ⟨hconstructor, rfl⟩
  have hvalues := (Reader.accepts_recordArguments _).ok_of_at hat
  rw [RecordReader.read, next_error_of_name hi32 howner hvalues hname]

/-- What a read does to the position of records: a record that is read or nameless is passed, any
other failure keeps it. -/
theorem read_cases (s : Snapshot) (r : RecordReader) :
    (∃ a, (read s r).1 = .ok a ∧ r.recordPos < (read s r).2.recordPos) ∨
    (∃ stop e, Nameless s r stop e) ∨
    ∃ e, (read s r).1 = .error e ∧ (read s r).2.recordPos = r.recordPos := by
  cases hi32 : Reader.i32 ⟨r.bytes, r.constructorPos⟩ with
  | error e c =>
    rw [read_of_constructor hi32]
    exact .inr (.inr ⟨e, rfl, rfl⟩)
  | ok constructor c =>
    obtain ⟨hconstructor, -⟩ := Reader.i32_eq_ok_iff.1 hi32
    -- The result and the position behind it are what `Resolves` is about, so they have to be
    -- variables before its cases are told apart.
    have hresolves := (resolves_read (s := s) hi32).2
    generalize hresult : (read s r).1 = result at hresolves
    generalize hstop : (read s r).2.recordPos = stop at hresolves
    cases hresolves with
    | noType _ => exact .inr (.inr ⟨_, rfl, rfl⟩)
    | badRecord _ _ => exact .inr (.inr ⟨_, rfl, rfl⟩)
    | noName howner hat hname => exact .inr (.inl ⟨_, _, .mk hconstructor howner hat hname⟩)
    | whole _ hat _ => exact .inl ⟨_, rfl, lt_of_recordForm_at hat⟩

theorem keeps_iff : Keeps s r ↔ ∀ stop e, ¬ Nameless s r stop e := by
  constructor
  · intro hkeeps stop e hnameless
    have hpos := hkeeps e (by rw [hnameless.read])
    rw [hnameless.read] at hpos
    exact Nat.ne_of_gt hnameless.lt hpos
  · intro hnamed e he
    rcases read_cases s r with ⟨a, ha, -⟩ | ⟨stop, e', hnameless⟩ | ⟨_, -, hpos⟩
    · exact nomatch he.symm.trans ha
    · exact absurd hnameless (hnamed stop e')
    · exact hpos

section Positions

theorem recordPos_le_read : r.recordPos ≤ (read s r).2.recordPos := by
  rcases read_cases s r with ⟨_, -, hlt⟩ | ⟨_, _, hnameless⟩ | ⟨_, -, hpos⟩
  · exact Nat.le_of_lt hlt
  · rw [hnameless.read]
    exact Nat.le_of_lt hnameless.lt
  · exact Nat.le_of_eq hpos.symm

theorem recordPos_read_eq_iff : (read s r).2.recordPos = r.recordPos ↔
    ∃ e, (read s r).1 = .error e ∧ ∀ stop, ¬ Nameless s r stop e := by
  constructor
  · intro hpos
    rcases read_cases s r with ⟨_, -, hlt⟩ | ⟨_, _, hnameless⟩ | ⟨e, he, -⟩
    · omega
    · rw [hnameless.read] at hpos
      exact absurd hpos (Nat.ne_of_gt hnameless.lt)
    · refine ⟨e, he, fun stop hnameless ↦ ?_⟩
      rw [hnameless.read] at hpos
      exact Nat.ne_of_gt hnameless.lt hpos
  · rintro ⟨e, he, hnamed⟩
    refine keeps_iff.2 (fun stop e' hnameless ↦ ?_) e he
    rw [hnameless.read] at he
    cases he
    exact hnamed stop hnameless

theorem recordPos_le_after (i : Nat) : r.recordPos ≤ (after s r i).recordPos := by
  induction i with
  | zero => exact Nat.le_refl _
  | succ i ih =>
    rw [after_succ]
    exact ih.trans recordPos_le_read

theorem recordPos_after_eq_iff (n : Nat) : (after s r n).recordPos = r.recordPos ↔
    ∀ i < n, ∃ e, (read s (after s r i)).1 = .error e ∧
      ∀ stop, ¬ Nameless s (after s r i) stop e := by
  induction n with
  | zero => exact iff_of_true rfl fun _ hi ↦ absurd hi (Nat.not_lt_zero _)
  | succ n ih =>
    -- The position never goes back, so it is the same at the end only if it is the same before.
    have hle := recordPos_le_after (s := s) (r := r) n
    have hstep := recordPos_le_read (s := s) (r := after s r n)
    have hboth : (after s r (n + 1)).recordPos = r.recordPos ↔
        (after s r n).recordPos = r.recordPos ∧
          (read s (after s r n)).2.recordPos = (after s r n).recordPos := by
      rw [after_succ]
      omega
    rw [hboth, ih, recordPos_read_eq_iff, Nat.forall_lt_succ_right]

end Positions

/-- A failed read keeps the position of records, whatever the reader did before, except for one
cause of failure: a record that is there as a whole is passed when the name of its attribute type is
missing. So a run stays at its first record exactly if every read of it fails for another cause. -/
theorem keeps_iff_not_nameless (s : Snapshot) (r : RecordReader) :
    (Keeps s r ↔ ∀ stop e, ¬ Nameless s r stop e) ∧
    (∀ stop e, Nameless s r stop e → (read s r).1 = .error e ∧
      (read s r).2.recordPos = stop ∧ r.recordPos < stop) ∧
    ∀ n, (after s r n).recordPos = r.recordPos ↔
      ∀ i < n, ∃ e, (reads s n r).1[i]? = some (.error e) ∧
        ∀ stop, ¬ Nameless s (after s r i) stop e := by
  refine ⟨keeps_iff, fun stop e h ↦ ⟨?_, ?_, h.lt⟩, fun n ↦ ?_⟩
  · rw [h.read]
  · rw [h.read]
  · rw [recordPos_after_eq_iff]
    refine forall₂_congr fun i hi ↦ exists_congr fun e ↦ and_congr_left fun _ ↦ ?_
    rw [getElem?_reads, if_pos hi, Option.some_inj]

def namelessType : Snapshot :=
  { Snapshot.blank ⟨29, 0⟩ with
    strings := #["MarkerAttribute"]
    typeDefs := #[{ sampleOwner with nameIndex := 9 }, sampleOwner]
    methods := #[⟨0, 0, -1, 0, -1, 0, 0, 0, 0xFFFF, 0, -1⟩,
      ⟨0, 1, -1, 0, -1, 0, 0, 0, 0xFFFF, 0, -1⟩] }

/-- A record of either type: the argument is `true` for the first and `false` for the second. -/
def skippedData : ByteArray :=
  ⟨#[0x02, 0x00, 0x00, 0x00, 0x00, 0x01, 0x00, 0x00, 0x00, 0x01, 0x00, 0x00, 0x02, 0x01, 0x01, 0x00,
    0x00, 0x02, 0x00]⟩

/-- The first read fails, and the second one gets the record behind the one that was left. -/
theorem not_keeps_skippedData : ∃ r, ofBytes skippedData = .ok r ∧
    (reads namelessType 2 r).1 =
      [.error (.dangling .strings 9), .ok ⟨"Marker", [.bool false], []⟩] ∧
    ¬ Keeps namelessType r := by
  have hheader : ofBytes skippedData = .ok ⟨skippedData, 2, 1, 9⟩ := rfl
  have hread : read namelessType ⟨skippedData, 2, 1, 9⟩ =
      (.error (.dangling .strings 9), ⟨skippedData, 2, 5, 14⟩) := rfl
  have hnext : read namelessType ⟨skippedData, 2, 5, 14⟩ =
      (.ok ⟨"Marker", [.bool false], []⟩, ⟨skippedData, 2, 9, 19⟩) := rfl
  refine ⟨_, hheader, ?_, fun hkeeps ↦ ?_⟩
  · rw [reads_succ, hread, reads_succ, hnext, reads]
  have hpos := hkeeps (.dangling .strings 9) (by rw [hread])
  rw [hread] at hpos
  exact absurd hpos (by decide)

end RecordReader

end MetadataDump
