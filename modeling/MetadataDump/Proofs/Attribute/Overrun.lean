import MetadataDump.Proofs.Attribute.Cursors

namespace MetadataDump

theorem Reader.i32_of_lt {c : Cursor} (h : c.bytes.size < c.pos + 4) :
    Reader.i32 c = .error (.outOfBounds .number) c :=
  bind_error (bind_error (bind_error (take_of_lt h)))

namespace RecordReader

variable {s : Snapshot} {r : RecordReader}

/-- How many constructors there would be if all bytes behind the number of records were a table. -/
def slots (r : RecordReader) : Nat := (r.bytes.size - r.constructorPos) / 4

theorem InStep.count_le_slots {i : Nat} {r' : RecordReader} (h : InStep r i r') :
    r.count.toNat ≤ r.slots := by
  have htable := h.tableEnd_le_size
  rw [slots]
  omega

theorem InStep.read_of_slots {r' : RecordReader} (h : InStep r r.slots r') :
    RecordReader.read s r' = (.error (.outOfBounds .number), r') := by
  refine read_of_constructor (Reader.i32_of_lt ?_)
  -- Behind the last slot there are at most three bytes.
  have htable := h.tableEnd_le_size
  rw [h.bytes, h.constructorPos, slots]
  dsimp only
  omega

theorem after_of_read {e : Error} {i : Nat} (h : read s (after s r i) = (.error e, after s r i))
    {j : Nat} (hj : i ≤ j) : after s r j = after s r i := by
  induction j, hj using Nat.le_induction with
  | base => rfl
  | succ j _ ih => rw [after_succ, ih, h]

section Runs

variable (h : InStep r 0 r)
include h

theorem inStep_after_slots : InStep r r.slots (after s r r.slots) := by
  have htable := h.tableEnd_le_size
  refine h.after_of_le ?_
  rw [slots]
  omega

theorem after_of_slots_le {i : Nat} (hi : r.slots ≤ i) : after s r i = after s r r.slots :=
  after_of_read (inStep_after_slots h).read_of_slots hi

theorem getElem?_reads_of_slots_le {n i : Nat} (hi : r.slots ≤ i) (hn : i < n) :
    (reads s n r).1[i]? = some (.error (.outOfBounds .number)) := by
  rw [getElem?_reads, if_pos hn, after_of_slots_le h hi, (inStep_after_slots h).read_of_slots]

theorem constructorPos_after (n : Nat) :
    (after s r n).constructorPos = r.constructorPos + 4 * min n r.slots := by
  rcases Nat.le_total n r.slots with hn | hn
  · have hstep : InStep r n (after s r n) := by
      have htable := h.tableEnd_le_size
      rw [slots] at hn
      exact h.after_of_le (by omega)
    rw [hstep.constructorPos, Nat.min_eq_left hn]
  · rw [after_of_slots_le h hn, (inStep_after_slots h).constructorPos, Nat.min_eq_right hn]

end Runs

/-- The number of records limits every run: reads behind the last record fail, and the position of
constructors stays in the table. -/
structure Limited (s : Snapshot) (r : RecordReader) : Prop where
  error : ∀ n i, r.count.toNat ≤ i → i < n → ∃ e, (reads s n r).1[i]? = some (.error e)
  constructorPos_le : ∀ n, (after s r n).constructorPos ≤ r.constructorPos + 4 * r.count.toNat

theorem limited_iff_slots (h : InStep r 0 r) : Limited s r ↔ r.slots = r.count.toNat := by
  have hcount := h.count_le_slots
  constructor
  · intro hlimited
    have hle := hlimited.constructorPos_le r.slots
    rw [constructorPos_after h, Nat.min_self] at hle
    omega
  · intro hslots
    refine ⟨fun n i hi hn ↦ ⟨_, getElem?_reads_of_slots_le h (hslots ▸ hi) hn⟩, fun n ↦ ?_⟩
    have hmin := Nat.min_le_right n r.slots
    rw [constructorPos_after h]
    omega

/-- Reading goes on behind the last record as long as there are four bytes, which make the next
constructor whatever they belong to, and then fails for good. So the number of records is a limit
exactly if the table leaves fewer than four bytes. -/
theorem limited_iff_of_ofBytes {bytes : ByteArray} (h : ofBytes bytes = .ok r) (s : Snapshot) :
    (Limited s r ↔ bytes.size < r.constructorPos + 4 * r.count.toNat + 4) ∧
    (∀ i < r.slots, ∃ constructor result,
      Int32Form.At bytes (r.constructorPos + 4 * i) (r.constructorPos + 4 * (i + 1))
        constructor ∧
      (after s r i).constructorPos = r.constructorPos + 4 * i ∧
      (∀ n, i < n → (reads s n r).1[i]? = some result) ∧
      Resolves s bytes constructor (after s r i).recordPos result
        (after s r (i + 1)).recordPos) ∧
    ∀ i, r.slots ≤ i → after s r i = after s r r.slots ∧
      ∀ n, i < n → (reads s n r).1[i]? = some (.error (.outOfBounds .number)) := by
  obtain ⟨rfl, hstart⟩ := InStep.start h
  have htable := hstart.tableEnd_le_size
  refine ⟨?_, fun i hi ↦ ?_, fun i hi ↦ ⟨after_of_slots_le hstart hi,
    fun n hn ↦ getElem?_reads_of_slots_le hstart hi hn⟩⟩
  · rw [limited_iff_slots hstart, slots]
    omega
  · rw [slots] at hi
    have hstep : InStep r i (after s r i) := hstart.after_of_le (by omega)
    obtain ⟨constructor, hat, hconstructor⟩ := hstep.exists_constructor_of_le (by omega)
    have hresolves := (resolves_read (s := s) hconstructor).2
    rw [hstep.bytes, ← after_succ] at hresolves
    refine ⟨constructor, _, hat, hstep.constructorPos, fun n hn ↦ ?_, hresolves⟩
    rw [getElem?_reads, if_pos hn]

def bareData : ByteArray := ⟨#[0x01, 0x00, 0x00, 0x00, 0x00, 0x00, 0x00, 0x00]⟩

theorem limited_bareData : ∃ r, ofBytes bareData = .ok r ∧ Limited sampleType r := by
  have hheader : ofBytes bareData = .ok ⟨bareData, 1, 1, 5⟩ := rfl
  exact ⟨_, hheader, (limited_iff_of_ofBytes hheader sampleType).1.2 (by decide)⟩

def trailedData : ByteArray :=
  ⟨#[0x01, 0x00, 0x00, 0x00, 0x00, 0x00, 0x00, 0x00, 0x00, 0x00, 0x00]⟩

theorem not_limited_trailedData : ∃ r, ofBytes trailedData = .ok r ∧ r.count.toNat = 1 ∧
    (reads sampleType 2 r).1 = [.ok ⟨"Obsolete", [], []⟩, .ok ⟨"Obsolete", [], []⟩] ∧
    ¬ Limited sampleType r := by
  have hheader : ofBytes trailedData = .ok ⟨trailedData, 1, 1, 5⟩ := rfl
  have hreads : (reads sampleType 2 ⟨trailedData, 1, 1, 5⟩).1 =
      [.ok ⟨"Obsolete", [], []⟩, .ok ⟨"Obsolete", [], []⟩] := rfl
  refine ⟨_, hheader, rfl, hreads, fun hlimited ↦ ?_⟩
  obtain ⟨e, he⟩ := hlimited.error 2 1 (by decide) (by decide)
  rw [hreads] at he
  exact nomatch he

end RecordReader

end MetadataDump
