import MetadataDump.Attribute.Scheme
import MetadataDump.Proofs.Attribute.Decode

namespace MetadataDump

theorem lookup_of_getElem? {α : Type} {table : Table} {rows : Array α} {i : Nat} {row : α}
    (h : rows[i]? = some row) : lookup table rows i = .ok row :=
  lookup_eq_ok_iff.2 ⟨Int.natCast_nonneg i, h⟩

theorem lookup_of_size_le {α : Type} {table : Table} {rows : Array α} {i : Nat}
    (h : rows.size ≤ i) :
    lookup table rows i = .error (.dangling table (min i greatestPosition)) := by
  have hnone : rows[(i : Int).toNat]? = none := Array.getElem?_eq_none h
  unfold lookup
  rw [if_neg (Int.not_lt.2 (Int.natCast_nonneg i)), hnone]

namespace RecordReader

variable {s : Snapshot}

theorem reads_succ_of_ok {n : Nat} {r r' : RecordReader} {a : Attribute}
    (h : next s r = .ok a r') : (reads s (n + 1) r).1 = .ok a :: (reads s n r').1 := by
  rw [reads, h]

theorem reads_succ_of_error {n : Nat} {r r' : RecordReader} {e : Error}
    (h : next s r = .error e r') : (reads s (n + 1) r).1 = .error e :: (reads s n r').1 := by
  rw [reads, h]

theorem readUpTo_succ_of_ok {n : Nat} {r r' : RecordReader} {a : Attribute}
    (h : next s r = .ok a r') :
    readUpTo s (n + 1) r = (a :: (readUpTo s n r').1, (readUpTo s n r').2) := by
  rw [readUpTo, h]

theorem readUpTo_succ_of_error {n : Nat} {r r' : RecordReader} {e : Error}
    (h : next s r = .error e r') : readUpTo s (n + 1) r = ([], some e) := by
  rw [readUpTo, h]

/-- What the first `n` of successive reads give up to the first failure, told from their results. -/
inductive Stops (s : Snapshot) (n : Nat) (r : RecordReader) : List Attribute → Option Error → Prop
  | complete {as : List Attribute} : as.length = n → (reads s as.length r).1 = as.map .ok →
      Stops s n r as none
  | failed {as : List Attribute} {e : Error} : as.length < n →
      (reads s (as.length + 1) r).1 = as.map .ok ++ [.error e] → Stops s n r as (some e)

theorem Stops.cons {n : Nat} {r r' : RecordReader} {a : Attribute} {as : List Attribute}
    {failure : Option Error} (ha : next s r = .ok a r') (h : Stops s n r' as failure) :
    Stops s (n + 1) r (a :: as) failure := by
  cases h with
  | complete hlength hreads =>
    refine .complete (congrArg (· + 1) hlength) ?_
    rw [List.length_cons, reads_succ_of_ok ha, hreads, List.map_cons]
  | failed hlength hreads =>
    refine .failed (Nat.succ_lt_succ hlength) ?_
    rw [List.length_cons, reads_succ_of_ok ha, hreads, List.map_cons, List.cons_append]

theorem stops_readUpTo (n : Nat) (r : RecordReader) :
    Stops s n r (readUpTo s n r).1 (readUpTo s n r).2 := by
  induction n generalizing r with
  | zero => exact .complete rfl rfl
  | succ n ih =>
    cases hnext : next s r with
    | error e r' =>
      rw [readUpTo_succ_of_error hnext]
      exact .failed (Nat.succ_pos n) (reads_succ_of_error hnext)
    | ok a r' =>
      rw [readUpTo_succ_of_ok hnext]
      exact (ih r').cons hnext

theorem Stops.eq_readUpTo {n : Nat} {r : RecordReader} {as : List Attribute}
    {failure : Option Error} (h : Stops s n r as failure) : (as, failure) = readUpTo s n r := by
  induction n generalizing r as with
  | zero =>
    cases h with
    | complete hlength hreads =>
      obtain rfl := List.length_eq_zero_iff.1 hlength
      rfl
    | failed hlength hreads => omega
  | succ n ih =>
    cases hnext : next s r with
    | error e r' =>
      rw [readUpTo_succ_of_error hnext]
      cases h with
      | complete hlength hreads =>
        rw [hlength, reads_succ_of_error hnext] at hreads
        cases as <;> simp at hreads
      | failed hlength hreads =>
        rw [reads_succ_of_error hnext] at hreads
        cases as with
        | nil => simpa [reads, eq_comm] using hreads
        | cons a as => simp at hreads
    | ok a r' =>
      rw [readUpTo_succ_of_ok hnext]
      cases as with
      | nil =>
        cases h with
        | complete hlength hreads => cases hlength
        | failed hlength hreads =>
          rw [reads_succ_of_ok hnext] at hreads
          simp at hreads
      | cons b as =>
        have hrest : b = a ∧ Stops s n r' as failure := by
          cases h with
          | complete hlength hreads =>
            rw [List.length_cons, reads_succ_of_ok hnext, List.map_cons] at hreads
            obtain ⟨hab, hreads⟩ := List.cons.inj hreads
            exact ⟨(Except.ok.inj hab).symm, .complete (Nat.succ.inj hlength) hreads⟩
          | failed hlength hreads =>
            rw [List.length_cons, reads_succ_of_ok hnext, List.map_cons, List.cons_append]
              at hreads
            obtain ⟨hab, hreads⟩ := List.cons.inj hreads
            exact ⟨(Except.ok.inj hab).symm, .failed (Nat.lt_of_succ_lt_succ hlength) hreads⟩
        obtain ⟨rfl, hstops⟩ := hrest
        rw [← ih hstops]

end RecordReader

namespace AttributeScheme

variable {s : Snapshot} {i : Nat}

inductive RangeData (s : Snapshot) (i : Nat) : Except Error ByteArray → Prop
  | noStart : s.attributeDataRanges.size ≤ i →
      RangeData s i (.error (.dangling .attributeDataRanges (min i greatestPosition)))
  | noStop {start : AttributeDataRange} : s.attributeDataRanges[i]? = some start →
      s.attributeDataRanges.size ≤ i + 1 →
      RangeData s i (.error (.dangling .attributeDataRanges (min (i + 1 : Nat) greatestPosition)))
  | inverted {start stop : AttributeDataRange} : s.attributeDataRanges[i]? = some start →
      s.attributeDataRanges[i + 1]? = some stop → stop.startOffset < start.startOffset →
      RangeData s i (.error (.malformed (.invertedRange start.startOffset stop.startOffset)))
  | outOfSection {start stop : AttributeDataRange} : s.attributeDataRanges[i]? = some start →
      s.attributeDataRanges[i + 1]? = some stop → start.startOffset ≤ stop.startOffset →
      s.attributeData.size < stop.startOffset.toNat →
        RangeData s i (.error (.outOfBounds .attributeData))
  | inSection {start stop : AttributeDataRange} : s.attributeDataRanges[i]? = some start →
      s.attributeDataRanges[i + 1]? = some stop → start.startOffset ≤ stop.startOffset →
      stop.startOffset.toNat ≤ s.attributeData.size → RangeData s i
        (.ok (s.attributeData.extract start.startOffset.toNat stop.startOffset.toNat))

theorem rangeData_of_ends {start stop : AttributeDataRange}
    (hstart : s.attributeDataRanges[i]? = some start)
    (hstop : s.attributeDataRanges[i + 1]? = some stop) :
    rangeData s i = s.attributeDataSlice start.startOffset stop.startOffset := by
  unfold rangeData Snapshot.attributeDataOffset
  rw [lookup_of_getElem? hstart, lookup_of_getElem? hstop]
  rfl

theorem RangeData.eq {result : Except Error ByteArray} (h : RangeData s i result) :
    rangeData s i = result := by
  cases h with
  | noStart hstart =>
    unfold rangeData Snapshot.attributeDataOffset
    rw [lookup_of_size_le hstart]
    rfl
  | noStop hstart hstop =>
    unfold rangeData Snapshot.attributeDataOffset
    rw [lookup_of_getElem? hstart, lookup_of_size_le hstop]
    rfl
  | inverted hstart hstop hlt =>
    rw [rangeData_of_ends hstart hstop, Snapshot.attributeDataSlice, if_pos hlt]
  | outOfSection hstart hstop hle hsize =>
    rw [rangeData_of_ends hstart hstop, Snapshot.attributeDataSlice,
      if_neg (UInt32.not_lt.2 hle), if_pos hsize]
  | inSection hstart hstop hle hsize =>
    rw [rangeData_of_ends hstart hstop, Snapshot.attributeDataSlice,
      if_neg (UInt32.not_lt.2 hle), if_neg (Nat.not_lt.2 hsize)]

theorem exists_rangeData (s : Snapshot) (i : Nat) : ∃ result, RangeData s i result := by
  cases hstart : s.attributeDataRanges[i]? with
  | none => exact ⟨_, .noStart (Array.getElem?_eq_none_iff.1 hstart)⟩
  | some start =>
    cases hstop : s.attributeDataRanges[i + 1]? with
    | none => exact ⟨_, .noStop hstart (Array.getElem?_eq_none_iff.1 hstop)⟩
    | some stop =>
      by_cases hlt : stop.startOffset < start.startOffset
      · exact ⟨_, .inverted hstart hstop hlt⟩
      · have hle := UInt32.not_lt.1 hlt
        by_cases hsize : s.attributeData.size < stop.startOffset.toNat
        · exact ⟨_, .outOfSection hstart hstop hle hsize⟩
        · exact ⟨_, .inSection hstart hstop hle (Nat.not_lt.1 hsize)⟩

/-- The attributes in front of the first failure, and this failure: the data are not there, their
header is not readable, or a record is not. -/
inductive RangeReads (s : Snapshot) (i : Nat) : List Attribute → Option Error → Prop
  | noData {e : Error} : RangeData s i (.error e) → RangeReads s i [] (some e)
  | empty {bytes : ByteArray} : RangeData s i (.ok bytes) → bytes.size = 0 → RangeReads s i [] none
  | badHeader {bytes : ByteArray} {e : Error} : RangeData s i (.ok bytes) → bytes.size ≠ 0 →
      RecordReader.ofBytes bytes = .error e → RangeReads s i [] (some e)
  | records {bytes : ByteArray} {r : RecordReader} {as : List Attribute}
      {failure : Option Error} : RangeData s i (.ok bytes) → bytes.size ≠ 0 →
      RecordReader.ofBytes bytes = .ok r → r.Stops s r.count.toNat as failure →
      RangeReads s i as failure

theorem isEmpty_iff {bytes : ByteArray} : bytes.isEmpty = true ↔ bytes.size = 0 :=
  beq_iff_eq

theorem RangeReads.eq_rangeAttributes {as : List Attribute} {failure : Option Error}
    (h : RangeReads s i as failure) : (as, failure) = rangeAttributes s i := by
  cases h with
  | noData hdata => rw [rangeAttributes, hdata.eq]
  | empty hdata hsize =>
    rw [rangeAttributes, hdata.eq]
    dsimp only
    rw [if_pos (isEmpty_iff.2 hsize)]
  | badHeader hdata hsize hheader =>
    rw [rangeAttributes, hdata.eq]
    dsimp only
    rw [if_neg (mt isEmpty_iff.1 hsize), hheader]
  | records hdata hsize hheader hstops =>
    rw [rangeAttributes, hdata.eq]
    dsimp only
    rw [if_neg (mt isEmpty_iff.1 hsize), hheader]
    exact hstops.eq_readUpTo

theorem rangeReads_rangeAttributes (s : Snapshot) (i : Nat) :
    RangeReads s i (rangeAttributes s i).1 (rangeAttributes s i).2 := by
  obtain ⟨result, hdata⟩ := exists_rangeData s i
  rw [rangeAttributes, hdata.eq]
  cases result with
  | error e => exact .noData hdata
  | ok bytes =>
    dsimp only
    by_cases hsize : bytes.size = 0
    · rw [if_pos (isEmpty_iff.2 hsize)]
      exact .empty hdata hsize
    · rw [if_neg (mt isEmpty_iff.1 hsize)]
      cases hheader : RecordReader.ofBytes bytes with
      | error e => exact .badHeader hdata hsize hheader
      | ok r => exact .records hdata hsize hheader (RecordReader.stops_readUpTo r.count.toNat r)

theorem rangeReads_iff {as : List Attribute} {failure : Option Error} :
    RangeReads s i as failure ↔ (as, failure) = rangeAttributes s i := by
  constructor
  · exact RangeReads.eq_rangeAttributes
  · intro h
    have hreads := rangeReads_rangeAttributes s i
    rwa [← h] at hreads

end AttributeScheme

end MetadataDump
