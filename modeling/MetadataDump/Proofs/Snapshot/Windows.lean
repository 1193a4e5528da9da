import MetadataDump.Proofs.Snapshot.Positions

namespace MetadataDump

section Positions

variable {κ α : Type} [Ord κ] [Std.TransOrd κ] [Std.LawfulEqOrd κ] [DecidableEq κ] {key : α → κ}

theorem mem_positionsBy_iff (rows : Array α) (k : κ) (i : Nat) :
    i ∈ (positionsBy key rows).getD k [] ↔ (rows.map key)[i]? = some k := by
  rw [positionsBy, getD_foldr_addPosition, List.mem_map, Array.getElem?_map,
    Option.map_eq_some_iff]
  constructor
  · rintro ⟨⟨row, j⟩, hmem, rfl⟩
    obtain ⟨hrow, hkey⟩ := List.mem_filter.1 hmem
    rw [List.mem_zipIdx_iff_getElem?, Array.getElem?_toList] at hrow
    exact ⟨row, hrow, of_decide_eq_true hkey⟩
  · rintro ⟨row, hrow, hkey⟩
    refine ⟨(row, i), List.mem_filter.2 ⟨?_, decide_eq_true hkey⟩, rfl⟩
    rwa [List.mem_zipIdx_iff_getElem?, Array.getElem?_toList]

theorem pairwise_lt_positionsBy (rows : Array α) (k : κ) :
    ((positionsBy key rows).getD k []).Pairwise (· < ·) := by
  have hall : (rows.toList.zipIdx.map Prod.snd).Pairwise (· < ·) := by
    rw [List.zipIdx_map_snd]
    exact List.pairwise_lt_range'
  rw [positionsBy, getD_foldr_addPosition]
  exact hall.sublist (List.filter_sublist.map Prod.snd)

theorem find?_eq_some_iff_isLeast {positions : List Nat} (h : positions.Pairwise (· < ·))
    {p : Nat → Bool} {i : Nat} :
    positions.find? p = some i ↔ IsLeast {j | j ∈ positions ∧ p j} i := by
  induction positions with
  | nil => simp [IsLeast]
  | cons j positions ih =>
    obtain ⟨hj, h⟩ := List.pairwise_cons.1 h
    cases hp : p j with
    | true =>
      have hleast : IsLeast {k | k ∈ j :: positions ∧ p k} j := by
        refine ⟨⟨List.mem_cons_self, hp⟩, fun k hk ↦ ?_⟩
        rcases List.mem_cons.1 hk.1 with rfl | hmem
        · exact le_rfl
        · exact (hj k hmem).le
      rw [List.find?_cons_of_pos hp, Option.some_inj]
      exact ⟨fun hi ↦ hi ▸ hleast, fun hi ↦ hleast.unique hi⟩
    | false =>
      have hset : {k | k ∈ j :: positions ∧ p k} = {k | k ∈ positions ∧ p k} := by
        ext k
        refine and_congr_left fun hk ↦ List.mem_cons.trans (or_iff_right ?_)
        rintro rfl
        exact Bool.false_ne_true (hp.symm.trans hk)
      rw [List.find?_cons_of_neg (by simp [hp]), ih h, hset]

end Positions

namespace Version

def AtLeast (v : Version) (major minor : Nat) : Prop :=
  major < v.major.toNat ∨ v.major.toNat = major ∧ minor ≤ v.minor.toNat

instance (v : Version) (major minor : Nat) : Decidable (v.AtLeast major minor) :=
  inferInstanceAs (Decidable (_ ∨ _))

theorem hasAttributeTokens_iff (v : Version) : v.hasAttributeTokens = true ↔ v.AtLeast 24 1 := by
  have h24 : (24 : UInt32).toNat = 24 := rfl
  have h1 : (1 : UInt32).toNat = 1 := rfl
  rw [hasAttributeTokens, cmp, Ordering.isGE_iff_ne_lt, Ordering.then_eq_lt, Std.compare_eq_lt,
    Std.compare_eq_lt, Std.compare_eq_iff_eq, UInt32.lt_iff_toNat_lt, UInt32.lt_iff_toNat_lt,
    ← UInt32.toNat_inj, h24, h1, AtLeast]
  omega

theorem hasAttributeData_iff (v : Version) : v.hasAttributeData = true ↔ v.AtLeast 29 0 := by
  have h29 : (29 : UInt32).toNat = 29 := rfl
  rw [hasAttributeData, decide_eq_true_iff, UInt32.le_iff_toNat_le, h29, AtLeast]
  omega

end Version

inductive Question
  | specs (method : Nat)
  | attributeIndex (image : ImageRow) (index : Int32) (token : UInt32)
  /-- Any other one, which the tables answer without an index. -/
  | tables

namespace Snapshot

variable (s : Snapshot)

section History

def needsIndex : Question → Bool
  | .specs _ => true
  | .attributeIndex .. => s.version.hasAttributeTokens
  | .tables => false

/-- The index that a question is answered with: the one that is kept, or else a new one. -/
def indexFrom (kept : Option Index) : Index := kept.getD s.buildIndex

def keep (kept : Option Index) (q : Question) : Option Index :=
  if s.needsIndex q then some (s.indexFrom kept) else kept

theorem indexFrom_keep (kept : Option Index) (q : Question) :
    s.indexFrom (s.keep kept q) = s.indexFrom kept := by
  unfold keep
  split
  · rfl
  · rfl

theorem indexFrom_foldl_keep (earlier : List Question) (kept : Option Index) :
    s.indexFrom (earlier.foldl s.keep kept) = s.indexFrom kept := by
  induction earlier generalizing kept with
  | nil => rfl
  | cons q earlier ih => exact (ih (s.keep kept q)).trans (s.indexFrom_keep kept q)

/-- The snapshot after some questions, with the index that the next one is answered with. -/
def after (earlier : List Question) : Metadata where
  toSnapshot := s
  index := s.indexFrom (earlier.foldl s.keep none)
  index_eq := s.indexFrom_foldl_keep earlier none

end History

section Scan

variable (image : ImageRow) (index : Int32) (token : UInt32)

def attributeTokens : Array UInt32 :=
  if s.version.AtLeast 29 0 then s.attributeDataRanges.map AttributeDataRange.token
  else s.attributeTypeRanges.map AttributeTypeRange.token

def attributePositions : Set Nat :=
  {i | image.customAttributeStart.toNat ≤ i ∧
    i < image.customAttributeStart.toNat + image.customAttributeCount.toNat ∧
    s.attributeTokens[i]? = some token}

/-- What a scan of the window finds, or the index that is given if the version has no tokens. -/
structure Scanned (found : Option Nat) : Prop where
  first : s.version.AtLeast 24 1 →
    ∀ i, found = some i ↔ IsLeast (s.attributePositions image token) i
  absent : s.version.AtLeast 24 1 → (found = none ↔ s.attributePositions image token = ∅)
  given : ¬ s.version.AtLeast 24 1 → ∀ i : Nat, found = some i ↔ index.toInt = i

end Scan

end Snapshot

namespace Metadata

variable (m : Metadata) (image : ImageRow) (index : Int32) (token : UInt32)

def positionsOf : List Nat :=
  (if m.version.hasAttributeData then m.index.dataRangesByToken
    else m.index.typeRangesByToken).getD token []

theorem mem_positionsOf_iff (i : Nat) :
    i ∈ m.positionsOf token ↔ m.attributeTokens[i]? = some token := by
  rw [positionsOf, m.index_eq, Snapshot.attributeTokens]
  by_cases h : m.version.AtLeast 29 0
  · rw [if_pos ((Version.hasAttributeData_iff _).2 h), if_pos h]
    exact mem_positionsBy_iff _ _ _
  · rw [if_neg (mt (Version.hasAttributeData_iff _).1 h), if_neg h]
    exact mem_positionsBy_iff _ _ _

theorem pairwise_lt_positionsOf : (m.positionsOf token).Pairwise (· < ·) := by
  rw [positionsOf, m.index_eq]
  split
  · exact pairwise_lt_positionsBy _ _
  · exact pairwise_lt_positionsBy _ _

theorem attributeIndex?_eq_find? (h : m.version.AtLeast 24 1) :
    m.attributeIndex? image index token = (m.positionsOf token).find? fun i ↦
      image.customAttributeStart.toNat ≤ i ∧
        i < image.customAttributeStart.toNat + image.customAttributeCount.toNat :=
  if_pos ((Version.hasAttributeTokens_iff _).2 h)

theorem positionsOf_inWindow :
    {i | i ∈ m.positionsOf token ∧ decide (image.customAttributeStart.toNat ≤ i ∧
      i < image.customAttributeStart.toNat + image.customAttributeCount.toNat)} =
        m.attributePositions image token := by
  ext i
  rw [Set.mem_ofPred_eq, mem_positionsOf_iff, decide_eq_true_iff, and_comm, and_assoc]
  rfl

theorem attributeIndex?_eq_some_iff (h : m.version.AtLeast 24 1) (i : Nat) :
    m.attributeIndex? image index token = some i ↔
      IsLeast (m.attributePositions image token) i := by
  rw [m.attributeIndex?_eq_find? image index token h,
    find?_eq_some_iff_isLeast (m.pairwise_lt_positionsOf token), positionsOf_inWindow]

theorem attributeIndex?_eq_none_iff (h : m.version.AtLeast 24 1) :
    m.attributeIndex? image index token = none ↔ m.attributePositions image token = ∅ := by
  rw [m.attributeIndex?_eq_find? image index token h, List.find?_eq_none, ← positionsOf_inWindow,
    Set.eq_empty_iff_forall_notMem]
  simp only [Set.mem_ofPred_eq, not_and]

theorem attributeIndex?_eq_some_iff_of_not_atLeast (h : ¬ m.version.AtLeast 24 1) (i : Nat) :
    m.attributeIndex? image index token = some i ↔ index.toInt = i := by
  have hsign : index < 0 ↔ index.toInt < 0 := by rw [Int32.lt_iff_toInt_lt, Int32.toInt_zero]
  rw [attributeIndex?, if_neg (mt (Version.hasAttributeTokens_iff _).1 h)]
  by_cases hindex : index < 0
  · have hneg := hsign.1 hindex
    rw [if_pos hindex]
    exact iff_of_false nofun (by omega)
  · have hnonneg := mt hsign.2 hindex
    rw [if_neg hindex, Option.some_inj]
    omega

/-- Whatever a snapshot was asked before, the attribute range that it gives is the one that a scan
finds. -/
theorem scanned_attributeIndex? (s : Snapshot) (earlier : List Question) :
    s.Scanned image index token ((s.after earlier).attributeIndex? image index token) where
  first h := (s.after earlier).attributeIndex?_eq_some_iff image index token h
  absent h := (s.after earlier).attributeIndex?_eq_none_iff image index token h
  given h := (s.after earlier).attributeIndex?_eq_some_iff_of_not_atLeast image index token h

end Metadata

end MetadataDump
