import MetadataDump.Proofs.Snapshot.Lookup

namespace MetadataDump

section Positions

variable {κ α : Type} [Ord κ] [Std.TransOrd κ] [Std.LawfulEqOrd κ] [DecidableEq κ] {key : α → κ}

theorem getD_foldr_addPosition (entries : List (α × Nat)) (k : κ) :
    (entries.foldr (addPosition key) ∅).getD k [] =
      (entries.filter (key ·.1 = k)).map Prod.snd := by
  induction entries with
  | nil => exact Std.ExtTreeMap.getD_empty
  | cons entry entries ih =>
    rw [List.foldr_cons, addPosition, Std.ExtTreeMap.getD_insert]
    by_cases h : key entry.1 = k
    · rw [if_pos (Std.compare_eq_iff_eq.2 h), h, ih, List.filter_cons_of_pos (by simpa using h),
        List.map_cons]
    · rw [if_neg (mt Std.compare_eq_iff_eq.1 h), ih, List.filter_cons_of_neg (by simpa using h)]

/-- Under a key are the positions of the rows that a scan for the key finds, side by side. -/
theorem exists_entries_positionsBy (key : α → κ) (rows : Array α) (k : κ) :
    ∃ entries : List (α × Nat), (positionsBy key rows).getD k [] = entries.map Prod.snd ∧
      rows.toList.filter (key · = k) = entries.map Prod.fst ∧
      ∀ entry ∈ entries, rows[entry.2]? = some entry.1 := by
  refine ⟨rows.toList.zipIdx.filter (key ·.1 = k), getD_foldr_addPosition _ k, ?_,
    fun entry hentry ↦ ?_⟩
  · conv_lhs => rw [← List.zipIdx_map_fst 0 rows.toList, List.filter_map]
    rfl
  · rw [← Array.getElem?_toList]
    exact List.mem_zipIdx_iff_getElem?.1 (List.mem_of_mem_filter hentry)

theorem mapM_lookup_positionsBy (table : Table) (rows : Array α) (k : κ) :
    ((positionsBy key rows).getD k []).mapM (fun i : Nat ↦ lookup table rows i) =
      .ok (rows.toList.filter (key · = k)) := by
  obtain ⟨entries, hpositions, hscan, hrows⟩ := exists_entries_positionsBy key rows k
  rw [mapM_eq_ok_iff, hpositions, hscan, List.map_map, List.map_map]
  refine List.map_congr_left fun entry hentry ↦ ?_
  exact lookup_eq_ok_iff.2 ⟨Int.natCast_nonneg entry.2, hrows entry hentry⟩

theorem filterMap_getElem?_positionsBy (rows : Array α) (k : κ) :
    ((positionsBy key rows).getD k []).filterMap (rows[·]?) =
      rows.toList.filter (key · = k) := by
  obtain ⟨entries, hpositions, hscan, hrows⟩ := exists_entries_positionsBy key rows k
  rw [hpositions, hscan, List.filterMap_map, ← List.filterMap_eq_map]
  exact List.filterMap_congr hrows

end Positions

end MetadataDump
