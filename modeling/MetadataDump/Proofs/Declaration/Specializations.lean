import MetadataDump.Proofs.Declaration.Groups
import MetadataDump.Proofs.Snapshot.Positions

namespace MetadataDump

theorem perm_flatMap_filter {α κ : Type} [DecidableEq κ] {key : α → κ} {keys : List κ}
    (hkeys : keys.Nodup) {as : List α} (has : ∀ a ∈ as, key a ∈ keys) :
    (keys.flatMap fun k ↦ as.filter (key · = k)).Perm as := by
  induction keys generalizing as with
  | nil =>
    obtain rfl := List.eq_nil_iff_forall_not_mem.2 fun a ha ↦ List.not_mem_nil (has a ha)
    exact .nil
  | cons k keys ih =>
    obtain ⟨hk, hkeys⟩ := List.nodup_cons.1 hkeys
    have hrest : ∀ a ∈ as.filter (fun a ↦ !decide (key a = k)), key a ∈ keys := by
      intro a ha
      obtain ⟨ha, hne⟩ := List.mem_filter.1 ha
      exact (List.mem_cons.1 (has a ha)).resolve_left (by simpa using hne)
    have htail : (keys.flatMap fun k' ↦ as.filter (key · = k')) =
        keys.flatMap fun k' ↦ (as.filter (fun a ↦ !decide (key a = k))).filter (key · = k') := by
      refine List.flatMap_congr fun k' hk' ↦ ?_
      rw [List.filter_filter]
      refine List.filter_congr fun a _ ↦ ?_
      by_cases h : key a = k'
      · have hne : key a ≠ k := by
          rintro rfl
          exact hk (h ▸ hk')
        rw [decide_eq_true h, decide_eq_false hne]
        rfl
      · rw [decide_eq_false h]
        rfl
    rw [List.flatMap_cons, htail]
    exact ((ih hkeys hrest).append_left _).trans (List.filter_append_perm _ as)

namespace GenericGroup

variable {s : Snapshot} {rows : List MethodSpec} {groups : List GenericGroup}

def instancesOf (rows : List MethodSpec) (p : UInt64) : List Instantiation :=
  (rows.filter (·.pointer = p)).map MethodSpec.instantiation

theorem instancesOf_concat (rows : List MethodSpec) (spec : MethodSpec) (p : UInt64) :
    instancesOf (rows ++ [spec]) p =
      instancesOf rows p ++ if spec.pointer = p then [spec.instantiation] else [] := by
  rw [instancesOf, List.filter_append, List.map_append, ← instancesOf]
  by_cases h : spec.pointer = p <;> simp [h]

theorem instancesOf_eq_nil {p : UInt64} (h : p ∉ rows.map MethodSpec.pointer) :
    instancesOf rows p = [] := by
  rw [instancesOf, List.map_eq_nil_iff, List.filter_eq_nil_iff]
  intro spec hspec he
  exact h (List.mem_map.2 ⟨spec, hspec, of_decide_eq_true he⟩)

/-- Groups that hold all of some specializations: one group for each pointer, in the order in which
the pointers are first met, with all specializations that have it in their own order. -/
structure GroupedFrom (s : Snapshot) (rows : List MethodSpec) (groups : List GenericGroup) : Prop
    extends Grouped s groups where
  mem_pointers : ∀ p, p ∈ groups.map pointer ↔ p ∈ rows.map MethodSpec.pointer
  firstMet : (groups.map pointer).Pairwise fun p q ↦
    (rows.map MethodSpec.pointer).idxOf p < (rows.map MethodSpec.pointer).idxOf q
  instances : ∀ g ∈ groups, g.instances = instancesOf rows g.pointer

theorem pointers_add (spec : MethodSpec) : (add s spec groups).map pointer =
    if spec.pointer ∈ groups.map pointer then groups.map pointer
    else groups.map pointer ++ [spec.pointer] := by
  induction groups with
  | nil => rfl
  | cons g groups ih =>
    unfold add
    by_cases hg : g.pointer = spec.pointer
    · simp [hg]
    · rw [if_neg hg, List.map_cons, ih, List.map_cons]
      by_cases hmem : spec.pointer ∈ groups.map pointer
      · rw [if_pos hmem, if_pos (List.mem_cons_of_mem _ hmem)]
      · rw [if_neg hmem, if_neg fun h ↦ hmem ((List.mem_cons.1 h).resolve_left (Ne.symm hg)),
          List.cons_append]

theorem firstMet_add (hmem : ∀ p, p ∈ groups.map pointer ↔ p ∈ rows.map MethodSpec.pointer)
    (h : (groups.map pointer).Pairwise fun p q ↦
      (rows.map MethodSpec.pointer).idxOf p < (rows.map MethodSpec.pointer).idxOf q)
    (spec : MethodSpec) : ((add s spec groups).map pointer).Pairwise fun p q ↦
      ((rows ++ [spec]).map MethodSpec.pointer).idxOf p <
        ((rows ++ [spec]).map MethodSpec.pointer).idxOf q := by
  rw [List.map_append, List.map_singleton]
  have hidx : ∀ p ∈ groups.map pointer, (rows.map MethodSpec.pointer ++ [spec.pointer]).idxOf p =
      (rows.map MethodSpec.pointer).idxOf p :=
    fun p hp ↦ List.idxOf_append_of_mem ((hmem p).1 hp)
  have hold : (groups.map pointer).Pairwise fun p q ↦
      (rows.map MethodSpec.pointer ++ [spec.pointer]).idxOf p <
        (rows.map MethodSpec.pointer ++ [spec.pointer]).idxOf q :=
    h.imp_of_mem fun hp hq hlt ↦ by rwa [hidx _ hp, hidx _ hq]
  rw [pointers_add]
  split
  · exact hold
  · rename_i hnew
    refine List.pairwise_append.2 ⟨hold, List.pairwise_singleton _ _, fun p hp q hq ↦ ?_⟩
    obtain rfl := List.mem_singleton.1 hq
    rw [hidx p hp, List.idxOf_append_of_notMem (mt (hmem _).2 hnew)]
    exact Nat.lt_add_right _ (List.idxOf_lt_length_of_mem ((hmem p).1 hp))

theorem instances_add (hdistinct : (groups.map pointer).Nodup)
    (h : ∀ g ∈ groups, g.instances = instancesOf rows g.pointer) {spec : MethodSpec}
    (hnew : spec.pointer ∉ groups.map pointer → spec.pointer ∉ rows.map MethodSpec.pointer) :
    ∀ g ∈ add s spec groups, g.instances = instancesOf (rows ++ [spec]) g.pointer := by
  have hother : ∀ g : GenericGroup, g.pointer ≠ spec.pointer →
      g.instances = instancesOf rows g.pointer →
        g.instances = instancesOf (rows ++ [spec]) g.pointer := by
    intro g hne hg
    rw [instancesOf_concat, if_neg (Ne.symm hne), List.append_nil, hg]
  induction groups with
  | nil =>
    refine List.forall_mem_singleton.2 ?_
    rw [instancesOf_concat, instancesOf_eq_nil (hnew List.not_mem_nil), if_pos rfl, List.nil_append]
  | cons g groups ih =>
    obtain ⟨hg, hgroups⟩ := List.forall_mem_cons.1 h
    obtain ⟨hfresh, hdistinct⟩ := List.nodup_cons.1 hdistinct
    unfold add
    by_cases hp : g.pointer = spec.pointer
    · rw [if_pos hp]
      refine List.forall_mem_cons.2 ⟨?_, fun g' hg' ↦ hother g' ?_ (hgroups g' hg')⟩
      · rw [instancesOf_concat, if_pos hp.symm, hg]
      · rintro hp'
        exact hfresh (List.mem_map.2 ⟨g', hg', hp'.trans hp.symm⟩)
    · rw [if_neg hp]
      refine List.forall_mem_cons.2 ⟨hother g hp hg, ih hdistinct hgroups fun hmem ↦ hnew ?_⟩
      rw [List.map_cons, List.mem_cons, not_or]
      exact ⟨Ne.symm hp, hmem⟩

theorem GroupedFrom.add (h : GroupedFrom s rows groups) (spec : MethodSpec) :
    GroupedFrom s (rows ++ [spec]) (GenericGroup.add s spec groups) where
  toGrouped := h.toGrouped.add spec
  mem_pointers p := by
    rw [mem_pointers_add, h.mem_pointers, List.map_append, List.mem_append, List.map_singleton,
      List.mem_singleton]
  firstMet := firstMet_add h.mem_pointers h.firstMet spec
  instances := instances_add h.distinct h.instances (mt (h.mem_pointers _).2)

theorem groupedFrom_ofSpecs (s : Snapshot) (rows : List MethodSpec) :
    GroupedFrom s rows (ofSpecs s rows) := by
  induction rows using List.reverseRecOn with
  | nil => exact ⟨grouped_ofSpecs s [], fun p ↦ Iff.rfl, .nil, List.forall_mem_nil _⟩
  | append_singleton rows spec ih =>
    rw [ofSpecs, List.foldl_concat]
    exact ih.add spec

theorem map_pointer_ofSpecs (s : Snapshot) (rows : List MethodSpec) :
    (ofSpecs s rows).map pointer = (rows.map MethodSpec.pointer).eraseDups := by
  induction rows using List.reverseRecOn with
  | nil => rfl
  | append_singleton rows spec ih =>
    have hmem : spec.pointer ∈ (ofSpecs s rows).map pointer ↔
        spec.pointer ∈ rows.map MethodSpec.pointer := (groupedFrom_ofSpecs s rows).mem_pointers _
    have hpointers : (add s spec (ofSpecs s rows)).map pointer = _ := pointers_add spec
    rw [if_congr hmem rfl rfl, ih] at hpointers
    rw [ofSpecs, List.foldl_concat, ← ofSpecs, hpointers, List.map_append, List.map_singleton,
      List.eraseDups_append]
    generalize rows.map MethodSpec.pointer = pointers
    by_cases hold : spec.pointer ∈ pointers <;> simp [List.removeAll, hold, List.eraseDups_cons]

theorem idxOf?_concat {as : List UInt64} {a b : UInt64} (h : a ∉ as) :
    (as ++ [a]).idxOf? b = if a = b then some as.length else as.idxOf? b := by
  induction as with
  | nil => simp [List.idxOf?_cons]
  | cons c as ih =>
    rw [List.mem_cons, not_or] at h
    rw [List.cons_append, List.idxOf?_cons, List.idxOf?_cons, ih h.2]
    by_cases hc : c = b
    · subst hc
      simp [h.1]
    · by_cases ha : a = b <;> simp [hc, ha]

/-- Groups in the order in which they were made, and where the group of each pointer stands. -/
structure Positioned where
  groups : List GenericGroup
  positions : Std.ExtTreeMap UInt64 Nat

namespace Positioned

def empty : Positioned := ⟨[], ∅⟩

/-- Adds a specialization where the position of its pointer tells, or a new group behind the
others, whose position is noted. -/
def add (s : Snapshot) (pointer : UInt64) (i : Instantiation) (g : Positioned) : Positioned :=
  match g.positions[pointer]? with
  | some position =>
    { g with groups := g.groups.modify position fun group ↦
        { group with instances := group.instances ++ [i] } }
  | none =>
    { groups := g.groups ++ [⟨pointer, s.address? pointer, [i]⟩]
      positions := g.positions.insert pointer g.groups.length }

def Coherent (g : Positioned) : Prop :=
  ∀ p, g.positions[p]? = (g.groups.map pointer).idxOf? p

theorem map_pointer_modify (gs : List GenericGroup) (k : Nat) (i : Instantiation) :
    (gs.modify k fun group ↦ { group with instances := group.instances ++ [i] }).map pointer =
      gs.map pointer := by
  induction gs generalizing k with
  | nil => rw [List.modify_nil]
  | cons g gs ih =>
    cases k with
    | zero => rfl
    | succ k => rw [List.modify_succ_cons, List.map_cons, List.map_cons, ih]

theorem add_eq_modify {gs : List GenericGroup} {spec : MethodSpec} {k : Nat}
    (h : (gs.map pointer).idxOf? spec.pointer = some k) : GenericGroup.add s spec gs =
      gs.modify k fun group ↦ { group with instances := group.instances ++ [spec.instantiation] } := by
  induction gs generalizing k with
  | nil => cases h
  | cons g gs ih =>
    rw [List.map_cons, List.idxOf?_cons] at h
    unfold GenericGroup.add
    by_cases hp : g.pointer = spec.pointer
    · rw [if_pos (by simpa using hp)] at h
      obtain rfl := Option.some.inj h
      rw [if_pos hp, List.modify_zero_cons]
    · rw [if_neg (by simpa using hp)] at h
      obtain ⟨k', hk', rfl⟩ := Option.map_eq_some_iff.1 h
      rw [if_neg hp, ih hk', List.modify_succ_cons]

theorem add_eq_append {gs : List GenericGroup} {spec : MethodSpec}
    (h : spec.pointer ∉ gs.map pointer) : GenericGroup.add s spec gs =
      gs ++ [⟨spec.pointer, s.address? spec.pointer, [spec.instantiation]⟩] := by
  induction gs with
  | nil => rfl
  | cons g gs ih =>
    rw [List.map_cons, List.mem_cons, not_or] at h
    rw [GenericGroup.add, if_neg (Ne.symm h.1), ih h.2, List.cons_append]

/-- One step: the position and the search lead to the same group, and stay coherent. -/
theorem Coherent.add {g : Positioned} (h : g.Coherent) (spec : MethodSpec) :
    (g.add s spec.pointer spec.instantiation).Coherent ∧
      (g.add s spec.pointer spec.instantiation).groups = GenericGroup.add s spec g.groups := by
  have hspec := h spec.pointer
  cases hposition : g.positions[spec.pointer]? with
  | some k =>
    rw [hposition] at hspec
    simp only [Positioned.add, hposition]
    refine ⟨fun p ↦ ?_, (add_eq_modify hspec.symm).symm⟩
    rw [map_pointer_modify]
    exact h p
  | none =>
    rw [hposition] at hspec
    have hnew : spec.pointer ∉ g.groups.map pointer := List.idxOf?_eq_none_iff.1 hspec.symm
    simp only [Positioned.add, hposition]
    refine ⟨fun p ↦ ?_, (add_eq_append hnew).symm⟩
    rw [Std.ExtTreeMap.getElem?_insert, List.map_append, h p, List.map_singleton,
      idxOf?_concat hnew, List.length_map]
    simp only [Std.compare_eq_iff_eq]

theorem coherent_empty : empty.Coherent := fun _ ↦ Std.ExtTreeMap.getElem?_empty

theorem Coherent.groups_foldl {g : Positioned} (h : g.Coherent) (specs : List MethodSpec) :
    (specs.foldl (fun g spec ↦ g.add s spec.pointer spec.instantiation) g).groups =
      specs.foldl (fun groups spec ↦ GenericGroup.add s spec groups) g.groups := by
  induction specs generalizing g with
  | nil => rfl
  | cons spec specs ih =>
    obtain ⟨hcoherent, hgroups⟩ := h.add spec
    rw [List.foldl_cons, List.foldl_cons, ih hcoherent, hgroups]

end Positioned

def shownRows (method : UInt64) (g : GenericGroup) : List MethodSpec :=
  g.instances.map fun i ↦ ⟨method, i.typeName, i.methodName, g.pointer⟩

theorem GroupedFrom.perm (h : GroupedFrom s rows groups) {method : UInt64}
    (hmethod : ∀ spec ∈ rows, spec.method = method) :
    (groups.flatMap (shownRows method)).Perm rows := by
  have hshown : ∀ g ∈ groups, shownRows method g = rows.filter (·.pointer = g.pointer) := by
    intro g hg
    rw [shownRows, h.instances g hg, instancesOf, List.map_map]
    refine (List.map_congr_left fun spec hspec ↦ ?_).trans (List.map_id _)
    obtain ⟨hspec, hp⟩ := List.mem_filter.1 hspec
    obtain rfl := hmethod spec hspec
    rw [id, Function.comp_apply, ← of_decide_eq_true hp]
    rfl
  have hpointers : groups.flatMap (shownRows method) =
      (groups.map pointer).flatMap fun p ↦ rows.filter (·.pointer = p) := by
    rw [List.flatMap_map]
    exact List.flatMap_congr hshown
  rw [hpointers]
  exact perm_flatMap_filter h.distinct fun spec hspec ↦
    (h.mem_pointers _).2 (List.mem_map_of_mem hspec)

end GenericGroup

namespace Metadata

open GenericGroup

variable (m : Metadata)

def specRows (method : Nat) : List MethodSpec :=
  m.methodSpecs.toList.filter (·.method.toNat = method)

theorem filterMap_specsOf (method : Nat) :
    (m.specsOf method).filterMap (m.methodSpecs[·]?) = m.specRows method := by
  rw [specsOf, m.index_eq]
  exact filterMap_getElem?_positionsBy m.methodSpecs method

theorem groupedFrom_specRows (method : Nat) :
    GroupedFrom m.toSnapshot (m.specRows method) (m.genericGroups method) := by
  rw [genericGroups, filterMap_specsOf]
  exact groupedFrom_ofSpecs _ _

theorem map_pointer_genericGroups (method : Nat) :
    (m.genericGroups method).map pointer =
      ((m.specRows method).map MethodSpec.pointer).eraseDups := by
  rw [genericGroups, m.filterMap_specsOf]
  exact map_pointer_ofSpecs _ _

theorem mapM_lookup_specsOf (method : Nat) :
    (m.specsOf method).mapM (fun i : Nat ↦ lookup .methodSpecs m.methodSpecs i) =
      .ok (m.specRows method) := by
  rw [specsOf, m.index_eq]
  exact mapM_lookup_positionsBy .methodSpecs m.methodSpecs method

/-- Looks a specialization up and puts it where the position of its pointer tells. The pointer is 0
if there is no specialization. -/
def groupSpec (g : Positioned) (i : Nat) : Except Error Positioned := do
  let pointer := (m.methodSpecs[i]?).elim 0 MethodSpec.pointer
  let spec ← lookup .methodSpecs m.methodSpecs i
  return g.add m.toSnapshot pointer spec.instantiation

/-- The groups of a method, made with positions and with lookups that may fail. -/
def groupSpecs (method : Nat) : Except Error (List GenericGroup) :=
  Positioned.groups <$> (m.specsOf method).foldlM m.groupSpec .empty

theorem groupSpec_of_lookup {g : Positioned} {i : Nat} {spec : MethodSpec}
    (h : lookup .methodSpecs m.methodSpecs i = .ok spec) :
    m.groupSpec g i = .ok (g.add m.toSnapshot spec.pointer spec.instantiation) := by
  obtain ⟨-, hrow⟩ := lookup_eq_ok_iff.1 h
  rw [Int.toNat_natCast] at hrow
  rw [groupSpec, h, hrow]
  rfl

theorem foldlM_groupSpec {is : List Nat} {specs : List MethodSpec}
    (h : is.mapM (fun i : Nat ↦ lookup .methodSpecs m.methodSpecs i) = .ok specs)
    (g : Positioned) : is.foldlM m.groupSpec g =
      .ok (specs.foldl (fun g spec ↦ g.add m.toSnapshot spec.pointer spec.instantiation) g) := by
  induction is generalizing specs g with
  | nil =>
    obtain rfl := Except.ok.inj h
    rfl
  | cons i is ih =>
    rw [List.mapM_cons, bind_eq_ok_iff] at h
    obtain ⟨spec, hspec, htail⟩ := h
    obtain ⟨rest, hrest, hspecs⟩ := bind_eq_ok_iff.1 htail
    obtain rfl := Except.ok.inj hspecs
    rw [List.foldlM_cons, m.groupSpec_of_lookup hspec]
    exact ih hrest _

theorem groupSpecs_eq (method : Nat) : m.groupSpecs method = .ok (m.genericGroups method) := by
  rw [groupSpecs, m.foldlM_groupSpec (m.mapM_lookup_specsOf method), genericGroups,
    m.filterMap_specsOf]
  exact congrArg Except.ok (Positioned.coherent_empty.groups_foldl _)

theorem perm_shownRows (method : Nat) :
    ((m.genericGroups method).flatMap (shownRows (.ofNat method))).Perm (m.specRows method) := by
  refine (m.groupedFrom_specRows method).perm fun spec hspec ↦ ?_
  obtain ⟨-, hmethod⟩ := List.mem_filter.1 hspec
  rw [← of_decide_eq_true hmethod, UInt64.ofNat_toNat]

/-- Every specialization of a method is looked up in the table and shown in the group of its
pointer, also if groups are found by noted positions; and over all methods each row of the table is
shown exactly once. -/
theorem groupedFrom_genericGroups :
    (∀ method, (m.specsOf method).mapM (fun i : Nat ↦ lookup .methodSpecs m.methodSpecs i) =
        .ok (m.specRows method) ∧
      m.groupSpecs method = .ok (m.genericGroups method) ∧
      GroupedFrom m.toSnapshot (m.specRows method) (m.genericGroups method)) ∧
    ((List.range UInt64.size).flatMap fun method ↦
      (m.genericGroups method).flatMap (shownRows (.ofNat method))).Perm
        m.methodSpecs.toList := by
  constructor
  · exact fun method ↦
      ⟨m.mapM_lookup_specsOf method, m.groupSpecs_eq method, m.groupedFrom_specRows method⟩
  · have hrows : ((List.range UInt64.size).flatMap m.specRows).Perm m.methodSpecs.toList :=
      perm_flatMap_filter List.nodup_range fun spec _ ↦
        List.mem_range.2 spec.method.toNat_lt
    exact (List.Perm.flatMap_left _ fun method _ ↦ m.perm_shownRows method).trans hrows

end Metadata

end MetadataDump
