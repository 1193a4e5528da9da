import Mathlib
import MetadataDump.Declaration.Generic

namespace MetadataDump

namespace Address

def orZero (a : Option Address) : Address := a.getD ⟨0, 0, 0⟩

def ofNonzero (a : Address) : Option Address := if a.va = 0 then none else some a

theorem ofNonzero_orZero {a : Option Address} (h : ∀ x ∈ a, x.va ≠ 0) :
    (orZero a).ofNonzero = a := by
  cases a with
  | none => rfl
  | some x => exact if_neg (h x rfl)

end Address

namespace Snapshot

variable (s : Snapshot)

theorem va_ne_zero_of_mem_address? {pointer : UInt64} {a : Address}
    (h : a ∈ s.address? pointer) : a.va ≠ 0 := by
  unfold address? at h
  split at h
  · cases h
  · rename_i hne
    obtain rfl := Option.some.inj h
    exact hne

theorem va_address? (pointer : UInt64) : (Address.orZero (s.address? pointer)).va = pointer := by
  unfold address?
  split
  · rename_i h
    exact h.symm
  · rfl

end Snapshot

namespace GenericGroup

structure Grouped (s : Snapshot) (groups : List GenericGroup) : Prop where
  nonempty : ∀ g ∈ groups, g.instances ≠ []
  address : ∀ g ∈ groups, g.address = s.address? g.pointer
  distinct : (groups.map pointer).Nodup

variable {s : Snapshot} {groups : List GenericGroup} {g : GenericGroup}

theorem mem_pointers_add {spec : MethodSpec} {p : UInt64} :
    p ∈ (add s spec groups).map pointer ↔ p ∈ groups.map pointer ∨ p = spec.pointer := by
  induction groups with
  | nil => simp [add]
  | cons g groups ih =>
    unfold add
    split
    · rename_i hp
      simp only [List.map_cons, List.mem_cons, hp]
      exact ⟨fun h ↦ .inl h, fun h ↦ h.elim id .inl⟩
    · simp only [List.map_cons, List.mem_cons, ih, or_assoc]

theorem Grouped.add (h : Grouped s groups) (spec : MethodSpec) :
    Grouped s (GenericGroup.add s spec groups) := by
  induction groups with
  | nil => refine ⟨?_, ?_, ?_⟩ <;> simp [GenericGroup.add]
  | cons g groups ih =>
    obtain ⟨hne, haddress, hdistinct⟩ := h
    rw [List.forall_mem_cons] at hne haddress
    rw [List.map_cons, List.nodup_cons] at hdistinct
    have htail := ih ⟨hne.2, haddress.2, hdistinct.2⟩
    unfold GenericGroup.add
    split
    · refine ⟨List.forall_mem_cons.2 ⟨by simp, hne.2⟩, List.forall_mem_cons.2 haddress, ?_⟩
      exact List.nodup_cons.2 hdistinct
    · rename_i hp
      refine ⟨List.forall_mem_cons.2 ⟨hne.1, htail.nonempty⟩,
        List.forall_mem_cons.2 ⟨haddress.1, htail.address⟩, ?_⟩
      rw [List.map_cons, List.nodup_cons, mem_pointers_add, not_or]
      exact ⟨⟨hdistinct.1, hp⟩, htail.distinct⟩

theorem grouped_ofSpecs (s : Snapshot) (specs : List MethodSpec) : Grouped s (ofSpecs s specs) := by
  have hfold : ∀ groups, Grouped s groups →
      Grouped s (specs.foldl (fun groups spec ↦ GenericGroup.add s spec groups) groups) := by
    induction specs with
    | nil => exact fun groups h ↦ h
    | cons spec specs ih => exact fun groups h ↦ ih _ (h.add spec)
  exact hfold [] ⟨by simp, by simp, by simp⟩

theorem forall_instances_ofSpecs {p : Instantiation → Prop} {specs : List MethodSpec}
    (h : ∀ spec ∈ specs, p spec.instantiation) :
    ∀ g ∈ ofSpecs s specs, ∀ i ∈ g.instances, p i := by
  have hadd : ∀ spec, p spec.instantiation → ∀ groups : List GenericGroup,
      (∀ g ∈ groups, ∀ i ∈ g.instances, p i) →
        ∀ g ∈ GenericGroup.add s spec groups, ∀ i ∈ g.instances, p i := by
    intro spec hspec groups hgroups
    induction groups with
    | nil => simp [GenericGroup.add, hspec]
    | cons g groups ih =>
      obtain ⟨hg, hrest⟩ := List.forall_mem_cons.1 hgroups
      unfold GenericGroup.add
      split
      · refine List.forall_mem_cons.2 ⟨List.forall_mem_append.2 ⟨hg, ?_⟩, hrest⟩
        exact List.forall_mem_singleton.2 hspec
      · exact List.forall_mem_cons.2 ⟨hg, ih hrest⟩
  unfold ofSpecs
  exact List.foldlRecOn specs _ (List.forall_mem_nil _) fun groups hgroups spec hspec ↦
    hadd spec (h spec hspec) groups hgroups

theorem add_congr {s t : Snapshot} (h : ∀ pointer, s.address? pointer = t.address? pointer)
    (spec : MethodSpec) (groups : List GenericGroup) : add s spec groups = add t spec groups := by
  induction groups with
  | nil => rw [add, add, h]
  | cons g groups ih => rw [add, add, ih]

theorem ofSpecs_congr {s t : Snapshot} (h : ∀ pointer, s.address? pointer = t.address? pointer)
    (specs : List MethodSpec) : ofSpecs s specs = ofSpecs t specs := by
  have hadd : add s = add t := funext fun spec ↦ funext (add_congr h spec)
  rw [ofSpecs, ofSpecs, hadd]

/-- The specializations of a group, each with the address of the group. -/
def entries (g : GenericGroup) : List (Address × Instantiation) :=
  g.instances.map fun i ↦ (Address.orZero g.address, i)

def ofEntries : List (Address × Instantiation) → GenericGroup
  | [] => ⟨0, none, []⟩
  | e :: es => ⟨e.1.va, e.1.ofNonzero, (e :: es).map Prod.snd⟩

/-- Groups of neighbours with the same address. -/
def regroup (es : List (Address × Instantiation)) : List GenericGroup :=
  (es.splitBy fun a b ↦ a.1 = b.1).map ofEntries

theorem fst_of_mem_entries {e : Address × Instantiation} (h : e ∈ g.entries) :
    e.1 = Address.orZero g.address := by
  obtain ⟨i, _, rfl⟩ := List.mem_map.1 h
  rfl

theorem ofEntries_entries (hne : g.instances ≠ []) (ha : g.address = s.address? g.pointer) :
    ofEntries g.entries = g := by
  have hva : (Address.orZero g.address).va = g.pointer := ha ▸ s.va_address? g.pointer
  have haddress : (Address.orZero g.address).ofNonzero = g.address :=
    Address.ofNonzero_orZero fun x hx ↦ s.va_ne_zero_of_mem_address? (ha ▸ hx)
  obtain ⟨pointer, address, instances⟩ := g
  cases instances with
  | nil => exact absurd rfl hne
  | cons i is =>
    have hsnd : (is.map fun i ↦ (Address.orZero address, i)).map Prod.snd = is := by
      rw [List.map_map]
      exact List.map_id is
    simp only [entries, List.map_cons, ofEntries, hsnd, hva, haddress]

theorem Grouped.regroup_entries (h : Grouped s groups) :
    regroup (groups.flatMap entries) = groups := by
  have hnil : [] ∉ groups.map entries := by
    intro hmem
    obtain ⟨g, hg, he⟩ := List.mem_map.1 hmem
    exact h.nonempty g hg (List.map_eq_nil_iff.1 he)
  have hwithin : ∀ es ∈ groups.map entries,
      es.IsChain fun a b ↦ decide (a.1 = b.1) = true := by
    intro es hes
    obtain ⟨g, _, rfl⟩ := List.mem_map.1 hes
    refine (List.pairwise_of_forall_mem_list fun a ha b hb ↦ ?_).isChain
    exact decide_eq_true ((fst_of_mem_entries ha).trans (fst_of_mem_entries hb).symm)
  have hbetween : (groups.map entries).IsChain fun a b ↦
      ∃ ha hb, decide ((a.getLast ha).1 = (b.head hb).1) = false := by
    rw [List.isChain_map]
    refine ((List.pairwise_map.1 h.distinct).imp_of_mem ?_).isChain
    intro a b ha hb hab
    have hae : a.entries ≠ [] := mt List.map_eq_nil_iff.1 (h.nonempty a ha)
    have hbe : b.entries ≠ [] := mt List.map_eq_nil_iff.1 (h.nonempty b hb)
    refine ⟨hae, hbe, decide_eq_false fun he ↦ hab ?_⟩
    rw [fst_of_mem_entries (List.getLast_mem hae), fst_of_mem_entries (List.head_mem hbe),
      h.address a ha, h.address b hb] at he
    have hva := congrArg Address.va he
    rwa [s.va_address?, s.va_address?] at hva
  rw [regroup, List.flatMap_def, List.splitBy_flatten hnil hwithin hbetween, List.map_map]
  refine (List.map_congr_left fun g hg ↦ ?_).trans (List.map_id groups)
  exact ofEntries_entries (h.nonempty g hg) (h.address g hg)

end GenericGroup

theorem Metadata.genericGroups_congr {m n : Metadata} (hspecs : m.methodSpecs = n.methodSpecs)
    (haddress : ∀ pointer, m.address? pointer = n.address? pointer) (method : Nat) :
    m.genericGroups method = n.genericGroups method := by
  unfold genericGroups specsOf
  rw [m.index_eq, n.index_eq, Snapshot.buildIndex, Snapshot.buildIndex, hspecs]
  exact GenericGroup.ofSpecs_congr haddress _

end MetadataDump
