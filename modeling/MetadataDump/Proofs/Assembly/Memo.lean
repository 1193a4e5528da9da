import MetadataDump.Proofs.Assembly.Questions
import MetadataDump.Proofs.Snapshot.Lookup

namespace MetadataDump

/-- A question about the modifiers of a method, with the flags that its row has. -/
def Snapshot.IsMethodQuestion (s : Snapshot) (method : Nat) (flags : UInt32) : Prop :=
  ∃ row, s.methods[method]? = some row ∧ row.flags.toUInt32 = flags

/-- Every entry is the decoding of the flags of its method. -/
def ModifierCache.Sound (s : Snapshot) (cache : ModifierCache) : Prop :=
  ∀ (method : Nat) (found : List Modifier), cache.entries[method]? = some found →
    ∃ row, s.methods[method]? = some row ∧ found = Flags.methodModifiers row.flags.toUInt32

namespace ModifierCache

variable {s : Snapshot} {cache : ModifierCache}

theorem sound_empty (s : Snapshot) : empty.Sound s := by
  intro method found h
  simp [empty] at h

theorem Sound.getOrDecode_fst (hc : cache.Sound s) {method : Nat} {flags : UInt32}
    (hq : s.IsMethodQuestion method flags) :
    (cache.getOrDecode method flags).1 = Flags.methodModifiers flags := by
  unfold getOrDecode
  split
  · rename_i found hfound
    obtain ⟨row, hrow, rfl⟩ := hc method found hfound
    obtain ⟨row', hrow', rfl⟩ := hq
    obtain rfl := Option.some.inj (hrow.symm.trans hrow')
    rfl
  · rfl

theorem Sound.getOrDecode_snd (hc : cache.Sound s) {method : Nat} {flags : UInt32}
    (hq : s.IsMethodQuestion method flags) : (cache.getOrDecode method flags).2.Sound s := by
  unfold getOrDecode
  split
  · exact hc
  · intro method' found h
    rw [Std.ExtTreeMap.getElem?_insert] at h
    split at h
    · rename_i he
      obtain rfl : method = method' := by simpa using he
      obtain ⟨row, hrow, rfl⟩ := hq
      exact ⟨row, hrow, (Option.some.inj h).symm⟩
    · exact hc method' found h

end ModifierCache

namespace Assembly

variable {α : Type} {s : Snapshot} {cache : ModifierCache}

/-- On a sound memo a computation gives what it gives without one, and leaves a sound memo. -/
theorem run_of_sound {x : Assembly α} (hx : x.Asks s.IsMethodQuestion) (hc : cache.Sound s) :
    (x.run cache).1 = x.direct ∧ (x.run cache).2.Sound s := by
  induction x generalizing cache with
  | done r => exact ⟨rfl, hc⟩
  | ask method flags resume ih =>
    have h := ih (cache.getOrDecode method flags).1 (hx.2 _) (hc.getOrDecode_snd hx.1)
    rw [hc.getOrDecode_fst hx.1] at h
    simpa only [run, direct, hc.getOrDecode_fst hx.1] using h

end Assembly

namespace Metadata

open Assembly

variable (m : Metadata) (c : Config)

theorem asks_assembleAccessor (owner : TypeRow) (relative : Int32) (isSetter : Bool) :
    (m.assembleAccessor owner relative isSetter).Asks m.IsMethodQuestion := by
  unfold assembleAccessor
  split
  · exact asks_pure _
  · refine asks_lift_bind fun method hmethod ↦ (asks_lift _).bind fun _ ↦ ?_
    have hrow := (lookup_eq_ok_iff.1 hmethod).2
    exact (asks_modifiers ⟨method, hrow, rfl⟩).bind fun _ ↦ (asks_lift _).bind fun _ ↦ asks_pure _

theorem asks_assembleProperty [Places] (image : ImageRow) (owner : TypeRow) (position : Int) :
    (m.assembleProperty c image owner position).Asks m.IsMethodQuestion :=
  (asks_lift _).bind fun _ ↦ (asks_lift _).bind fun _ ↦ (asks_lift _).bind fun _ ↦
    (asks_assembleAccessor m _ _ _).bind fun _ ↦ (asks_assembleAccessor m _ _ _).bind fun _ ↦
      asks_pure _

theorem asks_assembleMethod [Places] (image : ImageRow) (imageName : String) (position : Int) :
    (m.assembleMethod c image imageName position).Asks m.IsMethodQuestion := by
  refine asks_lift_bind fun row hrow ↦ (asks_lift _).bind fun _ ↦ (asks_lift _).bind fun _ ↦
    (asks_lift _).bind fun _ ↦ (asks_lift _).bind fun _ ↦ (asks_lift _).bind fun _ ↦ ?_
  exact (asks_modifiers ⟨row, (lookup_eq_ok_iff.1 hrow).2, rfl⟩).bind fun _ ↦
    (asks_lift _).bind fun _ ↦ asks_pure _

theorem asks_members {α : Type} {p : Nat → UInt32 → Prop} (isShown : Bool) (range : RowRange)
    {assemble : Int → Assembly α} (h : ∀ position, (assemble position).Asks p) :
    (members isShown range assemble).Asks p := by
  unfold members
  split
  · exact asks_mapM h _
  · exact asks_pure _

theorem asks_assembleType [Places] (image : ImageRow) (imageName : String) (index : Nat) :
    (m.assembleType c image imageName index).Asks m.IsMethodQuestion :=
  (asks_lift _).bind fun _ ↦ (asks_lift _).bind fun _ ↦ (asks_lift _).bind fun _ ↦
    (asks_lift _).bind fun _ ↦ (asks_lift _).bind fun _ ↦
    (asks_members _ _ fun _ ↦ asks_lift _).bind fun _ ↦
    (asks_members _ _ (asks_assembleProperty m c image _)).bind fun _ ↦
    (asks_members _ _ (asks_assembleMethod m c image imageName)).bind fun _ ↦ asks_pure _

theorem asks_assembleImage [Places] (index : Nat) (image : ImageRow) :
    (m.assembleImage c index image).Asks m.IsMethodQuestion :=
  (asks_lift _).bind fun _ ↦ (asks_lift _).bind fun _ ↦
    (asks_mapM (asks_assembleType m c image _) _).bind fun _ ↦ asks_pure _

end Metadata

end MetadataDump
