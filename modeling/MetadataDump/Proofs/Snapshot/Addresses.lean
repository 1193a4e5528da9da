import MetadataDump.Proofs.Snapshot.Lookup

namespace MetadataDump

namespace Section

/-- The addresses of a section as integers. They may go beyond 64 bits. -/
def memory (x : Section) : Set Nat :=
  Set.Ico x.virtualAddress.toNat (x.virtualAddress.toNat + x.size.toNat)

def file (x : Section) : Set Nat := Set.Ico x.fileOffset.toNat (x.fileOffset.toNat + x.size.toNat)

variable {x : Section} {va : UInt64}

theorem contains_iff : x.contains va = true ↔ va.toNat ∈ x.memory := by
  simp only [contains, memory, Set.mem_Ico, decide_eq_true_eq]
  rw [UInt64.lt_iff_toNat_lt, UInt64.le_iff_toNat_le]
  apply and_congr_right
  intro hle
  rw [UInt64.toNat_sub_of_le va x.virtualAddress (UInt64.le_iff_toNat_le.2 hle)]
  omega

theorem toNat_offset (hfits : x.fileOffset.toNat + x.size.toNat ≤ 2 ^ 64)
    (h : va.toNat ∈ x.memory) : (va - x.virtualAddress + x.fileOffset).toNat =
      x.fileOffset.toNat + (va.toNat - x.virtualAddress.toNat) := by
  obtain ⟨hlow, hhigh⟩ := h
  have hle : x.virtualAddress ≤ va := UInt64.le_iff_toNat_le.2 hlow
  rw [UInt64.toNat_add, UInt64.toNat_sub_of_le va x.virtualAddress hle, Nat.mod_eq_of_lt]
  · omega
  · omega

end Section

/-- Sections that share no memory, and whose file parts have 64-bit offsets. -/
structure Separated (sections : List Section) : Prop where
  disjoint : sections.Pairwise fun x y ↦ Disjoint x.memory y.memory
  fits : ∀ x ∈ sections, x.fileOffset.toNat + x.size.toNat ≤ 2 ^ 64

theorem eq_of_mem_of_mem {sections : List Section} {places : Section → Set Nat}
    (h : sections.Pairwise fun x y ↦ Disjoint (places x) (places y)) {x y : Section}
    (hx : x ∈ sections) (hy : y ∈ sections) {i : Nat} (hix : i ∈ places x) (hiy : i ∈ places y) :
    x = y := by
  have hsymm : Std.Symm fun x y ↦ Disjoint (places x) (places y) := ⟨fun _ _ h ↦ h.symm⟩
  by_contra hne
  exact Set.disjoint_left.1 (h.forall hx hy hne) hix hiy

namespace Snapshot

variable {s : Snapshot} {x : Section} {pointer : UInt64}

def mapped (s : Snapshot) : Set UInt64 := {pointer | ∃ x ∈ s.sections, pointer.toNat ∈ x.memory}

theorem find?_sections (h : Separated s.sections) (hx : x ∈ s.sections)
    (hpointer : pointer.toNat ∈ x.memory) :
    s.sections.find? (·.contains pointer) = some x := by
  cases hfind : s.sections.find? (·.contains pointer) with
  | none =>
    have hnone := List.find?_eq_none.1 hfind x hx
    exact absurd (Section.contains_iff.2 hpointer) hnone
  | some y =>
    have hy := List.mem_of_find?_eq_some hfind
    have hcontains := List.find?_some (p := fun x : Section ↦ x.contains pointer) hfind
    rw [eq_of_mem_of_mem h.disjoint hy hx (Section.contains_iff.1 hcontains) hpointer]

theorem offset_of_mem (h : Separated s.sections) (hx : x ∈ s.sections)
    (hpointer : pointer.toNat ∈ x.memory) : (s.address pointer).offset.toNat =
      x.fileOffset.toNat + (pointer.toNat - x.virtualAddress.toNat) := by
  rw [address, find?_sections h hx hpointer]
  exact Section.toNat_offset (h.fits x hx) hpointer

theorem offset_mem_file (h : Separated s.sections) (hx : x ∈ s.sections)
    (hpointer : pointer.toNat ∈ x.memory) : (s.address pointer).offset.toNat ∈ x.file := by
  rw [offset_of_mem h hx hpointer]
  obtain ⟨hlow, hhigh⟩ := hpointer
  constructor
  · omega
  · omega

theorem address_perm (h : Separated s.sections) {sections : List Section}
    (hperm : sections.Perm s.sections) (pointer : UInt64) :
    ({ s with sections } : Snapshot).address pointer = s.address pointer := by
  have hunique : {x ∈ s.sections | x.contains pointer}.Subsingleton := by
    intro x hx y hy
    exact eq_of_mem_of_mem h.disjoint hx.1 hy.1 (Section.contains_iff.1 hx.2)
      (Section.contains_iff.1 hy.2)
  simp only [address, List.find?_eq_find?_of_perm hperm.symm hunique]

theorem injOn_offset (h : Separated s.sections)
    (hfile : s.sections.Pairwise fun x y ↦ Disjoint x.file y.file) :
    s.mapped.InjOn fun pointer ↦ (s.address pointer).offset := by
  intro p hp q hq hpq
  obtain ⟨x, hx, hpx⟩ := hp
  obtain ⟨y, hy, hqy⟩ := hq
  have hoffset : (s.address p).offset.toNat = (s.address q).offset.toNat :=
    congrArg UInt64.toNat hpq
  have hpfile := offset_mem_file h hx hpx
  rw [hoffset] at hpfile
  obtain rfl := eq_of_mem_of_mem hfile hx hy hpfile (offset_mem_file h hy hqy)
  rw [offset_of_mem h hx hpx, offset_of_mem h hy hqy] at hoffset
  obtain ⟨hplow, -⟩ := hpx
  obtain ⟨hqlow, -⟩ := hqy
  rw [← UInt64.toNat_inj]
  omega

theorem offset_of_not_mem (hpointer : pointer ∉ s.mapped) : (s.address pointer).offset = 0 := by
  have hnone : s.sections.find? (·.contains pointer) = none := by
    rw [List.find?_eq_none]
    intro x hx hcontains
    exact hpointer ⟨x, hx, Section.contains_iff.1 hcontains⟩
  rw [address, hnone]

/-- Where the sections share no memory, the address of code is a matter of the one section that it
lies in. -/
theorem address_of_separated (h : Separated s.sections) :
    (∀ sections : List Section, sections.Perm s.sections →
      ∀ pointer, ({ s with sections } : Snapshot).address pointer = s.address pointer) ∧
    (∀ x ∈ s.sections, ∀ pointer : UInt64, pointer.toNat ∈ x.memory →
      (s.address pointer).offset.toNat =
        x.fileOffset.toNat + (pointer.toNat - x.virtualAddress.toNat) ∧
      (s.address pointer).offset.toNat ∈ x.file) ∧
    ((s.sections.Pairwise fun x y ↦ Disjoint x.file y.file) →
      s.mapped.InjOn fun pointer ↦ (s.address pointer).offset) ∧
    ∀ pointer ∉ s.mapped, (s.address pointer).offset = 0 := by
  refine ⟨?_, ?_, ?_, ?_⟩
  · intro sections hperm pointer
    exact address_perm h hperm pointer
  · intro x hx pointer hpointer
    exact ⟨offset_of_mem h hx hpointer, offset_mem_file h hx hpointer⟩
  · intro hfile
    exact injOn_offset h hfile
  · intro pointer hpointer
    exact offset_of_not_mem hpointer

def highCode : Snapshot :=
  { blank ⟨29, 0⟩ with
    sections := [⟨0x1000, 0x100, 0x400⟩, ⟨0x1080, 0, 0x480⟩, ⟨0xFFFFFFFFFFFFF000, 0x1000, 0x500⟩] }

theorem address_highCode :
    Separated highCode.sections ∧
    (highCode.sections.Pairwise fun x y ↦ Disjoint x.file y.file) ∧
    ({ highCode with sections := highCode.sections.reverse } : Snapshot).address 0x1080 =
      highCode.address 0x1080 ∧
    (highCode.address 0xFFFFFFFFFFFFFFFF).offset.toNat = 0x14FF ∧
    (highCode.address 0x1080).offset ≠ (highCode.address 0xFFFFFFFFFFFFFFFF).offset ∧
    (highCode.address 0x1100).offset = 0 := by
  have hseparated : Separated highCode.sections := by
    constructor
    · simp [highCode, Section.memory]
    · simp [highCode]
  have hfile : highCode.sections.Pairwise fun x y ↦ Disjoint x.file y.file := by
    simp [highCode, Section.file]
  have hlow : (0x1080 : UInt64).toNat ∈ (⟨0x1000, 0x100, 0x400⟩ : Section).memory := by
    simp [Section.memory]
  have hhigh : (0xFFFFFFFFFFFFFFFF : UInt64).toNat ∈
      (⟨0xFFFFFFFFFFFFF000, 0x1000, 0x500⟩ : Section).memory := by
    simp [Section.memory]
  obtain ⟨hperm, hoffset, hinj, hunmapped⟩ := address_of_separated hseparated
  refine ⟨hseparated, hfile, hperm _ (List.reverse_perm _) _, ?_, ?_, ?_⟩
  · exact (hoffset _ (by simp [highCode]) _ hhigh).1
  · intro h
    exact absurd (hinj hfile ⟨_, by simp [highCode], hlow⟩ ⟨_, by simp [highCode], hhigh⟩ h)
      (by decide)
  · exact hunmapped _ (by simp [mapped, highCode, Section.memory])

end Snapshot

end MetadataDump
