import MetadataDump.Proofs.Bytes.Numbers

namespace MetadataDump

inductive UIntForm (n : Nat) : List UInt8 → Prop
  | one : n < 0x80 → UIntForm n [.ofNat n]
  | two : n < 0x4000 → UIntForm n [.ofNat (0x80 + n / 0x100), .ofNat n]
  | four : n < 0x20000000 → UIntForm n
      [.ofNat (0xC0 + n / 0x1000000), .ofNat (n / 0x10000), .ofNat (n / 0x100), .ofNat n]
  | raw : n < 0x100000000 → UIntForm n (0xF0 :: leBytes 4 n)
  | beforeLast : n = 0xFFFFFFFE → UIntForm n [0xFE]
  | last : n = 0xFFFFFFFF → UIntForm n [0xFF]

/-- The integers 0, -1, 1, -2, … in this order. -/
def zigZag (i : Int) : Nat := if 0 ≤ i then 2 * i.toNat else 2 * (-i).toNat - 1

def IntForm (i : Int) (bs : List UInt8) : Prop := UIntForm (zigZag i) bs

namespace UIntForm

variable {n : Nat} {lead b₁ b₂ b₃ : UInt8} {bs : List UInt8}

theorem of_two (hlead : 0x80 ≤ lead.toNat) (hlt : lead.toNat < 0xC0)
    (hn : n = (lead.toNat - 0x80) * 0x100 + b₁.toNat) : UIntForm n [lead, b₁] := by
  have h₁ := b₁.toNat_lt
  have hl : lead = .ofNat (0x80 + n / 0x100) := by
    rw [← UInt8.toNat_inj, UInt8.toNat_ofNat']
    omega
  have hb₁ : b₁ = .ofNat n := by
    rw [← UInt8.toNat_inj, UInt8.toNat_ofNat']
    omega
  rw [hl, hb₁]
  exact .two (by omega)

theorem of_four (hlead : 0xC0 ≤ lead.toNat) (hlt : lead.toNat < 0xE0)
    (hn : n = (lead.toNat - 0xC0) * 0x1000000 + b₁.toNat * 0x10000 + b₂.toNat * 0x100 + b₃.toNat) :
    UIntForm n [lead, b₁, b₂, b₃] := by
  have h₁ := b₁.toNat_lt
  have h₂ := b₂.toNat_lt
  have h₃ := b₃.toNat_lt
  have hl : lead = .ofNat (0xC0 + n / 0x1000000) := by
    rw [← UInt8.toNat_inj, UInt8.toNat_ofNat']
    omega
  have hb₁ : b₁ = .ofNat (n / 0x10000) := by
    rw [← UInt8.toNat_inj, UInt8.toNat_ofNat']
    omega
  have hb₂ : b₂ = .ofNat (n / 0x100) := by
    rw [← UInt8.toNat_inj, UInt8.toNat_ofNat']
    omega
  have hb₃ : b₃ = .ofNat n := by
    rw [← UInt8.toNat_inj, UInt8.toNat_ofNat']
    omega
  rw [hl, hb₁, hb₂, hb₃]
  exact .four (by omega)

theorem lt (h : UIntForm n bs) : n < 0x100000000 := by
  cases h <;> omega

theorem exists_toNat_eq (h : UIntForm n bs) : ∃ k : UInt32, k.toNat = n :=
  ⟨.ofNat n, UInt32.toNat_ofNat_of_lt' h.lt⟩

end UIntForm

theorem IntForm.exists_toInt_eq {i : Int} {bs : List UInt8} (h : IntForm i bs) :
    ∃ k : Int32, k.toInt = i := by
  have hlt := UIntForm.lt h
  unfold zigZag at hlt
  refine ⟨.ofInt i, Int32.toInt_ofInt_of_le ?_ ?_⟩ <;> split at hlt <;> omega

theorem uIntForm_cons_iff {n : Nat} {lead : UInt8} {bs : List UInt8} :
    UIntForm n (lead :: bs) ↔
      lead.toNat < 0x80 ∧ bs = [] ∧ n = lead.toNat ∨
      (0x80 ≤ lead.toNat ∧ lead.toNat < 0xC0) ∧
        (∃ b : UInt8, bs = [b] ∧ n = (lead.toNat - 0x80) * 0x100 + b.toNat) ∨
      (0xC0 ≤ lead.toNat ∧ lead.toNat < 0xE0) ∧
        (∃ b₁ b₂ b₃ : UInt8, bs = [b₁, b₂, b₃] ∧ n = (lead.toNat - 0xC0) * 0x1000000 +
          b₁.toNat * 0x10000 + b₂.toNat * 0x100 + b₃.toNat) ∨
      lead = 0xF0 ∧ n < 0x100000000 ∧ bs = leBytes 4 n ∨
      lead = 0xFE ∧ bs = [] ∧ n = 0xFFFFFFFE ∨
      lead = 0xFF ∧ bs = [] ∧ n = 0xFFFFFFFF := by
  constructor
  · rintro (h | h | h | h | h | h)
    · refine .inl ⟨?_, rfl, ?_⟩ <;> rw [UInt8.toNat_ofNat'] <;> omega
    · refine .inr (.inl ⟨⟨?_, ?_⟩, _, rfl, ?_⟩) <;> simp only [UInt8.toNat_ofNat'] <;> omega
    · refine .inr (.inr (.inl ⟨⟨?_, ?_⟩, _, _, _, rfl, ?_⟩)) <;> simp only [UInt8.toNat_ofNat'] <;>
        omega
    · simp [h]
    · simp [h]
    · simp [h]
  · rintro (⟨h, rfl, rfl⟩ | ⟨⟨h, h'⟩, b, rfl, hn⟩ | ⟨⟨h, h'⟩, b₁, b₂, b₃, rfl, hn⟩ |
      ⟨rfl, hn, rfl⟩ | ⟨rfl, rfl, hn⟩ | ⟨rfl, rfl, hn⟩)
    · have hone := UIntForm.one h
      rwa [UInt8.ofNat_toNat] at hone
    · exact .of_two h h' hn
    · exact .of_four h h' hn
    · exact .raw hn
    · exact .beforeLast hn
    · exact .last hn

theorem uIntForm_ne_nil {n : Nat} {bs : List UInt8} (h : UIntForm n bs) : bs ≠ [] := by
  cases h <;> simp

theorem and_one_eq_zero_iff {n : UInt32} : n &&& 1 = 0 ↔ n.toNat % 2 = 0 := by
  simp [← UInt32.toNat_inj, Nat.and_one_is_mod]

theorem toNat_half (n : UInt32) : (n >>> 1).toNat = n.toNat / 2 := by
  simp [Nat.shiftRight_one]

theorem toInt32_half (n : UInt32) : (n >>> 1).toInt32 = .ofInt (n.toNat / 2 : Nat) := by
  have hn := n.toNat_lt
  have hvalue : (n >>> 1).toInt32.toInt = (n >>> 1).toNat := by
    apply BitVec.toInt_eq_toNat_of_lt
    show 2 * (n >>> 1).toNat < 2 ^ 32
    rw [toNat_half]
    omega
  rw [← toNat_half, ← hvalue, Int32.ofInt_toInt]

/-- Steps of 32 bits come to the same as steps on integers. -/
theorem ofZigZag_eq_ofInt (n : UInt32) : ofZigZag n =
    .ofInt (if n.toNat % 2 = 0 then (n.toNat / 2 : Nat) else -(n.toNat / 2 : Nat) - 1) := by
  unfold ofZigZag
  by_cases hlast : n = 0xFFFFFFFF
  · subst hlast
    rfl
  · simp only [hlast, and_one_eq_zero_iff, toInt32_half, if_false]
    split
    · rfl
    · rw [Int32.ofInt_sub, Int32.ofInt_neg]
      rfl

theorem toInt_ofZigZag (n : UInt32) : (ofZigZag n).toInt =
    if n.toNat % 2 = 0 then (n.toNat / 2 : Int) else -(n.toNat / 2 : Int) - 1 := by
  have hn := n.toNat_lt
  rw [ofZigZag_eq_ofInt]
  split
  · exact Int32.toInt_ofInt_of_le (by omega) (by omega)
  · exact Int32.toInt_ofInt_of_le (by omega) (by omega)

theorem zigZag_lt (i : Int32) : zigZag i.toInt < 2 ^ 32 := by
  have hlow := i.le_toInt
  have hhigh := i.toInt_lt
  unfold zigZag
  split <;> omega

namespace Reader

theorem byte_bind_iff {β : Type} {r : UInt8 → Form β} {bs : List UInt8} {b : β} :
    Form.bind (fun cs lead ↦ cs = [lead]) r bs b ↔ ∃ lead ds, bs = lead :: ds ∧ r lead ds b := by
  constructor
  · rintro ⟨_, ds, lead, rfl, rfl, h⟩
    exact ⟨lead, ds, rfl, h⟩
  · rintro ⟨lead, ds, rfl, h⟩
    exact ⟨[lead], ds, lead, rfl, rfl, h⟩

theorem toNat_two {lead : UInt8} (h : lead.toNat < 0xC0) (b : UInt8) :
    (UInt32.ofNat ((lead.toNat - 0x80) * 0x100 + b.toNat)).toNat =
      (lead.toNat - 0x80) * 0x100 + b.toNat := by
  have hb := b.toNat_lt
  exact UInt32.toNat_ofNat_of_lt' (show _ < 2 ^ 32 by omega)

theorem toNat_four {lead : UInt8} (h : lead.toNat < 0xE0) (b₁ b₂ b₃ : UInt8) :
    (UInt32.ofNat ((lead.toNat - 0xC0) * 0x1000000 + b₁.toNat * 0x10000 + b₂.toNat * 0x100 +
      b₃.toNat)).toNat =
      (lead.toNat - 0xC0) * 0x1000000 + b₁.toNat * 0x10000 + b₂.toNat * 0x100 + b₃.toNat := by
  have h₁ := b₁.toNat_lt
  have h₂ := b₂.toNat_lt
  have h₃ := b₃.toNat_lt
  exact UInt32.toNat_ofNat_of_lt' (show _ < 2 ^ 32 by omega)

theorem accepts_compressedUInt : compressedUInt.Accepts fun bs n ↦ UIntForm n.toNat bs := by
  refine (accepts_u8.bind (r := fun lead ds n ↦ UIntForm n.toNat (lead :: ds))
    fun lead ↦ ?_).congr fun bs n ↦ ?_
  · refine (accepts_ite (fun _ ↦ accepts_pure _) fun _ ↦
      accepts_ite (fun _ ↦ accepts_u8.bind_idle fun _ ↦ accepts_pure _) fun _ ↦
      accepts_ite (fun _ ↦ accepts_u8.bind fun _ ↦ accepts_u8.bind fun _ ↦
        accepts_u8.bind_idle fun _ ↦ accepts_pure _) fun _ ↦
      accepts_ite (fun _ ↦ accepts_u32) fun _ ↦ accepts_ite (fun _ ↦ accepts_pure _) fun _ ↦
      accepts_ite (fun _ ↦ accepts_pure _) fun _ ↦ accepts_throw _).congr fun ds n ↦ ?_
    have hn := n.toNat_lt
    have h80 : lead < 0x80 ↔ lead.toNat < 0x80 := UInt8.lt_iff_toNat_lt
    have hC0 : lead < 0xC0 ↔ lead.toNat < 0xC0 := UInt8.lt_iff_toNat_lt
    have hE0 : lead < 0xE0 ↔ lead.toNat < 0xE0 := UInt8.lt_iff_toNat_lt
    have hF0 : lead = 0xF0 ↔ lead.toNat = 0xF0 := UInt8.toNat_inj.symm
    have hFE : lead = 0xFE ↔ lead.toNat = 0xFE := UInt8.toNat_inj.symm
    have hFF : lead = 0xFF ↔ lead.toNat = 0xFF := UInt8.toNat_inj.symm
    simp only [uIntForm_cons_iff, byte_bind_iff, ← UInt32.toNat_inj, UInt8.toNat_toUInt32, h80, hC0,
      hE0, hF0, hFE, hFF]
    by_cases h1 : lead.toNat < 0x80
    · have h2 : ¬ 0x80 ≤ lead.toNat ∧ ¬ 0xC0 ≤ lead.toNat := by omega
      have h4 : lead.toNat ≠ 0xF0 ∧ lead.toNat ≠ 0xFE ∧ lead.toNat ≠ 0xFF := by omega
      simp [h1, h2, h4]
    by_cases h2 : lead.toNat < 0xC0
    · have h3 : 0x80 ≤ lead.toNat ∧ ¬ 0xC0 ≤ lead.toNat := by omega
      have h4 : lead.toNat ≠ 0xF0 ∧ lead.toNat ≠ 0xFE ∧ lead.toNat ≠ 0xFF := by omega
      simp only [h1, h2, h3, h4, toNat_two h2, if_true, if_false, false_and, and_true, true_and,
        or_false, false_or]
    by_cases h3 : lead.toNat < 0xE0
    · have h4 : lead.toNat ≠ 0xF0 ∧ lead.toNat ≠ 0xFE ∧ lead.toNat ≠ 0xFF := by omega
      simp only [h1, h2, h3, h4, Nat.not_lt.1 h2, toNat_four h3, if_true, if_false, false_and,
        and_false, and_true, true_and, or_false, false_or]
      constructor
      · rintro ⟨b₁, _, rfl, b₂, _, rfl, b₃, rfl, h⟩
        exact ⟨b₁, b₂, b₃, rfl, h⟩
      · rintro ⟨b₁, b₂, b₃, rfl, h⟩
        exact ⟨b₁, _, rfl, b₂, _, rfl, b₃, rfl, h⟩
    by_cases h4 : lead.toNat = 0xF0
    · simp [h4, hn]
    by_cases h5 : lead.toNat = 0xFE
    · simp [h5]
    · simp [h1, h2, h3, h4, h5]
  · rw [byte_bind_iff]
    cases bs with
    | nil => exact iff_of_false (by simp) fun h ↦ uIntForm_ne_nil h rfl
    | cons lead ds =>
      constructor
      · rintro ⟨_, _, he, h⟩
        rwa [he]
      · exact fun h ↦ ⟨lead, ds, rfl, h⟩

theorem grounded_compressedUInt : Grounded compressedUInt := grounded_u8.bind _

theorem ofZigZag_eq_iff {n : UInt32} {i : Int32} : ofZigZag n = i ↔ n.toNat = zigZag i.toInt := by
  have hn := n.toNat_lt
  have hlow := i.le_toInt
  have hhigh := i.toInt_lt
  rw [← Int32.toInt_inj, toInt_ofZigZag, zigZag]
  split <;> split <;> omega

theorem accepts_compressedInt : compressedInt.Accepts fun bs i ↦ IntForm i.toInt bs := by
  refine (accepts_compressedUInt.map ofZigZag).congr fun bs i ↦ ⟨?_, ?_⟩
  · rintro ⟨n, hn, rfl⟩
    rwa [IntForm, ← ofZigZag_eq_iff.1 rfl]
  · intro h
    have hn := UInt32.toNat_ofNat_of_lt' (zigZag_lt i)
    exact ⟨.ofNat (zigZag i.toInt), by rwa [hn], (ofZigZag_eq_iff.2 hn).symm⟩

theorem grounded_compressedInt : Grounded compressedInt := grounded_compressedUInt.map _

end Reader

theorem eq_of_uintForm {n n' : Nat} {bs cs ds es : List UInt8} (hn : UIntForm n bs)
    (hn' : UIntForm n' cs) (h : bs ++ ds = cs ++ es) : n = n' ∧ ds = es := by
  obtain ⟨k, rfl⟩ := hn.exists_toNat_eq
  obtain ⟨k', rfl⟩ := hn'.exists_toNat_eq
  obtain ⟨rfl, hds⟩ := Reader.accepts_compressedUInt.unambiguous hn hn' h
  exact ⟨rfl, hds⟩

end MetadataDump
