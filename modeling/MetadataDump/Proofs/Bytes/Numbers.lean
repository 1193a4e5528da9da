import MetadataDump.Proofs.Bytes.Accepts

namespace MetadataDump

/-- The `width` bytes of a number, the least significant first. -/
def leBytes : Nat → Nat → List UInt8
  | 0, _ => []
  | width + 1, n => .ofNat n :: leBytes width (n / 0x100)

theorem littleEndian_leBytes {width n : Nat} (h : n < 0x100 ^ width) :
    littleEndian (leBytes width n) = n := by
  induction width generalizing n with
  | zero =>
    rw [Nat.pow_zero, Nat.lt_one_iff] at h
    exact h.symm
  | succ width ih =>
    rw [Nat.pow_succ, Nat.mul_comm] at h
    rw [leBytes, littleEndian, ih (Nat.div_lt_of_lt_mul h), UInt8.toNat_ofNat']
    exact Nat.mod_add_div n 0x100

theorem leBytes_littleEndian (bs : List UInt8) : leBytes bs.length (littleEndian bs) = bs := by
  induction bs with
  | nil => rfl
  | cons b bs ih =>
    have hb := b.toNat_lt
    have hdiv : (b.toNat + 0x100 * littleEndian bs) / 0x100 = littleEndian bs := by omega
    have hhead : UInt8.ofNat (b.toNat + 0x100 * littleEndian bs) = b := by
      rw [← UInt8.toNat_inj, UInt8.toNat_ofNat']
      omega
    rw [List.length_cons, littleEndian, leBytes, hdiv, ih, hhead]

theorem length_leBytes (width n : Nat) : (leBytes width n).length = width := by
  induction width generalizing n with
  | zero => rfl
  | succ width ih => exact congrArg (· + 1) (ih _)

theorem littleEndian_lt (bs : List UInt8) : littleEndian bs < 0x100 ^ bs.length := by
  induction bs with
  | nil => exact Nat.one_pos
  | cons b bs ih =>
    have hb := b.toNat_lt
    rw [littleEndian, List.length_cons, Nat.pow_succ]
    omega

theorem Text.Utf8.decode_eq_ok_iff {bytes : ByteArray} {s : String} :
    decode bytes = .ok s ↔ bytes = s.toUTF8 := by
  unfold decode String.fromUTF8?
  by_cases h : bytes.IsValidUTF8
  · rw [dif_pos h]
    constructor
    · intro he
      cases he
      rfl
    · rintro rfl
      rfl
  · rw [dif_neg h]
    refine iff_of_false (fun he ↦ nomatch he) ?_
    rintro rfl
    exact h s.isValidUTF8

namespace Reader

theorem accepts_nat (width : Nat) :
    (nat width).Accepts fun bs n ↦ n < 0x100 ^ width ∧ bs = leBytes width n := by
  refine ((accepts_take width).bind_idle fun bytes ↦ accepts_pure _).congr fun bs n ↦ ⟨?_, ?_⟩
  · rintro ⟨bytes, ⟨rfl, rfl⟩, rfl⟩
    exact ⟨littleEndian_lt _, (leBytes_littleEndian _).symm⟩
  · rintro ⟨hn, rfl⟩
    exact ⟨⟨(leBytes width n).toArray⟩, ⟨length_leBytes width n, rfl⟩,
      (littleEndian_leBytes hn).symm⟩

theorem grounded_nat (width : Nat) : Grounded (nat width) := (grounded_take width).bind _

theorem accepts_fixed {α : Type} {ofNat : Nat → α} {toNat : α → Nat} {width : Nat}
    (hof : ∀ a, ofNat (toNat a) = a) (hto : ∀ n < 0x100 ^ width, toNat (ofNat n) = n)
    (hlt : ∀ a, toNat a < 0x100 ^ width) :
    (ofNat <$> nat width).Accepts fun bs a ↦ bs = leBytes width (toNat a) := by
  refine ((accepts_nat width).map ofNat).congr fun bs a ↦ ⟨?_, ?_⟩
  · rintro ⟨n, ⟨hn, rfl⟩, rfl⟩
    rw [hto n hn]
  · rintro rfl
    exact ⟨toNat a, ⟨hlt a, rfl⟩, (hof a).symm⟩

theorem accepts_u8 : u8.Accepts fun bs b ↦ bs = [b] := by
  refine (accepts_fixed (fun b ↦ UInt8.ofNat_toNat) (fun n hn ↦ UInt8.toNat_ofNat_of_lt' hn)
    UInt8.toNat_lt).congr fun bs b ↦ ?_
  rw [leBytes, leBytes, UInt8.ofNat_toNat]

theorem grounded_u8 : Grounded u8 := (grounded_nat 1).map _

theorem accepts_u16 : u16.Accepts fun bs n ↦ bs = leBytes 2 n.toNat :=
  accepts_fixed (fun _ ↦ UInt16.ofNat_toNat) (fun _ h ↦ UInt16.toNat_ofNat_of_lt' h) UInt16.toNat_lt

theorem accepts_u32 : u32.Accepts fun bs n ↦ bs = leBytes 4 n.toNat :=
  accepts_fixed (fun _ ↦ UInt32.ofNat_toNat) (fun _ h ↦ UInt32.toNat_ofNat_of_lt' h) UInt32.toNat_lt

theorem accepts_u64 : u64.Accepts fun bs n ↦ bs = leBytes 8 n.toNat :=
  accepts_fixed (fun _ ↦ UInt64.ofNat_toNat) (fun _ h ↦ UInt64.toNat_ofNat_of_lt' h) UInt64.toNat_lt

theorem Accepts.signed {α β : Type} {x : Reader α} {p : Form α} (hx : x.Accepts p) {f : α → β}
    {g : β → α} (hfg : ∀ b, f (g b) = b) (hgf : ∀ a, g (f a) = a) :
    (f <$> x).Accepts fun bs b ↦ p bs (g b) := by
  refine (hx.map f).congr fun bs b ↦ ⟨?_, ?_⟩
  · rintro ⟨a, ha, rfl⟩
    rwa [hgf]
  · exact fun h ↦ ⟨g b, h, (hfg b).symm⟩

theorem accepts_i8 : i8.Accepts fun bs n ↦ bs = [n.toUInt8] :=
  accepts_u8.signed Int8.toInt8_toUInt8 UInt8.toUInt8_toInt8

theorem accepts_i16 : i16.Accepts fun bs n ↦ bs = leBytes 2 n.toUInt16.toNat :=
  accepts_u16.signed Int16.toInt16_toUInt16 UInt16.toUInt16_toInt16

theorem accepts_i32 : i32.Accepts fun bs n ↦ bs = leBytes 4 n.toUInt32.toNat :=
  accepts_u32.signed Int32.toInt32_toUInt32 UInt32.toUInt32_toInt32

theorem grounded_i32 : Grounded i32 := ((grounded_nat 4).map _).map _

theorem accepts_i64 : i64.Accepts fun bs n ↦ bs = leBytes 8 n.toUInt64.toNat :=
  accepts_u64.signed Int64.toInt64_toUInt64 UInt64.toUInt64_toInt64

theorem accepts_text (n : Nat) :
    (text n).Accepts fun bs s ↦ s.utf8ByteSize = n ∧ bs = s.toUTF8.data.toList := by
  refine accepts_get_bind fun c ↦ ((accepts_take n).bind_idle
    (q := fun bytes s ↦ bytes = s.toUTF8) fun bytes ↦ ?_).congr fun bs s ↦ ⟨?_, ?_⟩
  · simp only [← Text.Utf8.decode_eq_ok_iff]
    cases Text.Utf8.decode bytes with
    | ok s => exact (accepts_pure s).congr fun bs t ↦ by simp [eq_comm]
    | error fault => exact (accepts_throw _).congr fun bs t ↦ by simp
  · rintro ⟨_, ⟨hlength, rfl⟩, rfl⟩
    exact ⟨hlength, rfl⟩
  · rintro ⟨hsize, rfl⟩
    exact ⟨s.toUTF8, ⟨hsize, rfl⟩, rfl⟩

end Reader

end MetadataDump
