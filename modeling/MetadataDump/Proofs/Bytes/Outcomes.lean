import MetadataDump.Proofs.Bytes.Truncation

namespace MetadataDump

def IsReservedLead (lead : UInt8) : Prop :=
  0xE0 ≤ lead ∧ lead ≤ 0xEF ∨ 0xF1 ≤ lead ∧ lead ≤ 0xFD

def Unfinished (bs : List UInt8) : Prop := ∃ n cs, UIntForm n cs ∧ bs <+: cs ∧ bs ≠ cs

theorem isReservedLead_iff {lead : UInt8} :
    IsReservedLead lead ↔ 0xE0 ≤ lead.toNat ∧ lead.toNat ≠ 0xF0 ∧ lead.toNat < 0xFE := by
  simp only [IsReservedLead, UInt8.le_iff_toNat_le, UInt8.reduceToNat]
  omega

section Forms

variable {n m : Nat} {lead : UInt8} {bs cs : List UInt8}

theorem UIntForm.eq_of_prefix (hn : UIntForm n bs) (hm : UIntForm m cs) (h : bs <+: cs) :
    bs = cs ∧ n = m := by
  obtain ⟨ds, rfl⟩ := h
  obtain ⟨hnm, hds⟩ := eq_of_uintForm hn hm (List.append_nil (bs ++ ds)).symm
  simp [hnm, hds]

/-- A lead byte that is not reserved tells how many bytes its form has after it, and they may be any
bytes. -/
theorem exists_uIntForm_of_length (h : ¬ IsReservedLead lead) :
    ∃ width, ∀ tail : List UInt8, tail.length = width → ∃ n, UIntForm n (lead :: tail) := by
  have hlead := lead.toNat_lt
  rw [isReservedLead_iff] at h
  have hcases : lead.toNat < 0x80 ∨ (0x80 ≤ lead.toNat ∧ lead.toNat < 0xC0) ∨
      (0xC0 ≤ lead.toNat ∧ lead.toNat < 0xE0) ∨ lead.toNat = 0xF0 ∨ lead.toNat = 0xFE ∨
      lead.toNat = 0xFF := by omega
  rcases hcases with hone | htwo | hfour | hraw | hbeforeLast | hlast
  · refine ⟨0, fun tail htail ↦ ?_⟩
    obtain rfl := List.length_eq_zero_iff.1 htail
    exact ⟨_, uIntForm_cons_iff.2 (.inl ⟨hone, rfl, rfl⟩)⟩
  · refine ⟨1, fun tail htail ↦ ?_⟩
    obtain ⟨b, rfl⟩ := List.length_eq_one_iff.1 htail
    exact ⟨_, .of_two htwo.1 htwo.2 rfl⟩
  · refine ⟨3, fun tail htail ↦ ?_⟩
    obtain ⟨b₁, b₂, b₃, rfl⟩ := List.length_eq_three.1 htail
    exact ⟨_, .of_four hfour.1 hfour.2 rfl⟩
  · refine ⟨4, fun tail htail ↦ ⟨littleEndian tail, ?_⟩⟩
    obtain rfl : lead = 0xF0 := UInt8.toNat_inj.1 hraw
    have hlt := littleEndian_lt tail
    rw [htail] at hlt
    have hform := UIntForm.raw hlt
    rwa [← htail, leBytes_littleEndian] at hform
  · refine ⟨0, fun tail htail ↦ ?_⟩
    obtain rfl := List.length_eq_zero_iff.1 htail
    obtain rfl : lead = 0xFE := UInt8.toNat_inj.1 hbeforeLast
    exact ⟨_, .beforeLast rfl⟩
  · refine ⟨0, fun tail htail ↦ ?_⟩
    obtain rfl := List.length_eq_zero_iff.1 htail
    obtain rfl : lead = 0xFF := UInt8.toNat_inj.1 hlast
    exact ⟨_, .last rfl⟩

theorem unfinished_nil : Unfinished [] :=
  ⟨0, _, .one (by omega), List.nil_prefix, by simp⟩

theorem form_or_reserved_or_unfinished (bs : List UInt8) :
    (∃ n cs, UIntForm n cs ∧ cs <+: bs) ∨ (∃ lead, bs.head? = some lead ∧ IsReservedLead lead) ∨
      Unfinished bs := by
  cases bs with
  | nil => exact .inr (.inr unfinished_nil)
  | cons lead tail =>
    by_cases hlead : IsReservedLead lead
    · exact .inr (.inl ⟨lead, rfl, hlead⟩)
    obtain ⟨width, hwidth⟩ := exists_uIntForm_of_length hlead
    by_cases hle : width ≤ tail.length
    · obtain ⟨n, hn⟩ := hwidth (tail.take width) (List.length_take_of_le hle)
      exact .inl ⟨n, _, hn, List.cons_prefix_cons.2 ⟨rfl, List.take_prefix width tail⟩⟩
    · -- zeros complete the form
      obtain ⟨n, hn⟩ := hwidth (tail ++ List.replicate (width - tail.length) 0)
        (by simp; omega)
      refine .inr (.inr ⟨n, _, hn, List.cons_prefix_cons.2 ⟨rfl, List.prefix_append _ _⟩, ?_⟩)
      simp
      omega

end Forms

def int32? (i : Int) : Option Int32 :=
  if -0x80000000 ≤ i ∧ i < 0x80000000 then some (.ofInt i) else none

/-- The integer with a zig-zag code, computed by steps none of which may leave 32 bits: the half of
the code, its negation, and one less than that. -/
def ofZigZagBySteps (n : UInt32) : Option Int32 := do
  let half ← int32? (n >>> 1).toNat
  if n &&& 1 = 0 then
    return half
  else
    let negated ← int32? (-half.toInt)
    int32? (negated.toInt - 1)

section ZigZag

variable {n : UInt32} {k : Nat}

theorem int32?_of_le {i : Int} (hlow : -0x80000000 ≤ i) (hhigh : i < 0x80000000) :
    int32? i = some (.ofInt i) := if_pos ⟨hlow, hhigh⟩

theorem toInt_ofZigZag_even (h : n.toNat = 2 * k) : (ofZigZag n).toInt = k := by
  rw [toInt_ofZigZag, if_pos (by omega)]
  omega

theorem toInt_ofZigZag_odd (h : n.toNat = 2 * k + 1) : (ofZigZag n).toInt = -k - 1 := by
  rw [toInt_ofZigZag, if_neg (by omega)]
  omega

theorem bijective_ofZigZag : Function.Bijective ofZigZag := by
  constructor
  · intro n m h
    have hn : n.toNat = zigZag (ofZigZag m).toInt := Reader.ofZigZag_eq_iff.1 h
    have hm : m.toNat = zigZag (ofZigZag m).toInt := Reader.ofZigZag_eq_iff.1 rfl
    exact UInt32.toNat_inj.1 (hn.trans hm.symm)
  · intro i
    exact ⟨.ofNat (zigZag i.toInt),
      Reader.ofZigZag_eq_iff.2 (UInt32.toNat_ofNat_of_lt' (zigZag_lt i))⟩

theorem ofZigZagBySteps_eq (n : UInt32) : ofZigZagBySteps n = some (ofZigZag n) := by
  have hn := n.toNat_lt
  have hvalue : (Int32.ofInt (n.toNat / 2 : Nat)).toInt = (n.toNat / 2 : Nat) :=
    Int32.toInt_ofInt_of_le (by omega) (by omega)
  have hnegated : (Int32.ofInt (-(n.toNat / 2 : Nat))).toInt = -(n.toNat / 2 : Nat) :=
    Int32.toInt_ofInt_of_le (by omega) (by omega)
  rw [ofZigZagBySteps, toNat_half, int32?_of_le (by omega) (by omega), ofZigZag_eq_ofInt]
  by_cases h : n.toNat % 2 = 0
  · simp [and_one_eq_zero_iff, h]
  · have hfits := int32?_of_le (i := -(n.toNat / 2 : Nat)) (by omega) (by omega)
    have hlast := int32?_of_le (i := -(n.toNat / 2 : Nat) - 1) (by omega) (by omega)
    simp only [Option.bind_eq_bind, Option.bind_some, and_one_eq_zero_iff, h, if_false, hvalue,
      hfits, hnegated, hlast]

end ZigZag

namespace Reader

section Forward

variable {α β : Type} {x : Reader α}

/-- However it ends, the reader goes from the cursor over some of the bytes that are left. It runs
out of them only in front of a number. -/
def Forward (x : Reader α) : Prop :=
  ∀ ⦃c⦄, c.Valid → ∃ k ≤ c.rest.length, (∃ a, x c = .ok a (c.skip k)) ∨
    ∃ e, x c = .error e (c.skip k) ∧ ∀ check, e = .outOfBounds check → check = .number

theorem forward_pure (a : α) : Forward (pure a : Reader α) :=
  fun _ _ ↦ ⟨0, Nat.zero_le _, .inl ⟨a, rfl⟩⟩

theorem forward_malformed (damage : Damage) : Forward (throw (.malformed damage) : Reader α) :=
  fun _ _ ↦ ⟨0, Nat.zero_le _, .inr ⟨_, rfl, nofun⟩⟩

theorem forward_take (n : Nat) : Forward (take .number n) := by
  intro c hc
  by_cases h : c.pos + n ≤ c.bytes.size
  · refine ⟨n, ?_, .inl ⟨_, take_of_le h⟩⟩
    rw [Cursor.length_rest]
    omega
  · refine ⟨0, Nat.zero_le _, .inr ⟨_, take_of_lt (Nat.not_le.1 h), fun check hcheck ↦ ?_⟩⟩
    exact (Error.outOfBounds.inj hcheck).symm

theorem Forward.bind (hx : Forward x) {f : α → Reader β} (hf : ∀ a, Forward (f a)) :
    Forward (x >>= f) := by
  intro c hc
  obtain ⟨k, hk, ⟨a, ha⟩ | ⟨e, he, hcheck⟩⟩ := hx hc
  · have hvalid : (c.skip k).Valid := by
      rw [Cursor.length_rest] at hk
      show c.pos + k ≤ c.bytes.size
      have hpos : c.pos ≤ c.bytes.size := hc
      omega
    obtain ⟨m, hm, hresult⟩ := hf a hvalid
    rw [Cursor.skip_skip] at hresult
    rw [Cursor.rest_skip, List.length_drop] at hm
    rw [bind_ok ha]
    exact ⟨k + m, by omega, hresult⟩
  · exact ⟨k, hk, .inr ⟨e, bind_error he, hcheck⟩⟩

theorem Forward.map (hx : Forward x) (f : α → β) : Forward (f <$> x) :=
  hx.bind fun a ↦ forward_pure (f a)

theorem forward_ite {P : Prop} [Decidable P] {y : Reader α} (hx : Forward x) (hy : Forward y) :
    Forward (if P then x else y) := by
  split
  · exact hx
  · exact hy

theorem forward_u8 : Forward u8 := ((forward_take 1).map _).map _

theorem forward_u32 : Forward u32 := ((forward_take 4).map _).map _

theorem forward_compressedUInt : Forward compressedUInt := by
  apply forward_u8.bind
  intro lead
  apply forward_ite (forward_pure _)
  apply forward_ite (forward_u8.map _)
  apply forward_ite
  · exact forward_u8.bind fun _ ↦ forward_u8.bind fun _ ↦ forward_u8.map _
  · apply forward_ite forward_u32
    apply forward_ite (forward_pure _)
    exact forward_ite (forward_pure _) (forward_malformed _)

end Forward

variable {c : Cursor} {lead : UInt8}

theorem valid_of_rest_ne_nil (h : c.rest ≠ []) : c.Valid := by
  have hlength := List.length_pos_of_ne_nil h
  rw [Cursor.length_rest] at hlength
  show c.pos ≤ c.bytes.size
  omega

theorem compressedUInt_of_rest_nil (h : c.rest = []) :
    compressedUInt c = .error (.outOfBounds .number) c := by
  have hlength := c.length_rest
  rw [h, List.length_nil] at hlength
  have htake : take .number 1 c = .error (.outOfBounds .number) c := take_of_lt (by omega)
  have hu8 : u8 c = .error (.outOfBounds .number) c := bind_error (bind_error htake)
  exact bind_error hu8

theorem compressedUInt_of_isReservedLead (h : c.rest.head? = some lead)
    (hlead : IsReservedLead lead) :
    compressedUInt c = .error (.malformed (.compressedLead lead)) (c.skip 1) := by
  obtain ⟨bs, hrest⟩ := List.head?_eq_some_iff.1 h
  have hvalid : c.Valid := valid_of_rest_ne_nil (by simp [hrest])
  have hu8 : u8 c = .ok lead (c.skip 1) :=
    accepts_u8.read hvalid rfl (by simp [hrest])
  rw [isReservedLead_iff] at hlead
  rw [compressedUInt, bind_ok hu8]
  simp only [UInt8.lt_iff_toNat_lt, ← UInt8.toNat_inj, UInt8.reduceToNat]
  rw [if_neg (by omega), if_neg (by omega), if_neg (by omega), if_neg (by omega),
    if_neg (by omega), if_neg (by omega)]
  rfl

theorem compressedUInt_of_unfinished (h : Unfinished c.rest) :
    ∃ k ≤ c.rest.length, compressedUInt c = .error (.outOfBounds .number) (c.skip k) := by
  by_cases hempty : c.rest = []
  · exact ⟨0, Nat.zero_le _, compressedUInt_of_rest_nil hempty⟩
  have hvalid := valid_of_rest_ne_nil hempty
  obtain ⟨n, cs, hn, hstart, hne⟩ := h
  obtain ⟨k, rfl⟩ := hn.exists_toNat_eq
  have hfull := accepts_compressedUInt.ok_of_at (Form.at_toArray hn)
  have hlt : c.rest.length < cs.length :=
    lt_of_le_of_ne hstart.length_le fun hlength ↦ hne (hstart.eq_of_length hlength)
  obtain ⟨check, d, hd⟩ := needsAll_compressedUInt (Nat.zero_le _) hfull hvalid hstart hlt
  obtain ⟨m, hm, ⟨a, hok⟩ | ⟨e, herror, hcheck⟩⟩ := forward_compressedUInt hvalid
  · rw [hok] at hd
    cases hd
  · rw [herror] at hd
    cases hd
    obtain rfl := hcheck check rfl
    exact ⟨m, hm, herror⟩

theorem compressedUInt_cases (c : Cursor) :
    (∃ n bs, UIntForm n.toNat bs ∧ bs <+: c.rest ∧
      compressedUInt c = .ok n (c.skip bs.length)) ∨
    (∃ lead, c.rest.head? = some lead ∧ IsReservedLead lead ∧
      compressedUInt c = .error (.malformed (.compressedLead lead)) (c.skip 1)) ∨
    Unfinished c.rest ∧
      ∃ k ≤ c.rest.length, compressedUInt c = .error (.outOfBounds .number) (c.skip k) := by
  rcases form_or_reserved_or_unfinished c.rest with ⟨n, bs, hn, hbs⟩ | ⟨lead, h, hlead⟩ | h
  · obtain ⟨k, rfl⟩ := hn.exists_toNat_eq
    have hvalid : c.Valid :=
      valid_of_rest_ne_nil fun hempty ↦ uIntForm_ne_nil hn (List.prefix_nil.1 (hempty ▸ hbs))
    exact .inl ⟨k, bs, hn, hbs, accepts_compressedUInt.read hvalid hn hbs⟩
  · exact .inr (.inl ⟨lead, h, hlead, compressedUInt_of_isReservedLead h hlead⟩)
  · exact .inr (.inr ⟨h, compressedUInt_of_unfinished h⟩)

section Positions

variable {bytes : ByteArray} {i j : Nat}

theorem readAt_compressedUInt_reserved_iff : readAt compressedUInt bytes i =
      (.error (.malformed (.compressedLead lead)), j) ↔
    bytes.data[i]? = some lead ∧ IsReservedLead lead ∧ j = i + 1 := by
  have hhead : (⟨bytes, i⟩ : Cursor).rest.head? = bytes.data[i]? := by simp [Cursor.rest]
  rw [← hhead]
  constructor
  · intro h
    obtain ⟨n, bs, -, -, hread⟩ | ⟨lead', hlead', hreserved, hread⟩ | ⟨-, k, -, hread⟩ :=
      compressedUInt_cases ⟨bytes, i⟩
    · simp [readAt, hread] at h
    · simp only [readAt, hread, Prod.mk.injEq, Except.error.injEq, Error.malformed.injEq,
        Damage.compressedLead.injEq, Cursor.pos_skip] at h
      obtain ⟨rfl, rfl⟩ := h
      exact ⟨hlead', hreserved, rfl⟩
    · simp [readAt, hread] at h
  · intro h
    obtain ⟨hlead, hreserved, rfl⟩ := h
    simp [readAt, compressedUInt_of_isReservedLead hlead hreserved]

theorem readAt_compressedUInt_unfinished_iff {check : Check} :
    (readAt compressedUInt bytes i).1 = .error (.outOfBounds check) ↔
      check = .number ∧ Unfinished (bytes.data.toList.drop i) := by
  constructor
  · intro h
    obtain ⟨n, bs, -, -, hread⟩ | ⟨lead, -, -, hread⟩ | ⟨hunfinished, k, -, hread⟩ :=
      compressedUInt_cases ⟨bytes, i⟩
    · simp [readAt, hread] at h
    · simp [readAt, hread] at h
    · simp only [readAt, hread, Except.error.injEq, Error.outOfBounds.injEq] at h
      exact ⟨h.symm, hunfinished⟩
  · intro h
    obtain ⟨rfl, hunfinished⟩ := h
    obtain ⟨k, -, hread⟩ := compressedUInt_of_unfinished (c := ⟨bytes, i⟩) hunfinished
    simp [readAt, hread]

theorem readAt_map {α β : Type} (f : α → β) (x : Reader α) :
    readAt (f <$> x) bytes i = ((readAt x bytes i).1.map f, (readAt x bytes i).2) := by
  have hmap : (f <$> x) ⟨bytes, i⟩ = EStateM.map f x ⟨bytes, i⟩ := rfl
  rw [readAt, readAt, hmap, EStateM.map]
  cases x ⟨bytes, i⟩ <;> rfl

end Positions

/-- A reader of unsigned integers that tells the three cases apart, at every position of all bytes,
and goes up to the end of the form if there is one. -/
structure TellsForms (x : Reader UInt32) : Prop where
  value_iff : ∀ bytes i j n, readAt x bytes i = (.ok n, j) ↔
    Form.At (fun bs n ↦ UIntForm n.toNat bs) bytes i j n
  reserved_iff : ∀ bytes i j lead,
    readAt x bytes i = (.error (.malformed (.compressedLead lead)), j) ↔
      bytes.data[i]? = some lead ∧ IsReservedLead lead ∧ j = i + 1
  unfinished_iff : ∀ bytes i check, (readAt x bytes i).1 = .error (.outOfBounds check) ↔
    check = .number ∧ Unfinished (bytes.data.toList.drop i)

/-- Compressed integers are read exactly as their forms tell. No form starts another one, and each
unsigned integer has one; a signed integer is read as an unsigned one, and then taken from its
zig-zag code by steps that stay in 32 bits. -/
theorem compressed_exact :
    TellsForms compressedUInt ∧
    (∀ n m bs cs, UIntForm n bs → UIntForm m cs → bs <+: cs → bs = cs ∧ n = m) ∧
    (∀ n : UInt32, ∃ bs, UIntForm n.toNat bs) ∧
    (∀ bytes i, readAt compressedInt bytes i =
      ((readAt compressedUInt bytes i).1.map ofZigZag, (readAt compressedUInt bytes i).2)) ∧
    Function.Bijective ofZigZag ∧
    (∀ (n : UInt32) (k : Nat), (n.toNat = 2 * k → (ofZigZag n).toInt = k) ∧
      (n.toNat = 2 * k + 1 → (ofZigZag n).toInt = -k - 1)) ∧
    ofZigZag 0xFFFFFFFF = Int32.minValue ∧
    ∀ n, ofZigZagBySteps n = some (ofZigZag n) := by
  refine ⟨⟨?_, ?_, ?_⟩, ?_, ?_, ?_, bijective_ofZigZag, ?_, rfl, ofZigZagBySteps_eq⟩
  · intro bytes i j n
    exact accepts_compressedUInt.readAt_iff grounded_compressedUInt
  · intro bytes i j lead
    exact readAt_compressedUInt_reserved_iff
  · intro bytes i check
    exact readAt_compressedUInt_unfinished_iff
  · intro n m bs cs hn hm h
    exact hn.eq_of_prefix hm h
  · intro n
    exact ⟨_, .raw n.toNat_lt⟩
  · intro bytes i
    exact readAt_map ofZigZag compressedUInt
  · intro n k
    exact ⟨toInt_ofZigZag_even, toInt_ofZigZag_odd⟩

theorem compressed_exact_sample :
    (UIntForm 5 [0x05] ∧ UIntForm 5 [0x80, 0x05] ∧ ¬ [(0x05 : UInt8)] <+: [0x80, 0x05]) ∧
    (readAt compressedUInt ⟨#[0xC1, 0x02, 0x03]⟩ 0).1 = .error (.outOfBounds .number) ∧
    (0xFFFFFFFF : UInt32).toNat = 2 * 0x7FFFFFFF + 1 ∧
    (ofZigZag 0xFFFFFFFF).toInt = -0x7FFFFFFF - 1 := by
  obtain ⟨htells, hstart, -, -, -, hcodes, -, -⟩ := compressed_exact
  have hone : UIntForm 5 [0x05] := .one (by decide)
  have htwo : UIntForm 5 [0x80, 0x05] := .two (by decide)
  have hfour : UIntForm 0x01020304 [0xC1, 0x02, 0x03, 0x04] := .four (by decide)
  refine ⟨⟨hone, htwo, fun h ↦ ?_⟩, ?_, rfl, (hcodes _ _).2 rfl⟩
  · exact absurd (hstart 5 5 _ _ hone htwo h).1 (by decide)
  · exact (htells.unfinished_iff _ _ _).2 ⟨rfl, _, _, hfour, ⟨[0x04], rfl⟩, by decide⟩

end Reader

end MetadataDump
