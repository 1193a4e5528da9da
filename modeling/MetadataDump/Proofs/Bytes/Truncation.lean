import MetadataDump.Proofs.Bytes.Compressed

namespace MetadataDump

namespace Reader

variable {α β : Type} {x : Reader α} {p : Form α}

/-- On fewer bytes than it reads the reader runs out of them. -/
def NeedsAll (x : Reader α) : Prop :=
  ∀ ⦃c d : Cursor⦄ ⦃a : α⦄, c.Valid → x c = .ok a d → ∀ ⦃c' : Cursor⦄, c'.Valid →
    c'.rest <+: c.rest → c'.rest.length < d.pos - c.pos →
      ∃ check d', x c' = .error (.outOfBounds check) d'

theorem bind_error {f : α → Reader β} {c d : Cursor} {e : Error} (h : x c = .error e d) :
    (x >>= f) c = .error e d := by
  show EStateM.bind x f c = _
  simp only [EStateM.bind, h]

theorem bind_ok {f : α → Reader β} {c d : Cursor} {a : α} (h : x c = .ok a d) :
    (x >>= f) c = f a d := by
  show EStateM.bind x f c = _
  simp only [EStateM.bind, h]

theorem NeedsAll.error_of_lt (nx : NeedsAll x) (hx : x.Accepts p) {bytes : ByteArray} {i m : Nat}
    {a : α} {d : Cursor} (hvalid : (⟨bytes, i⟩ : Cursor).Valid) (h : x ⟨bytes, i⟩ = .ok a d)
    (hi : i ≤ m) (hm : m < d.pos) :
    ∃ check d', x ⟨bytes.extract 0 m, i⟩ = .error (.outOfBounds check) d' := by
  obtain ⟨-, -, hd, -⟩ := hx.at_of_ok hvalid h
  have hsize : (bytes.extract 0 m).size = m := by
    rw [ByteArray.size_extract, Nat.sub_zero]
    exact Nat.min_eq_left (by dsimp only at hd; omega)
  have hlength : (⟨bytes.extract 0 m, i⟩ : Cursor).rest.length = m - i := by
    rw [Cursor.length_rest, hsize]
  have hcut : (⟨bytes.extract 0 m, i⟩ : Cursor).Valid := hi.trans_eq hsize.symm
  refine nx hvalid h hcut ?_ ?_
  · rw [Cursor.rest, Cursor.rest, toList_extract_zero]
    exact (List.take_prefix m _).drop i
  · rw [hlength]
    dsimp only
    omega

theorem needsAll_pure (a : α) : NeedsAll (pure a : Reader α) := by
  intro c d b _ h c' _ _ hlt
  cases h
  omega

theorem needsAll_throw (e : Error) : NeedsAll (throw e : Reader α) :=
  fun _ _ _ _ h ↦ nomatch h

theorem needsAll_lift (e : Except Error α) : NeedsAll (lift e) := by
  cases e with
  | ok a => exact needsAll_pure a
  | error e => exact needsAll_throw e

theorem needsAll_take (check : Check) (n : Nat) : NeedsAll (take check n) := by
  intro c d a hc h c' hc' _ hlt
  obtain ⟨bs, ⟨hbs, _⟩, _, rfl⟩ := (accepts_take n c hc a d).1 h
  have hvalid : c'.pos ≤ c'.bytes.size := hc'
  rw [Cursor.length_rest, Cursor.pos_skip] at hlt
  exact ⟨check, c', take_of_lt (by omega)⟩

theorem needsAll_ite {P : Prop} [Decidable P] {y : Reader α} (hx : P → NeedsAll x)
    (hy : ¬ P → NeedsAll y) : NeedsAll (if P then x else y) := by
  split
  · exact hx ‹_›
  · exact hy ‹_›

theorem NeedsAll.bind (nx : NeedsAll x) (hx : x.Accepts p) {f : α → Reader β}
    (nf : ∀ a, NeedsAll (f a)) : NeedsAll (x >>= f) := by
  intro c d b hc h c' hc' hrest hlt
  obtain ⟨a, m, ha, hb⟩ := bind_ok_iff.1 h
  obtain ⟨bs, hbs, hbrest, rfl⟩ := (hx c hc a m).1 ha
  by_cases hle : bs.length ≤ c'.rest.length
  · have hbrest' : bs <+: c'.rest := List.prefix_of_prefix_length_le hbrest hrest hle
    have ha' := hx.read hc' hbs hbrest'
    rw [bind_ok ha']
    refine nf a (hc.skip hbrest) hb (hc'.skip hbrest') ?_ ?_
    · rw [Cursor.rest_skip, Cursor.rest_skip]
      exact hrest.drop bs.length
    · rw [Cursor.rest_skip, List.length_drop, Cursor.pos_skip]
      omega
  · obtain ⟨check, d', hd'⟩ := nx hc ha hc' hrest (by rw [Cursor.pos_skip]; omega)
    exact ⟨check, d', bind_error hd'⟩

theorem NeedsAll.map (nx : NeedsAll x) (hx : x.Accepts p) (f : α → β) : NeedsAll (f <$> x) :=
  nx.bind hx fun a ↦ needsAll_pure (f a)

theorem NeedsAll.times (nx : NeedsAll x) (hx : x.Accepts p) (n : Nat) :
    NeedsAll (Reader.times x n) := by
  induction n with
  | zero => exact needsAll_pure []
  | succ n ih => exact nx.bind hx fun a ↦ ih.map (hx.times n) (List.cons a)

theorem needsAll_nat (n : Nat) : NeedsAll (nat n) :=
  (needsAll_take .number n).map (accepts_take n) _

theorem needsAll_u8 : NeedsAll u8 := (needsAll_nat 1).map (accepts_nat 1) _

theorem needsAll_u16 : NeedsAll u16 := (needsAll_nat 2).map (accepts_nat 2) _

theorem needsAll_u32 : NeedsAll u32 := (needsAll_nat 4).map (accepts_nat 4) _

theorem needsAll_u64 : NeedsAll u64 := (needsAll_nat 8).map (accepts_nat 8) _

theorem needsAll_i8 : NeedsAll i8 := needsAll_u8.map accepts_u8 _

theorem needsAll_i16 : NeedsAll i16 := needsAll_u16.map accepts_u16 _

theorem needsAll_i64 : NeedsAll i64 := needsAll_u64.map accepts_u64 _

/-- All the bytes of a text are taken before they are looked at. -/
theorem needsAll_text (n : Nat) : NeedsAll (text n) := by
  intro c d s hc h c' hc' hrest hlt
  obtain ⟨bs, ⟨hsize, rfl⟩, _, rfl⟩ := (accepts_text n c hc s d).1 h
  have hvalid : c'.pos ≤ c'.bytes.size := hc'
  have hlength : s.toUTF8.data.toList.length = n := hsize
  rw [Cursor.length_rest, Cursor.pos_skip] at hlt
  have hshort : take .bytes n c' = .error (.outOfBounds .bytes) c' := take_of_lt (by omega)
  exact ⟨.bytes, c', (bind_ok rfl).trans (bind_error hshort)⟩

theorem needsAll_compressedUInt : NeedsAll compressedUInt := by
  refine needsAll_u8.bind accepts_u8 fun lead ↦ needsAll_ite (fun _ ↦ needsAll_pure _) fun _ ↦
    needsAll_ite (fun _ ↦ ?_) fun _ ↦ needsAll_ite (fun _ ↦ ?_) fun _ ↦
    needsAll_ite (fun _ ↦ needsAll_u32) fun _ ↦ needsAll_ite (fun _ ↦ needsAll_pure _) fun _ ↦
    needsAll_ite (fun _ ↦ needsAll_pure _) fun _ ↦ needsAll_throw _
  · exact needsAll_u8.map accepts_u8 _
  · exact needsAll_u8.bind accepts_u8 fun _ ↦ needsAll_u8.bind accepts_u8 fun _ ↦
      needsAll_u8.map accepts_u8 _

theorem needsAll_compressedInt : NeedsAll compressedInt :=
  needsAll_compressedUInt.map accepts_compressedUInt _

end Reader

end MetadataDump
