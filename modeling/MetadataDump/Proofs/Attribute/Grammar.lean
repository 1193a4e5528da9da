import MetadataDump.Proofs.Attribute.Values

namespace MetadataDump

def LeafForm (s : Snapshot) : Form Argument :=
  (TypeForm s).bind fun t bs v ↦
    ∃ w, PayloadForm s (fun _ _ _ ↦ False) t.tag.toNat bs w ∧ v = t.wrap w

def boxes (n : Nat) (bs : List UInt8) : List UInt8 := List.replicate n 0x1C ++ bs

theorem boxes_succ (n : Nat) (bs : List UInt8) : boxes (n + 1) bs = 0x1C :: boxes n bs := rfl

theorem length_boxes (n : Nat) (bs : List UInt8) : (boxes n bs).length = n + bs.length := by
  rw [boxes, List.length_append, List.length_replicate]

section Forms

variable {s : Snapshot} {inner inner' : ValueType → Form Argument}

theorem Form.Sequence.mono {α : Type} {p q : Form α} (h : ∀ bs a, p bs a → q bs a)
    {bs : List UInt8} {as : List α} (hs : p.Sequence bs as) : q.Sequence bs as := by
  induction hs with
  | nil => exact .nil
  | cons ha _ ih => exact .cons (h _ _ ha) ih

theorem bind_typeForm_mono (h : ∀ t bs v, inner t bs v → inner' t bs v) (bs : List UInt8)
    (v : Argument) (hb : (TypeForm s).bind inner bs v) : (TypeForm s).bind inner' bs v := by
  obtain ⟨cs, ds, t, hbs, ht, hv⟩ := hb
  exact ⟨cs, ds, t, hbs, ht, h t ds v hv⟩

theorem PayloadForm.mono (h : ∀ t bs v, inner t bs v → inner' t bs v) {tag : Nat}
    {bs : List UInt8} {v : Argument} (hp : PayloadForm s inner tag bs v) :
    PayloadForm s inner' tag bs v := by
  cases hp with
  | scalar hv => exact .scalar hv
  | nullString hn => exact .nullString hn
  | string hn => exact .string hn
  | boxed hb => exact .boxed (bind_typeForm_mono h _ _ hb)
  | nullArray hn => exact .nullArray hn
  | @uniform _ _ _ t _ _ hn ht hflag hvs => exact .uniform hn ht hflag (hvs.mono (h t))
  | mixed hn ht hvs => exact .mixed hn ht (hvs.mono (bind_typeForm_mono h))
  | nullType hn => exact .nullType hn
  | type hi hentry => exact .type hi hentry

theorem TypeForm.ne_nil {bs : List UInt8} {t : ValueType} (h : TypeForm s bs t) : bs ≠ [] := by
  cases h <;> simp

theorem TypedForm.ne_nil {depth : Nat} {bs : List UInt8} {v : Argument}
    (h : TypedForm s depth bs v) : bs ≠ [] := by
  obtain ⟨cs, ds, t, rfl, ht, _⟩ := h
  simp [ht.ne_nil]

theorem bind_typeForm_cons_iff {tag : UInt8} (htag : tag ≠ 0x55) {bs : List UInt8}
    {v : Argument} : (TypeForm s).bind inner (tag :: bs) v ↔ inner ⟨tag, none⟩ bs v := by
  constructor
  · intro h
    obtain ⟨cs, ds, t, hbs, ht, hv⟩ := h
    cases ht with
    | plain _ =>
      obtain ⟨rfl, rfl⟩ := List.cons.inj hbs
      exact hv
    | enumeration _ _ _ => exact absurd (List.cons.inj hbs).1 htag
  · intro h
    exact ⟨[tag], bs, ⟨tag, none⟩, rfl, .plain htag, h⟩

theorem payloadForm_boxed_iff {bs : List UInt8} {v : Argument} :
    PayloadForm s inner 0x1C bs v ↔ (TypeForm s).bind inner bs v := by
  constructor
  · intro h
    cases h with
    | scalar hv => exact hv.elim
    | boxed hb => exact hb
  · exact .boxed

theorem not_typedForm_of_le {depth : Nat} (h : greatestDepth ≤ depth) (bs : List UInt8)
    (v : Argument) : ¬ TypedForm s depth bs v := by
  intro hv
  rw [TypedForm, Nat.sub_eq_zero_of_le h] at hv
  obtain ⟨_, _, _, _, _, hv⟩ := hv
  exact hv

theorem typedForm_boxed_iff {depth : Nat} {bs : List UInt8} {v : Argument} :
    TypedForm s depth (0x1C :: bs) v ↔ TypedForm s (depth + 1) bs v := by
  by_cases h : greatestDepth ≤ depth
  · exact iff_of_false (not_typedForm_of_le h _ _) (not_typedForm_of_le (Nat.le_succ_of_le h) _ _)
  · obtain ⟨room, hroom⟩ : ∃ room, greatestDepth - depth = room + 1 :=
      Nat.exists_eq_succ_of_ne_zero (by omega)
    have hinner : greatestDepth - (depth + 1) = room := by omega
    rw [TypedForm, TypedForm, hroom, hinner, bind_typeForm_cons_iff (by decide),
      ← payloadForm_boxed_iff]
    constructor
    · intro hv
      obtain ⟨w, hw, rfl⟩ := hv
      exact hw
    · intro hw
      exact ⟨v, hw, rfl⟩

theorem typedForm_of_leafForm {depth : Nat} (h : depth < greatestDepth) {bs : List UInt8}
    {v : Argument} (hv : LeafForm s bs v) : TypedForm s depth bs v := by
  obtain ⟨room, hroom⟩ : ∃ room, greatestDepth - depth = room + 1 :=
    Nat.exists_eq_succ_of_ne_zero (by omega)
  obtain ⟨cs, ds, t, rfl, ht, w, hw, rfl⟩ := hv
  rw [TypedForm, hroom]
  exact ⟨cs, ds, t, rfl, ht, w, hw.mono (fun _ _ _ ↦ False.elim), rfl⟩

theorem typedForm_boxes_iff {n depth : Nat} {bs : List UInt8} {v : Argument} :
    TypedForm s depth (boxes n bs) v ↔ TypedForm s (depth + n) bs v := by
  induction n generalizing depth with
  | zero => rfl
  | succ n ih =>
    rw [boxes_succ, typedForm_boxed_iff, ih, Nat.add_right_comm, Nat.add_assoc]

theorem not_typedForm_of_prefix_boxes {n depth : Nat} (h : greatestDepth ≤ depth + n)
    {bs cs : List UInt8} (hcs : cs <+: boxes n bs) (v : Argument) : ¬ TypedForm s depth cs v := by
  induction n generalizing depth cs with
  | zero => exact not_typedForm_of_le h cs v
  | succ n ih =>
    intro hv
    cases cs with
    | nil => exact hv.ne_nil rfl
    | cons tag cs =>
      rw [boxes_succ, List.cons_prefix_cons] at hcs
      rw [hcs.1, typedForm_boxed_iff] at hv
      exact ih (by omega) hcs.2 hv

end Forms

namespace Reader

variable {s : Snapshot}

theorem grounded_valueType : Grounded (valueType s) := grounded_u8.bind _

theorem grounded_value (depth : Nat) : Grounded (value s depth) := grounded_valueType.bind _

theorem readAt_eq_error_of_not {α : Type} {x : Reader α} {bytes : ByteArray} {i : Nat}
    (h : ∀ a j, readAt x bytes i ≠ (.ok a, j)) : ∃ e j, readAt x bytes i = (.error e, j) := by
  obtain ⟨result, j, hresult⟩ : ∃ result j, readAt x bytes i = (result, j) := ⟨_, _, rfl⟩
  cases result with
  | ok a => exact absurd hresult (h a j)
  | error e => exact ⟨e, j, hresult⟩

theorem readAt_value_iff {bytes : ByteArray} {i j depth : Nat} {v : Argument} :
    readAt (value s depth) bytes i = (.ok v, j) ↔ (TypedForm s depth).At bytes i j v :=
  (accepts_value depth).readAt_iff (grounded_value depth)

/-- The reader of values succeeds at a position exactly if a form of a value stands there, and this
form is the only one. Boxes are opened exactly if there are fewer of them than levels. -/
theorem readAt_value_exact (s : Snapshot) (bytes : ByteArray) (i depth : Nat) :
    (∀ v j, readAt (value s depth) bytes i = (.ok v, j) ↔ (TypedForm s depth).At bytes i j v) ∧
    ((∀ v j, ¬ (TypedForm s depth).At bytes i j v) →
      ∃ e j, readAt (value s depth) bytes i = (.error e, j)) ∧
    (∀ v w j k, (TypedForm s depth).At bytes i j v → (TypedForm s depth).At bytes i k w →
      j = k ∧ v = w) ∧
    ∀ n bs v, LeafForm s bs v →
      (n ≤ 63 → readAt (value s 0) ⟨(boxes n bs).toArray⟩ 0 = (.ok v, n + bs.length)) ∧
      (63 < n → ∃ e j, readAt (value s 0) ⟨(boxes n bs).toArray⟩ 0 = (.error e, j)) := by
  refine ⟨fun v j ↦ readAt_value_iff, fun h ↦ ?_, fun v w j k hv hw ↦ ?_, fun n bs v hv ↦ ⟨?_, ?_⟩⟩
  · exact readAt_eq_error_of_not fun v j hvalue ↦ h v j (readAt_value_iff.1 hvalue)
  · exact (accepts_value depth).at_unique hv hw
  · intro hn
    have hboxes : TypedForm s 0 (boxes n bs) v := by
      rw [typedForm_boxes_iff, Nat.zero_add]
      exact typedForm_of_leafForm (Nat.lt_succ_of_le hn) hv
    rw [← length_boxes]
    exact readAt_value_iff.2 (Form.at_toArray hboxes)
  · intro hn
    refine readAt_eq_error_of_not fun w j hw ↦ ?_
    obtain ⟨_, _, hform⟩ := readAt_value_iff.1 hw
    have hdepth : greatestDepth ≤ 0 + n := by rwa [Nat.zero_add]
    rw [toList_extract_zero] at hform
    exact not_typedForm_of_prefix_boxes hdepth (List.take_prefix j _) w hform

theorem readAt_value_exact_boxes :
    LeafForm (Snapshot.blank ⟨29, 0⟩) [0x0E, 0x01] .null ∧
      readAt (value (Snapshot.blank ⟨29, 0⟩) 0) ⟨(boxes 63 [0x0E, 0x01]).toArray⟩ 0 =
        (.ok .null, 65) ∧
      ∃ e j, readAt (value (Snapshot.blank ⟨29, 0⟩) 0) ⟨(boxes 64 [0x0E, 0x01]).toArray⟩ 0 =
        (.error e, j) := by
  have hminus : IntForm (-1) [0x01] := UIntForm.one (by decide)
  have hleaf : LeafForm (Snapshot.blank ⟨29, 0⟩) [0x0E, 0x01] .null :=
    ⟨[0x0E], [0x01], ⟨0x0E, none⟩, rfl, .plain (by decide), .null, .nullString hminus, rfl⟩
  obtain ⟨_, _, _, hboxes⟩ := readAt_value_exact (Snapshot.blank ⟨29, 0⟩) .empty 0 0
  exact ⟨hleaf, (hboxes 63 _ _ hleaf).1 (by decide), (hboxes 64 _ _ hleaf).2 (by decide)⟩

end Reader

end MetadataDump
