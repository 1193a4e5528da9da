import MetadataDump.Proofs.Attribute.Forms

namespace MetadataDump

namespace Reader

variable {s : Snapshot}

theorem accepts_valueType : (valueType s).Accepts (TypeForm s) := by
  refine (accepts_u8.bind fun tag ↦ accepts_ite (fun _ ↦ accepts_compressedInt.bind_idle fun i ↦
    accepts_lift_bind fun element ↦ accepts_lift_bind fun name ↦ accepts_pure _)
    fun _ ↦ accepts_pure _).congr fun bs t ↦ ?_
  rw [byte_bind_iff]
  constructor
  · rintro ⟨tag, ds, rfl, h⟩
    split at h
    · rename_i htag
      obtain ⟨i, hi, element, helement, name, hname, rfl⟩ := h
      obtain ⟨entry, hentry, helement⟩ := Snapshot.enumElement_eq_ok_iff.1 helement
      obtain ⟨entry', hentry', rfl⟩ := Snapshot.typeName_eq_ok_iff.1 hname
      obtain rfl := hentry.unique hentry'
      rw [htag]
      exact .enumeration hi hentry helement
    · rename_i htag
      obtain ⟨rfl, rfl⟩ := h
      exact .plain htag
  · intro h
    cases h with
    | @plain tag htag => exact ⟨tag, [], rfl, by rw [if_neg htag]; exact ⟨rfl, rfl⟩⟩
    | @enumeration ds i entry element hi hentry helement =>
      obtain ⟨k, rfl⟩ := hi.exists_toInt_eq
      refine ⟨0x55, ds, rfl, ?_⟩
      rw [if_pos rfl]
      exact ⟨k, hi, element, Snapshot.enumElement_eq_ok_iff.2 ⟨entry, hentry, helement⟩,
        entry.name, Snapshot.typeName_eq_ok_iff.2 ⟨entry, hentry, rfl⟩, rfl⟩

theorem accepts_length? (invalid : Int32 → Damage) :
    (length? invalid).Accepts fun bs n ↦ IntForm (n.elim (-1) Nat.cast) bs := by
  refine (accepts_compressedInt.bind_idle fun n ↦ accepts_ite_idle (fun _ ↦ accepts_pure _) fun _ ↦
    accepts_ite_idle (fun _ ↦ accepts_throw_idle _) fun _ ↦ accepts_pure _).congr fun bs n ↦ ?_
  have hminus : ∀ k : Int32, k = -1 ↔ k.toInt = -1 := fun k ↦ Int32.toInt_inj.symm
  have hneg : ∀ k : Int32, k < 0 ↔ k.toInt < 0 := fun k ↦ Int32.lt_iff_toInt_lt
  simp only [hminus, hneg]
  constructor
  · rintro ⟨k, hk, h⟩
    split at h
    · rename_i hk'
      subst h
      rwa [Option.elim_none, ← hk']
    · split at h
      · exact h.elim
      · subst h
        rwa [Option.elim_some, Int.toNat_of_nonneg (by omega)]
  · intro h
    obtain ⟨k, hk⟩ := h.exists_toInt_eq
    refine ⟨k, show IntForm _ bs by rwa [hk], ?_⟩
    cases n with
    | none => exact (if_pos hk).symm ▸ rfl
    | some n =>
      rw [Option.elim_some] at hk
      rw [if_neg (by omega), if_neg (by omega), hk]
      rfl

theorem accepts_length?_bind (invalid : Int32 → Damage) {g : Nat → Reader Argument}
    {q : Nat → Form Argument} (hg : ∀ n, (g n).Accepts (q n)) :
    (length? invalid >>= fun n ↦
      match n with
      | none => pure .null
      | some n => g n : Reader Argument).Accepts fun bs v ↦
        IntForm (-1) bs ∧ v = .null ∨
          ∃ (n : Nat) (cs ds : List UInt8), bs = cs ++ ds ∧ IntForm n cs ∧ q n ds v := by
  refine ((accepts_length? invalid).bind (r := fun n bs v ↦
    n.elim (bs = [] ∧ v = .null) fun n ↦ q n bs v) fun n ↦ ?_).congr fun bs v ↦ ⟨?_, ?_⟩
  · cases n with
    | none => exact accepts_pure _
    | some n => exact hg n
  · rintro ⟨cs, ds, n, rfl, hn, h⟩
    cases n with
    | none =>
      obtain ⟨rfl, rfl⟩ := h
      rw [List.append_nil]
      exact .inl ⟨hn, rfl⟩
    | some n => exact .inr ⟨n, cs, ds, rfl, hn, h⟩
  · rintro (⟨hn, rfl⟩ | ⟨n, cs, ds, rfl, hn, h⟩)
    · exact ⟨bs, [], none, (List.append_nil bs).symm, hn, rfl, rfl⟩
    · exact ⟨cs, ds, some n, rfl, hn, h⟩

section Payload

variable {inner : ValueType → Form Argument} {f : ValueType → Reader Argument}

theorem payloadForm_iff_scalarForm {tag : Nat} {bs : List UInt8} {v : Argument}
    (htag : tag ∉ [0x0E, 0x1C, 0x1D, 0xFF]) :
    PayloadForm s inner tag bs v ↔ ScalarForm tag bs v := by
  constructor
  · intro h
    cases h with
    | scalar h => exact h
    | _ => simp at htag
  · exact .scalar

theorem Accepts.scalar {x : Reader Argument} {tag : Nat} (hx : x.Accepts (ScalarForm tag))
    (htag : tag ∉ [0x0E, 0x1C, 0x1D, 0xFF]) : x.Accepts (PayloadForm s inner tag) :=
  hx.congr fun _ _ ↦ (payloadForm_iff_scalarForm htag).symm

theorem accepts_textPayload :
    (length? .textLength >>= fun n ↦
      match n with
      | none => pure .null
      | some n => Argument.string <$> text n : Reader Argument).Accepts
      (PayloadForm s inner 0x0E) := by
  refine (accepts_length?_bind _ fun n ↦ (accepts_text n).map Argument.string).congr
    fun bs v ↦ ⟨?_, ?_⟩
  · rintro (⟨hn, rfl⟩ | ⟨n, cs, ds, rfl, hn, text, ⟨rfl, rfl⟩, rfl⟩)
    · exact .nullString hn
    · exact .string hn
  · intro h
    cases h with
    | scalar h => exact h.elim
    | nullString hn => exact .inl ⟨hn, rfl⟩
    | @string text cs hn =>
      exact .inr ⟨text.utf8ByteSize, cs, _, rfl, hn, text, ⟨rfl, rfl⟩, rfl⟩

theorem accepts_typePayload :
    (compressedInt >>= fun index ↦ if index = -1 then pure .null
      else Argument.type <$> lift (s.typeName index) : Reader Argument).Accepts
      (PayloadForm s inner 0xFF) := by
  refine (accepts_compressedInt.bind_idle fun i ↦ accepts_ite_idle (fun _ ↦ accepts_pure _)
    fun _ ↦ accepts_lift_bind fun name ↦ accepts_pure (Argument.type name)).congr
    fun bs v ↦ ⟨?_, ?_⟩
  · rintro ⟨i, hi, h⟩
    split at h
    · rename_i he
      subst h he
      exact .nullType hi
    · obtain ⟨name, hname, rfl⟩ := h
      obtain ⟨entry, hentry, rfl⟩ := Snapshot.typeName_eq_ok_iff.1 hname
      exact .type hi hentry
  · intro h
    cases h with
    | scalar h => exact h.elim
    | nullType hi => exact ⟨-1, hi, rfl⟩
    | @type _ i entry hi hentry =>
      obtain ⟨k, rfl⟩ := hi.exists_toInt_eq
      have hk : k ≠ -1 := by
        rintro rfl
        exact absurd hentry.1 (by decide)
      refine ⟨k, hi, ?_⟩
      rw [if_neg hk]
      exact ⟨entry.name, Snapshot.typeName_eq_ok_iff.2 ⟨entry, hentry, rfl⟩, rfl⟩

theorem accepts_arrayPayload (hf : ∀ t, (f t).Accepts (inner t)) :
    (length? .arrayLength >>= fun n ↦
      match n with
      | none => pure .null
      | some n => valueType s >>= fun element ↦ u8 >>= fun flag ↦ Argument.array <$>
          times (if flag = 1 then valueType s >>= f else f element) n : Reader Argument).Accepts
      (PayloadForm s inner 0x1D) := by
  let element (t : ValueType) (flag : UInt8) : Form Argument := fun bs a ↦
    if flag = 1 then (TypeForm s).bind inner bs a else inner t bs a
  have helements : ∀ t flag n, (Argument.array <$>
      times (if flag = 1 then valueType s >>= f else f t) n : Reader Argument).Accepts
      fun bs v ↦ ∃ as, (as.length = n ∧ (element t flag).Sequence bs as) ∧ v = .array as :=
    fun t flag n ↦
      ((accepts_ite (fun _ ↦ accepts_valueType.bind hf) fun _ ↦ hf t).times n).map _
  refine (accepts_length?_bind _ fun n ↦ accepts_valueType.bind fun t ↦ accepts_u8.bind fun flag ↦
    helements t flag n).congr fun bs v ↦ ⟨?_, ?_⟩
  · rintro (⟨hn, rfl⟩ |
      ⟨n, cs, _, rfl, hn, ts, _, t, rfl, ht, _, es, flag, rfl, rfl, as, ⟨rfl, has⟩, rfl⟩)
    · exact .nullArray hn
    by_cases hflag : flag = 1
    · subst hflag
      exact .mixed hn ht has
    · simp only [element, hflag, if_false] at has
      exact .uniform hn ht hflag has
  · intro h
    cases h with
    | scalar h => exact h.elim
    | nullArray hn => exact .inl ⟨hn, rfl⟩
    | @uniform cs ts ds t flag as hn ht hflag has =>
      refine .inr ⟨as.length, cs, _, rfl, hn, ts, _, t, rfl, ht, [flag], ds, flag, rfl, rfl, as,
        ⟨rfl, ?_⟩, rfl⟩
      simpa only [element, hflag, if_false] using has
    | @mixed cs ts ds t as hn ht has =>
      exact .inr ⟨as.length, cs, _, rfl, hn, ts, _, t, rfl, ht, [1], ds, 1, rfl, rfl, as,
        ⟨rfl, has⟩, rfl⟩

theorem accepts_boolPayload : (u8 >>= fun b ↦ pure (.bool (b ≠ 0)) : Reader Argument).Accepts
    (ScalarForm 0x02) := accepts_u8.bind_idle fun _ ↦ accepts_pure _

theorem accepts_boxedPayload (hf : ∀ t, (f t).Accepts (inner t)) :
    (valueType s >>= f).Accepts (PayloadForm s inner 0x1C) := by
  refine (accepts_valueType.bind hf).congr fun bs v ↦ ⟨.boxed, fun h ↦ ?_⟩
  cases h with
  | scalar h => exact h.elim
  | boxed h => exact h

theorem tag_of_payloadForm {tag : Nat} {bs : List UInt8} {v : Argument}
    (h : PayloadForm s inner tag bs v) :
    2 ≤ tag ∧ tag ≤ 0x0E ∨ tag = 0x1C ∨ tag = 0x1D ∨ tag = 0xFF := by
  cases h with
  | scalar h =>
    unfold ScalarForm at h
    split at h <;> first | omega | exact h.elim
  | _ => omega

theorem accepts_payload (hf : ∀ t, (f t).Accepts (inner t)) (tag : UInt8) :
    (payload s f tag).Accepts (PayloadForm s inner tag.toNat) := by
  unfold payload
  split
  all_goals rename_i htag
  · exact htag ▸ accepts_boolPayload.scalar (by decide)
  · exact htag ▸ Accepts.scalar (accepts_u16.map Argument.char) (by decide)
  · exact htag ▸ Accepts.scalar (accepts_i8.map Argument.i1) (by decide)
  · exact htag ▸ Accepts.scalar (accepts_u8.map Argument.u1) (by decide)
  · exact htag ▸ Accepts.scalar (accepts_i16.map Argument.i2) (by decide)
  · exact htag ▸ Accepts.scalar (accepts_u16.map Argument.u2) (by decide)
  · exact htag ▸ Accepts.scalar (accepts_compressedInt.map Argument.i4) (by decide)
  · exact htag ▸ Accepts.scalar (accepts_compressedUInt.map Argument.u4) (by decide)
  · exact htag ▸ Accepts.scalar (accepts_i64.map Argument.i8) (by decide)
  · exact htag ▸ Accepts.scalar (accepts_u64.map Argument.u8) (by decide)
  · exact htag ▸ Accepts.scalar (accepts_u32.map Argument.r4) (by decide)
  · exact htag ▸ Accepts.scalar (accepts_u64.map Argument.r8) (by decide)
  · exact htag ▸ accepts_textPayload
  · exact htag ▸ accepts_boxedPayload hf
  · exact htag ▸ accepts_arrayPayload hf
  · exact htag ▸ accepts_typePayload
  · refine (accepts_throw _).congr fun bs v ↦ ⟨False.elim, fun h ↦ ?_⟩
    have htag := tag_of_payloadForm h
    simp only [imp_false] at *
    omega

end Payload

theorem accepts_valueOf (room : Nat) (t : ValueType) :
    (valueOf s room t).Accepts (ValueForm s room t) := by
  induction room generalizing t with
  | zero => exact accepts_throw _
  | succ room ih => exact (accepts_payload ih t.tag).map t.wrap

theorem accepts_value (depth : Nat) : (value s depth).Accepts (TypedForm s depth) :=
  accepts_valueType.bind fun t ↦ accepts_valueOf _ t

end Reader

end MetadataDump
