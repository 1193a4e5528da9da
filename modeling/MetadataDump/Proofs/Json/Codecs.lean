import MetadataDump.Json.Codec
import MetadataDump.Proofs.Json.RoundTrip

namespace MetadataDump.Json

/-- The JSON form of `a` is read as `a`, and its text as that form. -/
structure RoundTrips {α : Type} [Codec α] (a : α) : Prop where
  decode : decode? (encode a) = some a
  written : Written (encode a)

class LawfulCodec (α : Type) [Codec α] : Prop where
  roundTrips (a : α) : RoundTrips a

export LawfulCodec (roundTrips)

theorem mapM_eq_some_map {α β γ : Type} {f : β → Option γ} {g : α → β} {r : α → γ} {as : List α}
    (h : ∀ a ∈ as, f (g a) = some (r a)) : (as.map g).mapM f = some (as.map r) := by
  induction as with
  | nil => rfl
  | cons a as ih =>
    obtain ⟨ha, has⟩ := List.forall_mem_cons.1 h
    rw [List.map_cons, List.mapM_cons, ha, ih has]
    rfl

section Scalars

theorem toInt?_ofInt (n : Int) : (Numeral.ofInt n).toInt? = some n := by
  have hplain : ¬ (decide (n < 0) = true ∧ n.natAbs = 0) := by
    rw [decide_eq_true_eq]
    omega
  have hvalue : (if decide (n < 0) then -(n.natAbs : Int) else n.natAbs) = n := by
    simp only [decide_eq_true_eq]
    omega
  unfold Numeral.toInt? Numeral.ofInt
  rw [if_pos ⟨rfl, rfl, hplain⟩]
  exact congrArg some hvalue

theorem ofNat_eq_ofInt (n : Nat) : ofNat n = ofInt n := by
  have hsign : decide ((n : Int) < 0) = false := decide_eq_false (by omega)
  unfold ofNat ofInt
  rw [hsign, Int.natAbs_natCast]

theorem intWithin?_ofInt {low high n : Int} (h : low ≤ n ∧ n ≤ high) :
    intWithin? low high (ofInt n) = some n := by
  have hint : int? (ofInt n) = some n := toInt?_ofInt n
  unfold intWithin?
  rw [hint, Option.bind_eq_bind, Option.bind_some, if_pos h]

/-- An integer type is given by its bounds and a map from the integers between them. -/
theorem roundTrips_int {α : Type} [Codec α] {a : α} {n low high : Int} {back : Int → α}
    (hencode : encode a = ofInt n) (hdecode : ∀ v, decode? v = back <$> intWithin? low high v)
    (hn : low ≤ n ∧ n ≤ high) (hback : back n = a) : RoundTrips a where
  decode := by
    rw [hencode, hdecode, intWithin?_ofInt hn, Option.map_eq_map, Option.map_some, hback]
  written := by
    rw [hencode]
    exact .number _

theorem roundTrips_nat {α : Type} [Codec α] {a : α} {n : Nat} {back : Nat → α} (bound : Nat)
    (hencode : encode a = ofNat n)
    (hdecode : ∀ v, decode? v = (fun i ↦ back i.toNat) <$> intWithin? 0 bound v)
    (hn : n ≤ bound) (hback : back n = a) : RoundTrips a :=
  roundTrips_int (hencode.trans (ofNat_eq_ofInt n)) hdecode ⟨by omega, by omega⟩ hback

instance : LawfulCodec Bool := ⟨fun b ↦ ⟨rfl, .bool b⟩⟩

instance : LawfulCodec String := ⟨fun s ↦ ⟨rfl, .string s⟩⟩

instance : LawfulCodec UInt8 where
  roundTrips n :=
    roundTrips_nat 0xFF rfl (fun _ ↦ rfl) (Nat.le_of_lt_succ n.toNat_lt)
      UInt8.ofNat_toNat

instance : LawfulCodec UInt16 where
  roundTrips n :=
    roundTrips_nat 0xFFFF rfl (fun _ ↦ rfl) (Nat.le_of_lt_succ n.toNat_lt)
      UInt16.ofNat_toNat

instance : LawfulCodec UInt32 where
  roundTrips n :=
    roundTrips_nat 0xFFFFFFFF rfl (fun _ ↦ rfl) (Nat.le_of_lt_succ n.toNat_lt)
      UInt32.ofNat_toNat

instance : LawfulCodec UInt64 where
  roundTrips n :=
    roundTrips_nat 0xFFFFFFFFFFFFFFFF rfl (fun _ ↦ rfl) (Nat.le_of_lt_succ n.toNat_lt)
      UInt64.ofNat_toNat

instance : LawfulCodec Int32 where
  roundTrips n :=
    roundTrips_int rfl (fun _ ↦ rfl) ⟨n.le_toInt, Int.le_of_lt_add_one n.toInt_lt⟩
      (Int32.ofInt_toInt n)

instance : LawfulCodec Int64 where
  roundTrips n :=
    roundTrips_int rfl (fun _ ↦ rfl) ⟨n.le_toInt, Int.le_of_lt_add_one n.toInt_lt⟩
      (Int64.ofInt_toInt n)

end Scalars

section Containers

variable {α : Type} [Codec α]

theorem mapM_decode? {xs : List α} (h : ∀ a ∈ xs, RoundTrips a) :
    (xs.map encode).mapM (decode? (α := α)) = some xs := by
  have hall := mapM_eq_some_map (r := id) fun a ha ↦ (h a ha).decode
  rwa [List.map_id] at hall

theorem written_array {xs : List α} (h : ∀ a ∈ xs, RoundTrips a) :
    Written (.array (xs.map encode)) := by
  apply Written.array
  intro v hv
  obtain ⟨a, ha, rfl⟩ := List.mem_map.1 hv
  exact (h a ha).written

theorem roundTrips_list {xs : List α} (h : ∀ a ∈ xs, RoundTrips a) : RoundTrips xs :=
  ⟨mapM_decode? h, written_array h⟩

theorem roundTrips_array {xs : Array α} (h : ∀ a ∈ xs.toList, RoundTrips a) :
    RoundTrips xs where
  decode := by
    show List.toArray <$> (xs.toList.map encode).mapM decode? = some xs
    rw [mapM_decode? h]
    rfl
  written := written_array h

instance [LawfulCodec α] : LawfulCodec (List α) :=
  ⟨fun _ ↦ roundTrips_list fun a _ ↦ roundTrips a⟩

instance [LawfulCodec α] : LawfulCodec (Array α) :=
  ⟨fun _ ↦ roundTrips_array fun a _ ↦ roundTrips a⟩

instance : LawfulCodec ByteArray where
  roundTrips bytes :=
    { decode := by
        show (fun bs : List UInt8 ↦ ByteArray.mk bs.toArray) <$>
          (bytes.data.toList.map encode).mapM decode? = some bytes
        rw [mapM_decode? fun b _ ↦ roundTrips b]
        rfl
      written := written_array fun b _ ↦ roundTrips b }

/-- The form of a value that is there must not be the form of one that is not. -/
theorem roundTrips_option [LawfulCodec α] (h : ∀ a : α, encode a ≠ .null) (x : Option α) :
    RoundTrips x := by
  cases x with
  | none => exact ⟨rfl, .null⟩
  | some a =>
    have hdecode : ∀ v : Json, v ≠ .null →
        decode? (α := Option α) v = some <$> decode? (α := α) v := by
      intro v hv
      cases v with
      | null => exact absurd rfl hv
      | _ => rfl
    constructor
    · show decode? (α := Option α) (encode a) = _
      rw [hdecode _ (h a), (roundTrips a).decode]
      rfl
    · exact (roundTrips a).written

instance : LawfulCodec (Option String) := ⟨roundTrips_option fun _ h ↦ Json.noConfusion h⟩

instance : LawfulCodec (Option UInt8) := ⟨roundTrips_option fun _ h ↦ Json.noConfusion h⟩

end Containers

section Maps

class LawfulKey (κ : Type) [Key κ] : Prop where
  read?_write (k : κ) : Key.read? (Name.ofString (Key.write k)) = some k

theorem needsEscape_eq_false_of_isDigit {c : Char} (h : c.isDigit) : needsEscape c = false := by
  have hrange : '0' ≤ c ∧ c ≤ '9' := by
    unfold Char.isDigit at h
    rw [Bool.and_eq_true, decide_eq_true_eq, decide_eq_true_eq] at h
    exact h
  have hquote : c ≠ '"' := by
    rintro rfl
    exact absurd hrange (by decide)
  have hslash : c ≠ '\\' := by
    rintro rfl
    exact absurd hrange (by decide)
  have hcontrol : ¬ c < ' ' := by
    intro hc
    exact absurd (lt_of_le_of_lt hrange.1 hc) (by decide)
  unfold needsEscape
  simp [hquote, hslash, hcontrol]

theorem needsEscape_of_mem_ofInt {n : Int} {c : Char} (hc : c ∈ (Numeral.ofInt n).chars) :
    needsEscape c = false := by
  have hmem : c ∈ (if n < 0 then ['-'] else []) ++ Nat.toDigits 10 n.natAbs := by
    simpa [Numeral.chars, Numeral.ofInt] using hc
  rcases List.mem_append.1 hmem with hsign | hdigit
  · split at hsign
    · rcases List.mem_singleton.1 hsign with rfl
      decide
    · cases hsign
  · exact needsEscape_eq_false_of_isDigit
      (Nat.isDigit_of_mem_toDigits (by decide) (by decide) hdigit)

theorem numeral?_chars (n : Int) :
    numeral? (.ofString (String.ofList (Numeral.ofInt n).chars)) = some (ofInt n) := by
  have hplain : (Numeral.ofInt n).chars.any needsEscape = false := by
    rw [List.any_eq_false]
    intro c hc
    rw [needsEscape_of_mem_ofInt hc]
    decide
  unfold numeral? Name.ofString
  rw [String.toList_ofList, hplain, if_neg Bool.false_ne_true, Numeral.ofString?_chars]
  rfl

instance : LawfulKey String := ⟨fun _ ↦ rfl⟩

instance : LawfulKey UInt64 where
  read?_write n := by
    show numeral? (.ofString (String.ofList (Numeral.ofInt n.toNat).chars)) >>= decode? = some n
    rw [numeral?_chars, ← ofNat_eq_ofInt]
    exact (roundTrips n).decode

instance : LawfulKey Int32 where
  read?_write n := by
    show numeral? (.ofString (String.ofList (Numeral.ofInt n.toInt).chars)) >>= decode? = some n
    rw [numeral?_chars]
    exact (roundTrips n).decode

variable {κ α : Type} [Ord κ] [Std.TransOrd κ]

theorem foldl_insert_toList [Std.LawfulEqOrd κ] [DecidableEq κ]
    (m : Std.ExtTreeMap κ α) : m.toList.foldl (fun m p ↦ m.insert p.1 p.2) ∅ = m := by
  rw [← Std.ExtTreeMap.ofList_eq_foldl]
  apply Std.ExtTreeMap.ext_getElem?
  intro k
  cases hk : m[k]? with
  | some a =>
    have hmem := Std.ExtTreeMap.mem_toList_iff_getElem?_eq_some.2 hk
    exact Std.ExtTreeMap.getElem?_ofList_of_mem Std.ReflCmp.compare_self
      Std.ExtTreeMap.distinct_keys_toList hmem
  | none =>
    apply Std.ExtTreeMap.getElem?_ofList_of_contains_eq_false
    rw [← Bool.not_eq_true, List.contains_iff_mem, List.mem_map]
    rintro ⟨p, hp, rfl⟩
    rw [Std.ExtTreeMap.mem_toList_iff_getElem?_eq_some.1 hp] at hk
    cases hk

variable [Key κ] [LawfulKey κ] [Codec α]

theorem foldlM_insertMember {l : List (κ × α)} (h : ∀ p ∈ l, RoundTrips p.2)
    (m : Std.ExtTreeMap κ α) :
    (l.map fun (k, a) ↦ (Name.ofString (Key.write k), encode a)).foldlM insertMember m =
      some (l.foldl (fun m p ↦ m.insert p.1 p.2) m) := by
  induction l generalizing m with
  | nil => rfl
  | cons p l ih =>
    obtain ⟨hp, hl⟩ := List.forall_mem_cons.1 h
    have hinsert : insertMember m (Name.ofString (Key.write p.1), encode p.2) =
        some (m.insert p.1 p.2) := by
      unfold insertMember
      rw [LawfulKey.read?_write, hp.decode]
      rfl
    rw [List.map_cons, List.foldlM_cons, hinsert]
    exact ih hl _

variable [Std.LawfulEqOrd κ] [DecidableEq κ]

theorem roundTrips_map {m : Std.ExtTreeMap κ α}
    (h : ∀ (k : κ) (a : α), m[k]? = some a → RoundTrips a) : RoundTrips m := by
  have hvalues : ∀ p ∈ m.toList, RoundTrips p.2 := by
    intro p hp
    exact h p.1 p.2 (Std.ExtTreeMap.mem_toList_iff_getElem?_eq_some.1 hp)
  constructor
  · show List.foldlM insertMember ∅ _ = some m
    rw [foldlM_insertMember hvalues, foldl_insert_toList]
  · apply Written.object
    · intro member hmember
      obtain ⟨p, -, rfl⟩ := List.mem_map.1 hmember
      rfl
    · intro member hmember
      obtain ⟨p, hp, rfl⟩ := List.mem_map.1 hmember
      exact (hvalues p hp).written

instance [LawfulCodec α] : LawfulCodec (Std.ExtTreeMap κ α) :=
  ⟨fun _ ↦ roundTrips_map fun _ a _ ↦ roundTrips a⟩

end Maps

section Records

theorem single?_of_mem {members : List (String × Json)} (h : (members.map Prod.fst).Nodup)
    {m : String × Json} (hm : m ∈ members) :
    single? (members.map (Prod.map Name.ofString id)) m.1 = some (some m.2) := by
  have hfilter : (members.map (Prod.map Name.ofString id)).filter (·.1.text == m.1) =
      [(Name.ofString m.1, m.2)] := by
    induction members with
    | nil => cases hm
    | cons n members ih =>
      obtain ⟨hn, hmembers⟩ := List.nodup_cons.1 h
      rw [List.map_cons]
      rcases List.mem_cons.1 hm with rfl | hm
      · have hrest : (members.map (Prod.map Name.ofString id)).filter (·.1.text == m.1) = [] := by
          rw [List.filter_eq_nil_iff]
          intro n' hn' heq
          obtain ⟨p, hp, rfl⟩ := List.mem_map.1 hn'
          exact hn (eq_of_beq heq ▸ List.mem_map_of_mem hp)
        rw [List.filter_cons, hrest]
        exact if_pos (beq_self_eq_true m.1)
      · have hne : ¬ (n.1 == m.1) = true := by
          intro heq
          exact hn (eq_of_beq heq ▸ List.mem_map_of_mem hm)
        rw [List.filter_cons, ih hmembers hm]
        exact if_neg hne
  unfold single?
  rw [hfilter]

theorem fields?_record {names : List String} (hnames : names.Nodup) {values : List Json}
    (hlength : names.length = values.length) :
    fields? names (record names values) = some (values.map some) := by
  have hfst : (names.zip values).map Prod.fst = names := List.map_fst_zip hlength.le
  have hsnd : (names.zip values).map Prod.snd = values := List.map_snd_zip hlength.ge
  have hmembers : (names.map Name.ofString).zip values =
      (names.zip values).map (Prod.map Name.ofString id) := List.zip_map_left
  have hnodup : ((names.zip values).map Prod.fst).Nodup := by rwa [hfst]
  have hall := mapM_eq_some_map (r := some ∘ Prod.snd)
    fun m (hm : m ∈ names.zip values) ↦ single?_of_mem hnodup hm
  rw [hfst, ← List.map_map, hsnd, ← hmembers] at hall
  exact hall

/-- The reader takes `values` to be the fields of `b`, and uses them up. -/
structure Gives {β : Type} (read : FieldReader β) (values : List Json) (b : β) : Prop where
  reads : read.run (values.map some) = some (b, [])
  written : ∀ v ∈ values, Written v

namespace Gives

variable {α β : Type} [Codec α] {read : FieldReader β} {f : α → FieldReader β}
  {values : List Json} {b : β}

theorem pure (b : β) : Gives (Pure.pure b) [] b := ⟨rfl, by simp⟩

theorem field {a : α} (ha : RoundTrips a) {field : FieldReader α}
    (hfield : ∀ rest, field.run (some (encode a) :: rest) = some (a, rest))
    (h : Gives (f a) values b) : Gives (field >>= f) (encode a :: values) b where
  reads := by
    rw [List.map_cons, StateT.run_bind, hfield]
    exact h.reads
  written := List.forall_mem_cons.2 ⟨ha.written, h.written⟩

theorem optional_of {a : α} (ha : RoundTrips a) (missing : α) (h : Gives (f a) values b) :
    Gives (optional missing >>= f) (encode a :: values) b := by
  apply field ha _ h
  intro rest
  show (decode? (encode a)).bind (fun a ↦ some (a, rest)) = some (a, rest)
  rw [ha.decode]
  rfl

theorem optional [LawfulCodec α] {a : α} {missing : α} (h : Gives (f a) values b) :
    Gives (Json.optional missing >>= f) (encode a :: values) b :=
  optional_of (roundTrips a) missing h

theorem required [LawfulCodec α] {a : α} (h : Gives (f a) values b) :
    Gives (Json.required >>= f) (encode a :: values) b := by
  have ha := roundTrips a
  apply field ha _ h
  intro rest
  show (decode? (encode a)).bind (fun a ↦ some (a, rest)) = some (a, rest)
  rw [ha.decode]
  rfl

end Gives

theorem Gives.roundTrips {β : Type} [Codec β] {read : FieldReader β} {names : List String}
    {values : List Json} {b : β} (h : Gives read values b) (hnames : names.Nodup)
    (hlength : names.length = values.length) (hencode : encode b = record names values)
    (hdecode : ∀ v, decode? v = readRecord names read v) : RoundTrips b where
  decode := by
    rw [hencode, hdecode, readRecord, fields?_record hnames hlength, Option.bind_eq_bind,
      Option.bind_some, StateT.run'_eq, h.reads]
    rfl
  written := by
    rw [hencode]
    apply Written.object
    · intro m hm
      obtain ⟨name, -, hname⟩ := List.mem_map.1 (List.of_mem_zip hm).1
      rw [← hname]
      rfl
    · intro m hm
      exact h.written _ (List.of_mem_zip hm).2

end Records

end MetadataDump.Json
