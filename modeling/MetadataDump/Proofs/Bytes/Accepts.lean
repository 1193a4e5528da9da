import Mathlib
import MetadataDump.Attribute.Value

namespace MetadataDump

namespace Cursor

def skip (c : Cursor) (n : Nat) : Cursor := { c with pos := c.pos + n }

@[simp] theorem bytes_skip (c : Cursor) (n : Nat) : (c.skip n).bytes = c.bytes := rfl

@[simp] theorem pos_skip (c : Cursor) (n : Nat) : (c.skip n).pos = c.pos + n := rfl

theorem skip_skip (c : Cursor) (n k : Nat) : (c.skip n).skip k = c.skip (n + k) := by
  rw [skip, skip, skip, Nat.add_assoc]

theorem rest_skip (c : Cursor) (n : Nat) : (c.skip n).rest = c.rest.drop n := by
  rw [rest, rest, List.drop_drop, bytes_skip, pos_skip]

theorem length_rest (c : Cursor) : c.rest.length = c.bytes.size - c.pos := by
  rw [rest, List.length_drop, Array.length_toList]
  rfl

def Valid (c : Cursor) : Prop := c.pos ≤ c.bytes.size

theorem Valid.skip {c : Cursor} (hc : c.Valid) {bs : List UInt8} (h : bs <+: c.rest) :
    (c.skip bs.length).Valid := by
  have hlength := h.length_le
  rw [length_rest] at hlength
  have hpos : c.pos ≤ c.bytes.size := hc
  show c.pos + bs.length ≤ c.bytes.size
  omega

end Cursor

theorem append_prefix_iff {bs cs l : List UInt8} :
    bs ++ cs <+: l ↔ bs <+: l ∧ cs <+: l.drop bs.length := by
  constructor
  · rintro ⟨rest, rfl⟩
    exact ⟨⟨cs ++ rest, by simp⟩, ⟨rest, by simp⟩⟩
  · rintro ⟨⟨rest, rfl⟩, h⟩
    rw [List.drop_left] at h
    exact (List.prefix_append_right_inj bs).2 h

theorem toList_extract (bytes : ByteArray) (i n : Nat) :
    (bytes.extract i (i + n)).data.toList = (bytes.data.toList.drop i).take n := by
  rw [ByteArray.data_extract, Array.toList_extract, List.extract_eq_take_drop,
    Nat.add_sub_cancel_left]

theorem toList_extract_zero (bytes : ByteArray) (n : Nat) :
    (bytes.extract 0 n).data.toList = bytes.data.toList.take n := by
  have h := toList_extract bytes 0 n
  rwa [Nat.zero_add, List.drop_zero] at h

theorem extract_zero_idem (bytes : ByteArray) (n : Nat) :
    (bytes.extract 0 n).extract 0 n = bytes.extract 0 n := by
  simp [ByteArray.extract_extract]

/-- Bytes together with a value that they stand for. -/
abbrev Form (α : Type) := List UInt8 → α → Prop

namespace Form

variable {α β : Type}

def bind (p : Form α) (q : α → Form β) : Form β := fun bs b ↦
  ∃ cs ds a, bs = cs ++ ds ∧ p cs a ∧ q a ds b

inductive Sequence (p : Form α) : Form (List α)
  | nil : Sequence p [] []
  | cons {bs cs : List UInt8} {a : α} {as : List α} :
      p bs a → Sequence p cs as → Sequence p (bs ++ cs) (a :: as)

/-- No form is the start of another one: some bytes can be taken apart into a form and a rest in one
way at most. -/
def Unambiguous (p : Form α) : Prop :=
  ∀ ⦃bs cs ds es : List UInt8⦄ ⦃a b : α⦄, p bs a → p cs b → bs ++ ds = cs ++ es → a = b ∧ ds = es

theorem Unambiguous.sequence {p : Form α} (hp : p.Unambiguous) {bs cs ds es : List UInt8}
    {as as' : List α} (has : p.Sequence bs as) (has' : p.Sequence cs as')
    (hlength : as.length = as'.length) (h : bs ++ ds = cs ++ es) : as = as' ∧ ds = es := by
  induction has generalizing cs as' with
  | nil =>
    cases has' with
    | nil => exact ⟨rfl, h⟩
    | cons _ _ => cases hlength
  | cons ha _ ih =>
    cases has' with
    | nil => cases hlength
    | cons ha' has' =>
      rw [List.append_assoc, List.append_assoc] at h
      obtain ⟨rfl, hrest⟩ := hp ha ha' h
      obtain ⟨rfl, hds⟩ := ih has' (Nat.succ.inj hlength) hrest
      exact ⟨rfl, hds⟩

def At (p : Form α) (bytes : ByteArray) (i j : Nat) (a : α) : Prop :=
  i ≤ j ∧ j ≤ bytes.size ∧ p (bytes.extract i j).data.toList a

theorem at_toArray {p : Form α} {bs : List UInt8} {a : α} (h : p bs a) :
    p.At ⟨bs.toArray⟩ 0 bs.length a := by
  refine ⟨Nat.zero_le _, Nat.le_refl _, ?_⟩
  rwa [toList_extract_zero, List.take_length]

theorem At.congr {p : Form α} {bytes other : ByteArray} {i j e : Nat} {a : α}
    (h : p.At bytes i j a) (hj : j ≤ e) (he : other.extract 0 e = bytes.extract 0 e) :
    p.At other i j a := by
  obtain ⟨hij, hsize, ha⟩ := h
  have hlength := congrArg ByteArray.size he
  have hslice := congrArg (ByteArray.extract · i j) he
  rw [ByteArray.size_extract, ByteArray.size_extract] at hlength
  simp only [ByteArray.extract_extract, Nat.zero_add, Nat.min_eq_left hj] at hslice
  exact ⟨hij, by omega, hslice ▸ ha⟩

end Form

namespace Reader

variable {α β : Type} {p q : Form α} {x : Reader α} {c c' : Cursor} {check : Check}

/-- The reader succeeds on exactly the bytes of a form, wherever they stand, and goes past them. -/
def Accepts (x : Reader α) (p : Form α) : Prop :=
  ∀ c : Cursor, c.Valid → ∀ a c',
    x c = .ok a c' ↔ ∃ bs, p bs a ∧ bs <+: c.rest ∧ c' = c.skip bs.length

theorem Accepts.congr (hx : x.Accepts p) (h : ∀ bs a, p bs a ↔ q bs a) : x.Accepts q := by
  intro c hc a c'
  rw [hx c hc a c']
  exact exists_congr fun bs ↦ and_congr_left fun _ ↦ h bs a

theorem Accepts.read (hx : x.Accepts p) (hc : c.Valid) {bs : List UInt8} {a : α} (h : p bs a)
    (hbs : bs <+: c.rest) : x c = .ok a (c.skip bs.length) :=
  (hx c hc a _).2 ⟨bs, h, hbs, rfl⟩

theorem Accepts.unambiguous (hx : x.Accepts p) : p.Unambiguous := by
  intro bs cs ds es a b ha hb h
  have hvalid : (⟨⟨(bs ++ ds).toArray⟩, 0⟩ : Cursor).Valid := Nat.zero_le _
  have hfirst := hx.read hvalid ha (List.prefix_append bs ds)
  have hsecond := hx.read hvalid hb (h ▸ List.prefix_append cs es)
  obtain ⟨rfl, hskip⟩ := EStateM.Result.ok.inj (hfirst.symm.trans hsecond)
  have hlength : bs.length = cs.length := Nat.add_left_cancel (congrArg Cursor.pos hskip)
  exact ⟨rfl, (List.append_inj h hlength).2⟩

theorem bind_ok_iff {σ : Type} {x : EStateM Error σ α} {f : α → EStateM Error σ β} {c c' : σ}
    {b : β} : (x >>= f) c = .ok b c' ↔ ∃ a d, x c = .ok a d ∧ f a d = .ok b c' := by
  show EStateM.bind x f c = _ ↔ _
  unfold EStateM.bind
  cases x c with
  | ok a d =>
    constructor
    · exact fun h ↦ ⟨a, d, rfl, h⟩
    · rintro ⟨_, _, he, h⟩
      cases he
      exact h
  | error e d => simp

theorem accepts_pure (a : α) : (pure a : Reader α).Accepts fun bs b ↦ bs = [] ∧ b = a := by
  intro c _ b c'
  show EStateM.Result.ok a c = .ok b c' ↔ _
  constructor
  · intro h
    cases h
    exact ⟨[], ⟨rfl, rfl⟩, List.nil_prefix, rfl⟩
  · rintro ⟨bs, ⟨rfl, rfl⟩, _, rfl⟩
    rfl

theorem accepts_throw (e : Error) : (throw e : Reader α).Accepts fun _ _ ↦ False := by
  intro c _ a c'
  show EStateM.Result.error e c = .ok a c' ↔ _
  simp

theorem accepts_throw_idle (e : Error) :
    (throw e : Reader α).Accepts fun bs _ ↦ bs = [] ∧ False :=
  (accepts_throw e).congr fun _ _ ↦ (and_false _).symm ▸ Iff.rfl

theorem accepts_get_bind {f : Cursor → Reader α} (hf : ∀ c, (f c).Accepts p) :
    ((get : Reader Cursor) >>= f).Accepts p := by
  intro c hc a c'
  exact hf c c hc a c'

theorem accepts_lift (e : Except Error α) : (lift e).Accepts fun bs a ↦ bs = [] ∧ e = .ok a := by
  cases e with
  | ok a => exact (accepts_pure a).congr fun bs b ↦ by simp [eq_comm]
  | error e => exact (accepts_throw e).congr fun bs b ↦ by simp

theorem Accepts.bind (hx : x.Accepts p) {f : α → Reader β} {r : α → Form β}
    (hf : ∀ a, (f a).Accepts (r a)) : (x >>= f).Accepts (p.bind r) := by
  intro c hc b c'
  rw [bind_ok_iff]
  constructor
  · rintro ⟨a, d, hxa, hfb⟩
    obtain ⟨bs, hbs, hbrest, rfl⟩ := (hx c hc a d).1 hxa
    obtain ⟨cs, hcs, hcrest, rfl⟩ := (hf a _ (hc.skip hbrest) b c').1 hfb
    rw [Cursor.rest_skip] at hcrest
    refine ⟨bs ++ cs, ⟨bs, cs, a, rfl, hbs, hcs⟩, append_prefix_iff.2 ⟨hbrest, hcrest⟩, ?_⟩
    rw [Cursor.skip_skip, List.length_append]
  · rintro ⟨_, ⟨bs, cs, a, rfl, hbs, hcs⟩, hrest, rfl⟩
    obtain ⟨hbrest, hcrest⟩ := append_prefix_iff.1 hrest
    rw [← Cursor.rest_skip] at hcrest
    refine ⟨a, c.skip bs.length, hx.read hc hbs hbrest, ?_⟩
    rw [(hf a).read (hc.skip hbrest) hcs hcrest, Cursor.skip_skip, List.length_append]

theorem Accepts.bind_idle (hx : x.Accepts p) {f : α → Reader β} {q : α → β → Prop}
    (hf : ∀ a, (f a).Accepts fun bs b ↦ bs = [] ∧ q a b) :
    (x >>= f).Accepts fun bs b ↦ ∃ a, p bs a ∧ q a b := by
  refine (hx.bind hf).congr fun bs b ↦ ⟨?_, ?_⟩
  · rintro ⟨cs, _, a, rfl, ha, rfl, h⟩
    exact ⟨a, by rwa [List.append_nil], h⟩
  · rintro ⟨a, ha, h⟩
    exact ⟨bs, [], a, (List.append_nil bs).symm, ha, rfl, h⟩

theorem Accepts.map (hx : x.Accepts p) (f : α → β) :
    (f <$> x).Accepts fun bs b ↦ ∃ a, p bs a ∧ b = f a :=
  hx.bind_idle fun a ↦ accepts_pure (f a)

theorem accepts_lift_bind {e : Except Error α} {f : α → Reader β} {q : α → β → Prop}
    (hf : ∀ a, (f a).Accepts fun bs b ↦ bs = [] ∧ q a b) :
    (lift e >>= f).Accepts fun bs b ↦ bs = [] ∧ ∃ a, e = .ok a ∧ q a b :=
  ((accepts_lift e).bind_idle hf).congr fun bs b ↦ by simp only [and_assoc, exists_and_left]

theorem accepts_ite {P : Prop} [Decidable P] {y : Reader α} (hx : P → x.Accepts p)
    (hy : ¬ P → y.Accepts q) :
    (if P then x else y).Accepts fun bs a ↦ if P then p bs a else q bs a := by
  by_cases h : P
  · simpa only [h, if_true] using hx h
  · simpa only [h, if_false] using hy h

theorem accepts_ite_idle {P : Prop} [Decidable P] {y : Reader α} {q r : α → Prop}
    (hx : P → x.Accepts fun bs a ↦ bs = [] ∧ q a) (hy : ¬ P → y.Accepts fun bs a ↦ bs = [] ∧ r a) :
    (if P then x else y).Accepts fun bs a ↦ bs = [] ∧ if P then q a else r a := by
  by_cases h : P
  · simpa only [h, if_true] using hx h
  · simpa only [h, if_false] using hy h

theorem Accepts.times (hx : x.Accepts p) (n : Nat) :
    (Reader.times x n).Accepts fun bs as ↦ as.length = n ∧ p.Sequence bs as := by
  induction n with
  | zero =>
    refine (accepts_pure []).congr fun bs as ↦ ⟨?_, ?_⟩
    · rintro ⟨rfl, rfl⟩
      exact ⟨rfl, .nil⟩
    · rintro ⟨hlength, hseq⟩
      cases hseq with
      | nil => exact ⟨rfl, rfl⟩
      | cons _ _ => cases hlength
  | succ n ih =>
    refine (hx.bind fun a ↦ ih.map (List.cons a)).congr fun bs as ↦ ⟨?_, ?_⟩
    · rintro ⟨cs, ds, a, rfl, ha, as, ⟨hlength, hseq⟩, rfl⟩
      exact ⟨congrArg (· + 1) hlength, .cons ha hseq⟩
    · rintro ⟨hlength, hseq⟩
      cases hseq with
      | nil => cases hlength
      | @cons cs ds a as ha hseq =>
        exact ⟨cs, ds, a, rfl, ha, as, ⟨Nat.succ.inj hlength, hseq⟩, rfl⟩

theorem take_of_le {n : Nat} (h : c.pos + n ≤ c.bytes.size) :
    take check n c = .ok (c.bytes.extract c.pos (c.pos + n)) (c.skip n) := by
  show (if c.pos + n ≤ c.bytes.size then _ else _ : Reader ByteArray) c = _
  rw [if_pos h]
  rfl

theorem take_of_lt {n : Nat} (h : c.bytes.size < c.pos + n) :
    take check n c = .error (.outOfBounds check) c := by
  show (if c.pos + n ≤ c.bytes.size then _ else _ : Reader ByteArray) c = _
  rw [if_neg (Nat.not_le.2 h)]
  rfl

theorem accepts_take (n : Nat) :
    (take check n).Accepts fun bs a ↦ bs.length = n ∧ a.data.toList = bs := by
  intro c hc a c'
  have hlength : c.rest.length = c.bytes.size - c.pos := c.length_rest
  have hc : c.pos ≤ c.bytes.size := hc
  have hextract : (c.bytes.extract c.pos (c.pos + n)).data.toList = c.rest.take n :=
    toList_extract c.bytes c.pos n
  by_cases h : c.pos + n ≤ c.bytes.size
  · rw [take_of_le h]
    constructor
    · intro he
      cases he
      refine ⟨c.rest.take n, ⟨?_, hextract⟩, List.take_prefix _ _, ?_⟩
      · rw [List.length_take]
        omega
      · rw [List.length_take, Nat.min_eq_left (by omega)]
    · rintro ⟨bs, ⟨rfl, ha⟩, hrest, rfl⟩
      rw [List.prefix_iff_eq_take.1 hrest, ← hextract] at ha
      have hbytes : a = c.bytes.extract c.pos (c.pos + bs.length) :=
        ByteArray.ext (Array.toList_inj.1 ha)
      rw [hbytes]
  · rw [take_of_lt (Nat.not_le.1 h)]
    constructor
    · exact fun he ↦ nomatch he
    · rintro ⟨bs, ⟨rfl, _⟩, hrest, _⟩
      have hle := hrest.length_le
      omega

/-- Beyond the end of the bytes the reader fails. -/
def Grounded (x : Reader α) : Prop :=
  ∀ ⦃c d : Cursor⦄ ⦃a : α⦄, x c = .ok a d → c.Valid

theorem grounded_take (n : Nat) : Grounded (take check n) := by
  intro c d a h
  by_cases hn : c.pos + n ≤ c.bytes.size
  · exact Nat.le_of_add_right_le hn
  · rw [take_of_lt (Nat.not_le.1 hn)] at h
    cases h

theorem Grounded.bind (hx : Grounded x) (f : α → Reader β) : Grounded (x >>= f) := by
  intro c d b h
  obtain ⟨a, c', ha, _⟩ := bind_ok_iff.1 h
  exact hx ha

theorem Grounded.map (hx : Grounded x) (f : α → β) : Grounded (f <$> x) := hx.bind _

section Positions

variable {bytes : ByteArray} {i j : Nat} {a : α}

theorem readAt_eq_ok_iff :
    readAt x bytes i = (.ok a, j) ↔ ∃ d, x ⟨bytes, i⟩ = .ok a d ∧ d.pos = j := by
  unfold readAt
  cases x ⟨bytes, i⟩ with
  | ok a' d => simp
  | error e d => simp

theorem Accepts.ok_of_at (hx : x.Accepts p) (h : p.At bytes i j a) :
    x ⟨bytes, i⟩ = .ok a ⟨bytes, j⟩ := by
  obtain ⟨hij, hj, ha⟩ := h
  obtain ⟨n, rfl⟩ := Nat.exists_eq_add_of_le hij
  have hi : (⟨bytes, i⟩ : Cursor).Valid := Nat.le_of_add_right_le hj
  have hrest : (⟨bytes, i⟩ : Cursor).rest.length = bytes.size - i := Cursor.length_rest _
  have hbytes : (bytes.extract i (i + n)).data.toList = (⟨bytes, i⟩ : Cursor).rest.take n :=
    toList_extract bytes i n
  rw [hbytes] at ha
  have hread := hx.read hi ha (List.take_prefix _ _)
  rwa [List.length_take, Nat.min_eq_left (by omega)] at hread

theorem Accepts.at_unique (hx : x.Accepts p) {j' : Nat} {a' : α} (h : p.At bytes i j a)
    (h' : p.At bytes i j' a') : j = j' ∧ a = a' := by
  have hread := (hx.ok_of_at h).symm.trans (hx.ok_of_at h')
  cases hread
  exact ⟨rfl, rfl⟩

theorem Accepts.at_of_ok (hx : x.Accepts p) {c d : Cursor} (hc : c.Valid) (h : x c = .ok a d) :
    d.bytes = c.bytes ∧ p.At c.bytes c.pos d.pos a := by
  obtain ⟨bs, hbs, hrest, rfl⟩ := (hx c hc a d).1 h
  have hend := hc.skip hrest
  refine ⟨rfl, Nat.le_add_right c.pos bs.length, hend, ?_⟩
  have hbytes := toList_extract c.bytes c.pos bs.length
  rw [Cursor.pos_skip, hbytes]
  rwa [List.prefix_iff_eq_take.1 hrest] at hbs

theorem Accepts.ok_of_agree (hx : x.Accepts p) {other : ByteArray} {e : Nat} {d : Cursor}
    (hi : (⟨bytes, i⟩ : Cursor).Valid) (h : x ⟨bytes, i⟩ = .ok a d) (hd : d.pos ≤ e)
    (he : other.extract 0 e = bytes.extract 0 e) : x ⟨other, i⟩ = .ok a ⟨other, d.pos⟩ :=
  hx.ok_of_at ((hx.at_of_ok hi h).2.congr hd he)

theorem Accepts.readAt_iff (hx : x.Accepts p) (hgrounded : Grounded x) :
    readAt x bytes i = (.ok a, j) ↔ p.At bytes i j a := by
  rw [readAt_eq_ok_iff]
  constructor
  · rintro ⟨d, hd, rfl⟩
    exact (hx.at_of_ok (hgrounded hd) hd).2
  · intro h
    exact ⟨_, hx.ok_of_at h, rfl⟩

end Positions

end Reader

end MetadataDump
