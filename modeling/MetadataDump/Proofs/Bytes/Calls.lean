import MetadataDump.Proofs.Bytes.Outcomes

namespace MetadataDump

/-- The fixed-width numbers. Floating-point ones are read as their bits. -/
inductive NumberType
  | u8 | u16 | u32 | u64 | i8 | i16 | i32 | i64 | f32 | f64

namespace NumberType

def width : NumberType → Nat
  | .u8 | .i8 => 1
  | .u16 | .i16 => 2
  | .u32 | .i32 | .f32 => 4
  | .u64 | .i64 | .f64 => 8

def isSigned : NumberType → Bool
  | .i8 | .i16 | .i32 | .i64 => true
  | .u8 | .u16 | .u32 | .u64 | .f32 | .f64 => false

/-- The number that bytes stand for, the least significant one first. Signed numbers are two's
complements. -/
def value (t : NumberType) (bs : List UInt8) : Int :=
  let n : Nat := Nat.ofDigits 0x100 (bs.map UInt8.toNat)
  if t.isSigned ∧ 0x100 ^ t.width ≤ 2 * n then n - 0x100 ^ t.width else n

def read : NumberType → Reader Int
  | .u8 => (fun n ↦ n.toNat) <$> Reader.u8
  | .u16 => (fun n ↦ n.toNat) <$> Reader.u16
  | .u32 | .f32 => (fun n ↦ n.toNat) <$> Reader.u32
  | .u64 | .f64 => (fun n ↦ n.toNat) <$> Reader.u64
  | .i8 => Int8.toInt <$> Reader.i8
  | .i16 => Int16.toInt <$> Reader.i16
  | .i32 => Int32.toInt <$> Reader.i32
  | .i64 => Int64.toInt <$> Reader.i64

def wrap (t : NumberType) (n : Nat) : Int :=
  if t.isSigned then (n : Int).bmod (0x100 ^ t.width) else (n % 0x100 ^ t.width : Nat)

theorem read_eq (t : NumberType) : t.read = t.wrap <$> Reader.nat t.width := by
  show t.read = (fun n ↦ t.wrap n) <$> Reader.nat t.width
  cases t <;>
    simp [read, Reader.u8, Reader.u16, Reader.u32, Reader.u64, Reader.i8, Reader.i16, Reader.i32,
      Reader.i64, wrap, isSigned, width, Int8.size, Int16.size, Int32.size, Int64.size]

end NumberType

theorem littleEndian_eq_ofDigits (bs : List UInt8) :
    littleEndian bs = Nat.ofDigits 0x100 (bs.map UInt8.toNat) := by
  induction bs with
  | nil => rfl
  | cons b bs ih => rw [littleEndian, ih, List.map_cons, Nat.ofDigits_cons]

theorem bmod_of_lt {n m : Nat} (h : n < 2 * m) :
    (n : Int).bmod (2 * m : Nat) = if 2 * m ≤ 2 * n then (n : Int) - (2 * m : Nat) else n := by
  have hmod : (n : Int) % (2 * m : Nat) = n := Int.emod_eq_of_lt (by omega) (by omega)
  rw [Int.bmod, hmod]
  split <;> split <;> omega

theorem NumberType.wrap_littleEndian (t : NumberType) {bs : List UInt8}
    (h : bs.length = t.width) : t.wrap (littleEndian bs) = t.value bs := by
  have hlt := littleEndian_lt bs
  rw [h] at hlt
  obtain ⟨m, hm⟩ : ∃ m, 0x100 ^ t.width = 2 * m := ⟨0x100 ^ t.width / 2, by cases t <;> rfl⟩
  rw [wrap, value, ← littleEndian_eq_ofDigits]
  cases t.isSigned with
  | false => simp [Nat.mod_eq_of_lt hlt]
  | true =>
    rw [hm] at hlt
    have hbmod := bmod_of_lt hlt
    rw [← hm] at hbmod
    simpa using hbmod

def checkedAdd (a b : UInt64) : Option UInt64 :=
  if a.toNat + b.toNat < 2 ^ 64 then some (a + b) else none

theorem checkedAdd_eq_some_iff {a b stop : UInt64} :
    checkedAdd a b = some stop ↔ a.toNat + b.toNat = stop.toNat := by
  have hstop := stop.toNat_lt
  rw [checkedAdd]
  split
  · next hlt => rw [Option.some_inj, ← UInt64.toNat_inj, UInt64.toNat_add, Nat.mod_eq_of_lt hlt]
  · exact iff_of_false nofun (by omega)

theorem fits_iff_of_le {size pos : Nat} (hpos : pos ≤ size) (hsize : size < 2 ^ 64) (n : UInt64) :
    pos + n.toNat ≤ size ↔ ∃ stop, checkedAdd (.ofNat pos) n = some stop ∧ stop.toNat ≤ size := by
  have hto : (UInt64.ofNat pos).toNat = pos := UInt64.toNat_ofNat_of_lt' (hpos.trans_lt hsize)
  simp only [checkedAdd_eq_some_iff, hto]
  constructor
  · intro hle
    have hstop : (UInt64.ofNat (pos + n.toNat)).toNat = pos + n.toNat :=
      UInt64.toNat_ofNat_of_lt' (hle.trans_lt hsize)
    exact ⟨.ofNat (pos + n.toNat), hstop.symm, by omega⟩
  · intro hstop
    obtain ⟨stop, hsum, hle⟩ := hstop
    omega

inductive Call
  | seek (pos : Nat)
  | number (type : NumberType)
  | bytes (n : Nat)
  | text (n : Nat)
  | compressedUInt
  | compressedInt

inductive Answer
  | done
  | number (n : Int)
  | bytes (bs : ByteArray)
  | text (s : String)

namespace Call

def read : Call → Reader Answer
  | .seek pos => (fun _ ↦ .done) <$> Reader.seek pos
  | .number t => .number <$> t.read
  | .bytes n => .bytes <$> Reader.take .bytes n
  | .text n => .text <$> Reader.text n
  | .compressedUInt => (fun n ↦ .number n.toNat) <$> Reader.compressedUInt
  | .compressedInt => (fun n ↦ .number n.toInt) <$> Reader.compressedInt

/-- The rule for integers in forms. A call that fails has gone past a reserved lead byte, or over
bytes of a form that is not there as a whole. -/
def FormRule (p : Form Int) (c : Cursor) (r : EStateM.Result Error Cursor Answer) : Prop :=
  (∃ n bs, p bs n ∧ bs <+: c.rest ∧ r = .ok (.number n) (c.skip bs.length)) ∨
  (∃ lead, c.rest.head? = some lead ∧ IsReservedLead lead ∧
    r = .error (.malformed (.compressedLead lead)) (c.skip 1)) ∨
  Unfinished c.rest ∧ ∃ k ≤ c.rest.length, r = .error (.outOfBounds .number) (c.skip k)

/-- When a call succeeds at a cursor, what it gives, and where it leaves the cursor. -/
def Rule (c : Cursor) : Call → EStateM.Result Error Cursor Answer → Prop
  | .seek pos, r =>
    r = if pos ≤ c.bytes.size then .ok .done { c with pos } else .error (.outOfBounds .seek) c
  | .number t, r =>
    r = if c.pos + t.width ≤ c.bytes.size then
      .ok (.number (t.value (c.rest.take t.width))) (c.skip t.width)
    else .error (.outOfBounds .number) c
  | .bytes n, r =>
    r = if c.pos + n ≤ c.bytes.size then
      .ok (.bytes (c.bytes.extract c.pos (c.pos + n))) (c.skip n)
    else .error (.outOfBounds .bytes) c
  | .text n, r =>
    if c.pos + n ≤ c.bytes.size then
      (∃ s : String, c.bytes.extract c.pos (c.pos + n) = s.toUTF8 ∧ r = .ok (.text s) (c.skip n)) ∨
      (∀ s : String, c.bytes.extract c.pos (c.pos + n) ≠ s.toUTF8) ∧ ∃ fault,
        r = .error (.malformed (.invalidText c.pos (c.pos + n) fault)) (c.skip n)
    else r = .error (.outOfBounds .bytes) c
  | .compressedUInt, r => FormRule (fun bs n ↦ ∃ k : Nat, n = k ∧ UIntForm k bs) c r
  | .compressedInt, r => FormRule (fun bs n ↦ IntForm n bs) c r

end Call

namespace Reader

variable {α β : Type} {x : Reader α} {c d : Cursor}

theorem map_ok (f : α → β) {a : α} (h : x c = .ok a d) : (f <$> x) c = .ok (f a) d := bind_ok h

theorem map_error (f : α → β) {e : Error} (h : x c = .error e d) : (f <$> x) c = .error e d :=
  bind_error h

theorem seek_of_le {pos : Nat} (h : pos ≤ c.bytes.size) : seek pos c = .ok () { c with pos } := by
  show (if pos ≤ c.bytes.size then _ else _ : Reader Unit) c = _
  rw [if_pos h]
  rfl

theorem seek_of_lt {pos : Nat} (h : c.bytes.size < pos) :
    seek pos c = .error (.outOfBounds .seek) c := by
  show (if pos ≤ c.bytes.size then _ else _ : Reader Unit) c = _
  rw [if_neg (Nat.not_le.2 h)]
  rfl

theorem nat_of_le {n : Nat} (h : c.pos + n ≤ c.bytes.size) :
    nat n c = .ok (littleEndian (c.rest.take n)) (c.skip n) := by
  have htake : take .number n c = .ok (c.bytes.extract c.pos (c.pos + n)) (c.skip n) :=
    take_of_le h
  have hnat : nat n c = .ok (littleEndian (c.bytes.extract c.pos (c.pos + n)).data.toList)
      (c.skip n) := bind_ok htake
  rwa [toList_extract] at hnat

theorem nat_of_lt {n : Nat} (h : c.bytes.size < c.pos + n) :
    nat n c = .error (.outOfBounds .number) c :=
  bind_error (take_of_lt h)

def takeChecked (check : Check) (n : UInt64) : Reader ByteArray := do
  let c ← get
  match checkedAdd (.ofNat c.pos) n with
  | some stop =>
    if stop.toNat ≤ c.bytes.size then
      set { c with pos := stop.toNat }
      return c.bytes.extract c.pos stop.toNat
    else
      throw (.outOfBounds check)
  | none => throw (.outOfBounds check)

/-- The bytes of a buffer are fewer than 64 bits can count, so `take` may add without a check. -/
theorem takeChecked_eq (hc : c.Valid) (hsize : c.bytes.size < 2 ^ 64) (check : Check)
    (n : UInt64) : takeChecked check n c = take check n.toNat c := by
  have hfits := fits_iff_of_le hc hsize n
  have hsum (stop : UInt64) : checkedAdd (.ofNat c.pos) n = some stop ↔ _ :=
    checkedAdd_eq_some_iff
  rw [UInt64.toNat_ofNat_of_lt' (hc.trans_lt hsize)] at hsum
  show (match checkedAdd (.ofNat c.pos) n with
    | some stop => _
    | none => _ : Reader ByteArray) c = _
  by_cases h : c.pos + n.toNat ≤ c.bytes.size
  · obtain ⟨stop, hstop, hle⟩ := hfits.1 h
    rw [take_of_le h, (hsum stop).1 hstop, hstop]
    show (if stop.toNat ≤ c.bytes.size then _ else _ : Reader ByteArray) c = _
    rw [if_pos hle]
    simp only [Cursor.skip, (hsum stop).1 hstop]
    rfl
  · rw [take_of_lt (Nat.not_le.1 h)]
    cases hstop : checkedAdd (.ofNat c.pos) n with
    | none => rfl
    | some stop =>
      show (if stop.toNat ≤ c.bytes.size then _ else _ : Reader ByteArray) c = _
      rw [if_neg fun hle ↦ h (hfits.2 ⟨stop, hstop, hle⟩)]
      rfl

theorem text_of_le {n : Nat} (h : c.pos + n ≤ c.bytes.size) : text n c =
    match Text.Utf8.decode (c.bytes.extract c.pos (c.pos + n)) with
    | .ok s => .ok s (c.skip n)
    | .error fault => .error (.malformed (.invalidText c.pos (c.pos + n) fault)) (c.skip n) := by
  show (take .bytes n >>= _) c = _
  rw [bind_ok (take_of_le h)]
  cases Text.Utf8.decode (c.bytes.extract c.pos (c.pos + n)) <;> rfl

theorem text_of_lt {n : Nat} (h : c.bytes.size < c.pos + n) :
    text n c = .error (.outOfBounds .bytes) c :=
  bind_error (x := take .bytes n) (take_of_lt h)

end Reader

namespace Call

variable {c : Cursor}

section Rules

theorem rule_seek (pos : Nat) : (Call.seek pos).Rule c ((Call.seek pos).read c) := by
  rw [Rule, read]
  split
  · exact Reader.map_ok _ (Reader.seek_of_le ‹_›)
  · exact Reader.map_error _ (Reader.seek_of_lt (Nat.not_le.1 ‹_›))

theorem rule_number (t : NumberType) : (Call.number t).Rule c ((Call.number t).read c) := by
  rw [Rule, read, NumberType.read_eq]
  split
  · next h =>
    have hlength : (c.rest.take t.width).length = t.width := by
      rw [List.length_take, Cursor.length_rest]
      omega
    have hread := Reader.map_ok t.wrap (Reader.nat_of_le h)
    rw [t.wrap_littleEndian hlength] at hread
    exact Reader.map_ok _ hread
  · next h => exact Reader.map_error _ (Reader.map_error _ (Reader.nat_of_lt (Nat.not_le.1 h)))

theorem rule_bytes (n : Nat) : (Call.bytes n).Rule c ((Call.bytes n).read c) := by
  rw [Rule, read]
  split
  · exact Reader.map_ok _ (Reader.take_of_le ‹_›)
  · exact Reader.map_error _ (Reader.take_of_lt (Nat.not_le.1 ‹_›))

theorem rule_text (n : Nat) : (Call.text n).Rule c ((Call.text n).read c) := by
  rw [Rule, read]
  split
  · next h =>
    have htext := Reader.text_of_le h
    cases hdecode : Text.Utf8.decode (c.bytes.extract c.pos (c.pos + n)) with
    | ok s =>
      rw [hdecode] at htext
      exact .inl ⟨s, Text.Utf8.decode_eq_ok_iff.1 hdecode, Reader.map_ok _ htext⟩
    | error fault =>
      rw [hdecode] at htext
      refine .inr ⟨fun s hs ↦ ?_, fault, Reader.map_error _ htext⟩
      rw [Text.Utf8.decode_eq_ok_iff.2 hs] at hdecode
      cases hdecode
  · next h => exact Reader.map_error _ (Reader.text_of_lt (Nat.not_le.1 h))

theorem formRule_map {p : Form Int} {f : UInt32 → Int}
    (hp : ∀ n bs, UIntForm n.toNat bs → p bs (f n)) :
    FormRule p c (((fun n ↦ Answer.number (f n)) <$> Reader.compressedUInt) c) := by
  obtain ⟨n, bs, hn, hbs, hread⟩ | ⟨lead, hlead, hreserved, hread⟩ | ⟨hunfinished, k, hk, hread⟩ :=
    Reader.compressedUInt_cases c
  · exact .inl ⟨f n, bs, hp n bs hn, hbs, Reader.map_ok _ hread⟩
  · exact .inr (.inl ⟨lead, hlead, hreserved, Reader.map_error _ hread⟩)
  · exact .inr (.inr ⟨hunfinished, k, hk, Reader.map_error _ hread⟩)

theorem rule_compressedInt : Call.compressedInt.Rule c (Call.compressedInt.read c) := by
  rw [Rule, read, Reader.compressedInt, Functor.map_map]
  apply formRule_map
  intro n bs hn
  rwa [IntForm, ← Reader.ofZigZag_eq_iff.1 rfl]

theorem rule_read (call : Call) : call.Rule c (call.read c) := by
  cases call with
  | seek pos => exact rule_seek pos
  | number t => exact rule_number t
  | bytes n => exact rule_bytes n
  | text n => exact rule_text n
  | compressedUInt => exact formRule_map fun n bs hn ↦ ⟨n.toNat, rfl, hn⟩
  | compressedInt => exact rule_compressedInt

end Rules

/-- Where a call leaves the cursor, whether it succeeds or fails. -/
def cursorAfter : EStateM.Result Error Cursor Answer → Cursor
  | .ok _ d => d
  | .error _ d => d

def Stays (c d : Cursor) : Prop := d.bytes = c.bytes ∧ d.Valid

section Moves

variable {r : EStateM.Result Error Cursor Answer}

theorem stays_skip {k : Nat} (h : c.pos + k ≤ c.bytes.size) : Stays c (c.skip k) := ⟨rfl, h⟩

theorem stays_of_eq_ite {n : Nat} {a : Answer} {e : Error} (hc : c.Valid)
    (h : r = if c.pos + n ≤ c.bytes.size then .ok a (c.skip n) else .error e c) :
    Stays c (cursorAfter r) := by
  split at h
  · next hle =>
    rw [h]
    exact stays_skip hle
  · rw [h]
    exact ⟨rfl, hc⟩

theorem FormRule.stays {p : Form Int} (hc : c.Valid) (h : FormRule p c r) :
    Stays c (cursorAfter r) := by
  have hpos : c.pos ≤ c.bytes.size := hc
  have hlength := c.length_rest
  obtain ⟨n, bs, -, hbs, rfl⟩ | ⟨lead, hlead, -, rfl⟩ | ⟨-, k, hk, rfl⟩ := h
  · exact ⟨rfl, hc.skip hbs⟩
  · obtain ⟨bs, hrest⟩ := List.head?_eq_some_iff.1 hlead
    rw [hrest, List.length_cons] at hlength
    exact stays_skip (by omega)
  · exact stays_skip (by omega)

theorem Rule.stays (hc : c.Valid) {call : Call} (h : call.Rule c r) : Stays c (cursorAfter r) := by
  cases call with
  | seek pos =>
    rw [Rule] at h
    split at h
    · next hle =>
      rw [h]
      exact ⟨rfl, hle⟩
    · rw [h]
      exact ⟨rfl, hc⟩
  | number t => exact stays_of_eq_ite hc h
  | bytes n => exact stays_of_eq_ite hc h
  | text n =>
    rw [Rule] at h
    split at h
    · next hle =>
      obtain ⟨s, -, rfl⟩ | ⟨-, fault, rfl⟩ := h
      · exact stays_skip hle
      · exact stays_skip hle
    · rw [h]
      exact ⟨rfl, hc⟩
  | compressedUInt => exact FormRule.stays hc h
  | compressedInt => exact FormRule.stays hc h

end Moves

end Call

namespace Cursor

def after (c : Cursor) (calls : List Call) : Cursor :=
  calls.foldl (fun c call ↦ Call.cursorAfter (call.read c)) c

theorem stays_after {c : Cursor} (hc : c.Valid) (calls : List Call) :
    Call.Stays c (c.after calls) := by
  induction calls generalizing c with
  | nil => exact ⟨rfl, hc⟩
  | cons call calls ih =>
    obtain ⟨hbytes, hvalid⟩ := (Call.rule_read (c := c) call).stays hc
    obtain ⟨hbytes', hvalid'⟩ := ih hvalid
    exact ⟨hbytes'.trans hbytes, hvalid'⟩

/-- A cursor in some bytes where every call does what its rule says. -/
structure KeepsRules (bytes : ByteArray) (c : Cursor) : Prop where
  bytes_eq : c.bytes = bytes
  pos_le : c.pos ≤ bytes.size
  rule : ∀ call : Call, call.Rule c (call.read c)
  fits_iff : bytes.size < 2 ^ 64 → ∀ n : UInt64, c.pos + n.toNat ≤ bytes.size ↔
    ∃ stop, checkedAdd (.ofNat c.pos) n = some stop ∧ stop.toNat ≤ bytes.size
  takeChecked_eq : bytes.size < 2 ^ 64 → ∀ check n,
    Reader.takeChecked check n c = Reader.take check n.toNat c

/-- Whatever calls were made on a cursor, it has not left its bytes, and the next call goes by its
rule. -/
theorem keepsRules_after (bytes : ByteArray) (calls : List Call) :
    KeepsRules bytes ((ofBytes bytes).after calls) := by
  have hstart : (ofBytes bytes).Valid := Nat.zero_le _
  obtain ⟨hbytes, hvalid⟩ := stays_after hstart calls
  have hpos : ((ofBytes bytes).after calls).pos ≤ (ofBytes bytes).bytes.size := by
    rw [← hbytes]
    exact hvalid
  refine ⟨hbytes, hpos, Call.rule_read, fits_iff_of_le hpos, fun hsize check n ↦ ?_⟩
  have hafter : ((ofBytes bytes).after calls).bytes.size < 2 ^ 64 := by rwa [hbytes]
  exact Reader.takeChecked_eq hvalid hafter check n

/-- Failed calls leave the cursor at the start, then behind three bytes of an unfinished form. -/
example : [[.number .u64, .seek 4], [.seek 4, .compressedUInt]].map
    (fun calls ↦ ((ofBytes ⟨#[0xC1, 0x02, 0x03]⟩).after calls).pos) = [0, 3] := by
  decide

end Cursor

end MetadataDump
