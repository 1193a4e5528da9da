import MetadataDump.Proofs.Attribute.Grammar
import MetadataDump.Proofs.Attribute.Prefix
import MetadataDump.Proofs.Attribute.Truncation

namespace MetadataDump

namespace Argument

mutual

/-- The number of values that have no other value in them. What is in an enum value is counted in
its place, and an array without elements is one. -/
def leaves : Argument → Nat
  | .array [] => 1
  | .array (a :: as) => leaves a + leavesOf as
  | .enumeration _ value => leaves value
  | _ => 1

def leavesOf : List Argument → Nat
  | [] => 0
  | a :: as => leaves a + leavesOf as

end

mutual

def arrayDepth : Argument → Nat
  | .array elements => arrayDepthOf elements + 1
  | .enumeration _ value => arrayDepth value
  | _ => 0

def arrayDepthOf : List Argument → Nat
  | [] => 0
  | a :: as => max (arrayDepth a) (arrayDepthOf as)

end

theorem leavesOf_eq_sum (as : List Argument) : leavesOf as = (as.map leaves).sum := by
  induction as with
  | nil => rfl
  | cons a as ih => rw [leavesOf, ih, List.map_cons, List.sum_cons]

theorem leaves_array_le (as : List Argument) : leaves (.array as) ≤ (as.map leaves).sum + 1 := by
  cases as with
  | nil => exact Nat.le_refl 1
  | cons a as =>
    rw [leaves, leavesOf_eq_sum, List.map_cons, List.sum_cons]
    omega

theorem arrayDepthOf_le {as : List Argument} {n : Nat} (h : ∀ a ∈ as, a.arrayDepth ≤ n) :
    arrayDepthOf as ≤ n := by
  induction as with
  | nil => exact Nat.zero_le n
  | cons a as ih =>
    obtain ⟨ha, has⟩ := List.forall_mem_cons.1 h
    exact Nat.max_le.2 ⟨ha, ih has⟩

end Argument

@[simp] theorem ValueType.leaves_wrap (t : ValueType) (v : Argument) :
    (t.wrap v).leaves = v.leaves := by
  unfold wrap
  cases t.enumeration with
  | none => rfl
  | some name => rw [Argument.leaves]

@[simp] theorem ValueType.arrayDepth_wrap (t : ValueType) (v : Argument) :
    (t.wrap v).arrayDepth = v.arrayDepth := by
  unfold wrap
  cases t.enumeration with
  | none => rfl
  | some name => rw [Argument.arrayDepth]

def Attribute.values (a : Attribute) : List Argument :=
  a.fixed ++ a.named.map NamedArgument.value

structure Sized (levels : Nat) (bs : List UInt8) (v : Argument) : Prop where
  length_pos : 0 < bs.length
  leaves_le : v.leaves ≤ bs.length
  arrayDepth_le : v.arrayDepth ≤ levels

section Forms

variable {s : Snapshot} {inner : ValueType → Form Argument} {levels : Nat} {bs : List UInt8}
  {v : Argument}

theorem Sized.of_leaf (hlength : 0 < bs.length) (hleaves : v.leaves = 1)
    (hdepth : v.arrayDepth = 0) : Sized levels bs v :=
  ⟨hlength, hleaves.trans_le hlength, hdepth.trans_le (Nat.zero_le levels)⟩

theorem Sized.append_left {cs : List UInt8} (h : Sized levels cs v) :
    Sized levels (bs ++ cs) v := by
  obtain ⟨hlength, hleaves, hdepth⟩ := h
  have happend : (bs ++ cs).length = bs.length + cs.length := List.length_append
  exact ⟨by omega, by omega, hdepth⟩

theorem Sized.mono {levels' : Nat} (h : Sized levels bs v) (hle : levels ≤ levels') :
    Sized levels' bs v :=
  ⟨h.length_pos, h.leaves_le, h.arrayDepth_le.trans hle⟩

theorem UIntForm.length_pos {n : Nat} (h : UIntForm n bs) : 0 < bs.length :=
  List.length_pos_iff.2 (uIntForm_ne_nil h)

theorem IntForm.length_pos {i : Int} (h : IntForm i bs) : 0 < bs.length :=
  UIntForm.length_pos h

theorem TypeForm.length_pos {t : ValueType} (h : TypeForm s bs t) : 0 < bs.length :=
  List.length_pos_iff.2 h.ne_nil

theorem ScalarForm.sized {tag : Nat} (h : ScalarForm tag bs v) : Sized levels bs v := by
  have hle : ∀ width n, 0 < width → 0 < (leBytes width n).length := by
    intro width n hwidth
    rwa [length_leBytes]
  unfold ScalarForm at h
  split at h
  · obtain ⟨b, rfl, rfl⟩ := h
    exact .of_leaf Nat.one_pos rfl rfl
  · obtain ⟨n, rfl, rfl⟩ := h
    exact .of_leaf (hle 2 _ (by omega)) rfl rfl
  · obtain ⟨n, rfl, rfl⟩ := h
    exact .of_leaf Nat.one_pos rfl rfl
  · obtain ⟨n, rfl, rfl⟩ := h
    exact .of_leaf Nat.one_pos rfl rfl
  · obtain ⟨n, rfl, rfl⟩ := h
    exact .of_leaf (hle 2 _ (by omega)) rfl rfl
  · obtain ⟨n, rfl, rfl⟩ := h
    exact .of_leaf (hle 2 _ (by omega)) rfl rfl
  · obtain ⟨n, hn, rfl⟩ := h
    exact .of_leaf hn.length_pos rfl rfl
  · obtain ⟨n, hn, rfl⟩ := h
    exact .of_leaf hn.length_pos rfl rfl
  · obtain ⟨n, rfl, rfl⟩ := h
    exact .of_leaf (hle 8 _ (by omega)) rfl rfl
  · obtain ⟨n, rfl, rfl⟩ := h
    exact .of_leaf (hle 8 _ (by omega)) rfl rfl
  · obtain ⟨bits, rfl, rfl⟩ := h
    exact .of_leaf (hle 4 _ (by omega)) rfl rfl
  · obtain ⟨bits, rfl, rfl⟩ := h
    exact .of_leaf (hle 8 _ (by omega)) rfl rfl
  · exact h.elim

theorem Form.Sequence.sized {α : Type} {p : Form α} {f : α → Argument} {as : List α}
    (h : ∀ bs a, p bs a → Sized levels bs (f a)) (hs : p.Sequence bs as) :
    ((as.map f).map Argument.leaves).sum ≤ bs.length ∧
      ∀ v ∈ as.map f, v.arrayDepth ≤ levels := by
  induction hs with
  | nil => simp
  | @cons cs ds a as ha _ ih =>
    obtain ⟨hleaves, hdepth⟩ := ih
    obtain ⟨-, hleaves', hdepth'⟩ := h cs a ha
    constructor
    · simp only [List.map_cons, List.sum_cons, List.length_append]
      omega
    · exact List.forall_mem_cons.2 ⟨hdepth', hdepth⟩

theorem sized_bind_typeForm (h : ∀ t bs v, inner t bs v → Sized levels bs v)
    (hb : (TypeForm s).bind inner bs v) : Sized levels bs v ∧ 2 ≤ bs.length := by
  obtain ⟨cs, ds, t, rfl, ht, hv⟩ := hb
  have hsized := h t ds v hv
  refine ⟨hsized.append_left, ?_⟩
  rw [List.length_append]
  exact Nat.add_le_add ht.length_pos hsized.length_pos

/-- The elements of an array. The byte in front of them pays for an array that has none. -/
theorem sized_array {flag : UInt8} {vs : List Argument} {p : Form Argument}
    (hs : p.Sequence bs vs) (h : ∀ bs v, p bs v → Sized levels bs v) :
    Sized (levels + 1) (flag :: bs) (.array vs) := by
  obtain ⟨hleaves, hdepth⟩ := hs.sized (f := id) h
  rw [List.map_id] at hleaves hdepth
  refine ⟨Nat.succ_pos _, ?_, ?_⟩
  · exact (Argument.leaves_array_le vs).trans (Nat.succ_le_succ hleaves)
  · rw [Argument.arrayDepth]
    exact Nat.succ_le_succ (Argument.arrayDepthOf_le hdepth)

theorem PayloadForm.sized (h : ∀ t bs v, inner t bs v → Sized levels bs v) {tag : Nat}
    (hp : PayloadForm s inner tag bs v) : Sized (levels + 1) bs v := by
  cases hp with
  | scalar hv => exact hv.sized
  | nullString hn => exact .of_leaf hn.length_pos rfl rfl
  | string hn =>
    refine .of_leaf ?_ rfl rfl
    rw [List.length_append]
    exact Nat.add_pos_left hn.length_pos _
  | boxed hb => exact (sized_bind_typeForm h hb).1.mono (Nat.le_succ levels)
  | nullArray hn => exact .of_leaf hn.length_pos rfl rfl
  | uniform _ _ _ hvs => exact (sized_array hvs (h _)).append_left.append_left
  | mixed _ _ hvs =>
    have helement : ∀ bs v, (TypeForm s).bind inner bs v → Sized levels bs v :=
      fun _ _ hb ↦ (sized_bind_typeForm h hb).1
    exact (sized_array hvs helement).append_left.append_left
  | nullType hn => exact .of_leaf hn.length_pos rfl rfl
  | type hi _ => exact .of_leaf hi.length_pos rfl rfl

theorem ValueForm.sized {room : Nat} {t : ValueType} (h : ValueForm s room t bs v) :
    Sized room bs v := by
  induction room generalizing t bs v with
  | zero => exact h.elim
  | succ room ih =>
    obtain ⟨w, hw, rfl⟩ := h
    obtain ⟨hlength, hleaves, hdepth⟩ := hw.sized fun t bs v ↦ ih
    refine ⟨hlength, ?_, ?_⟩
    · rwa [ValueType.leaves_wrap]
    · rwa [ValueType.arrayDepth_wrap]

theorem TypedForm.sized {depth : Nat} (h : TypedForm s depth bs v) :
    Sized (greatestDepth - depth) bs v ∧ 2 ≤ bs.length :=
  sized_bind_typeForm (fun _ _ _ ↦ ValueForm.sized) h

theorem AssignmentForm.sized {isName : TypeRow → Nat → String → Prop} {owner : TypeRow}
    {a : NamedArgument} (h : AssignmentForm s isName owner bs a) :
    Sized greatestDepth bs a.value ∧ 2 ≤ bs.length := by
  obtain ⟨hvalue, -, -⟩ := h
  obtain ⟨⟨hlength, hleaves, hdepth⟩, htwo⟩ := hvalue.sized
  rw [List.length_append]
  refine ⟨⟨?_, ?_, hdepth⟩, Nat.le_add_right_of_le htwo⟩
  · rw [List.length_append]
    exact Nat.add_pos_left hlength _
  · rw [List.length_append]
    exact Nat.le_add_right_of_le hleaves

theorem RecordForm.three_le_length {owner : TypeRow} {r : RecordArguments}
    (h : RecordForm s owner bs r) : 3 ≤ bs.length := by
  obtain ⟨hn, hk, hl, -, -, -⟩ := h
  have hn := hn.length_pos
  have hk := hk.length_pos
  have hl := hl.length_pos
  simp only [List.length_append]
  omega

theorem RecordForm.sized {owner : TypeRow} {r : RecordArguments} (h : RecordForm s owner bs r) :
    ((r.fixed ++ r.named.map NamedArgument.value).map Argument.leaves).sum ≤ bs.length ∧
      ∀ v ∈ r.fixed ++ r.named.map NamedArgument.value, v.arrayDepth ≤ greatestDepth := by
  obtain ⟨-, -, -, hvs, hfs, hps⟩ := h
  obtain ⟨hvleaves, hvdepth⟩ := hvs.sized (f := id) fun _ _ hv ↦ hv.sized.1
  obtain ⟨hfleaves, hfdepth⟩ := hfs.sized (f := NamedArgument.value) fun _ _ hf ↦ hf.sized.1
  obtain ⟨hpleaves, hpdepth⟩ := hps.sized (f := NamedArgument.value) fun _ _ hp ↦ hp.sized.1
  rw [List.map_id] at hvleaves hvdepth
  constructor
  · simp only [List.map_append, List.sum_append, List.length_append]
    omega
  · simp only [List.map_append, List.forall_mem_append]
    exact ⟨hvdepth, hfdepth, hpdepth⟩

end Forms

namespace Reader

variable {α : Type} {x : Reader α} {p : Form α} {k : Nat} {s : Snapshot}

/-- Every success takes at least `k` of the bytes that are left. -/
def Advances (k : Nat) (x : Reader α) : Prop :=
  ∀ ⦃c d : Cursor⦄ ⦃a : α⦄, x c = .ok a d →
    d.bytes = c.bytes ∧ c.pos + k ≤ d.pos ∧ d.pos ≤ c.bytes.size

theorem Accepts.advances (hx : x.Accepts p) (hgrounded : Grounded x)
    (hp : ∀ bs a, p bs a → k ≤ bs.length) : Advances k x := by
  intro c d a h
  have hc := hgrounded h
  obtain ⟨bs, hbs, hrest, rfl⟩ := (hx c hc a d).1 h
  exact ⟨rfl, Nat.add_le_add_left (hp bs a hbs) c.pos, hc.skip hrest⟩

/-- How many of `n` steps of a loop succeed, up to the first one that fails. -/
def successes (x : Reader α) : Nat → Cursor → Nat
  | 0, _ => 0
  | n + 1, c =>
    match x c with
    | .ok _ d => successes x n d + 1
    | .error _ _ => 0

theorem successes_succ_of_ok {n : Nat} {c d : Cursor} {a : α} (h : x c = .ok a d) :
    successes x (n + 1) c = successes x n d + 1 := by
  rw [successes, h]

theorem successes_succ_of_error {n : Nat} {c d : Cursor} {e : Error} (h : x c = .error e d) :
    successes x (n + 1) c = 0 := by
  rw [successes, h]

theorem successes_eq_iff {n : Nat} {c : Cursor} :
    successes x n c = n ↔ ∃ as d, times x n c = .ok as d := by
  induction n generalizing c with
  | zero => exact iff_of_true rfl ⟨[], c, rfl⟩
  | succ n ih =>
    cases hx : x c with
    | error e d =>
      rw [successes_succ_of_error hx, times, bind_error hx]
      simp
    | ok a d =>
      rw [successes_succ_of_ok hx, Nat.add_right_cancel_iff, ih, times, bind_ok hx]
      constructor
      · intro h
        obtain ⟨as, d', has⟩ := h
        exact ⟨a :: as, d', bind_ok has⟩
      · intro h
        obtain ⟨_, d', has⟩ := h
        obtain ⟨as, d₁, has, _⟩ := bind_ok_iff.1 has
        exact ⟨as, d₁, has⟩

theorem Advances.mul_successes_le (hx : Advances k x) (n : Nat) (c : Cursor) :
    k * successes x n c ≤ c.rest.length := by
  induction n generalizing c with
  | zero => exact Nat.zero_le _
  | succ n ih =>
    cases h : x c with
    | error e d =>
      rw [successes_succ_of_error h]
      exact Nat.zero_le _
    | ok a d =>
      obtain ⟨hbytes, hstep, hend⟩ := hx h
      have hrest := ih d
      rw [Cursor.length_rest, hbytes] at hrest
      rw [successes_succ_of_ok h, Nat.mul_succ, Cursor.length_rest]
      omega

theorem grounded_payload (f : ValueType → Reader Argument) (tag : UInt8) :
    Grounded (payload s f tag) := by
  unfold payload
  split
  · exact grounded_u8.bind _
  · exact ((grounded_nat 2).map _).map _
  · exact (grounded_u8.map _).map _
  · exact grounded_u8.map _
  · exact (((grounded_nat 2).map _).map _).map _
  · exact ((grounded_nat 2).map _).map _
  · exact grounded_compressedInt.map _
  · exact grounded_compressedUInt.map _
  · exact (((grounded_nat 8).map _).map _).map _
  · exact ((grounded_nat 8).map _).map _
  · exact ((grounded_nat 4).map _).map _
  · exact ((grounded_nat 8).map _).map _
  · exact (grounded_compressedInt.bind _).bind _
  · exact grounded_valueType.bind _
  · exact (grounded_compressedInt.bind _).bind _
  · exact grounded_compressedInt.bind _
  · exact fun _ _ _ h ↦ nomatch h

theorem grounded_valueOf (room : Nat) (t : ValueType) : Grounded (valueOf s room t) := by
  cases room with
  | zero => exact fun _ _ _ h ↦ nomatch h
  | succ room => exact (grounded_payload _ t.tag).map _

theorem advances_value (depth : Nat) : Advances 2 (value s depth) :=
  (accepts_value depth).advances (grounded_value depth) fun _ _ h ↦ h.sized.2

theorem advances_valueOf (room : Nat) (t : ValueType) : Advances 1 (valueOf s room t) :=
  (accepts_valueOf room t).advances (grounded_valueOf room t) fun _ _ h ↦ h.sized.length_pos

theorem advances_arrayElement (room : Nat) (t : ValueType) (flag : UInt8) :
    Advances 1 (arrayElement s (valueOf s room) t flag) := by
  unfold arrayElement
  split
  · refine (accepts_valueType.bind (accepts_valueOf room)).advances (grounded_valueType.bind _) ?_
    exact fun bs v h ↦ (sized_bind_typeForm (fun _ _ _ ↦ ValueForm.sized) h).1.length_pos
  · exact advances_valueOf room t

theorem advances_assignment {isName : TypeRow → Nat → String → Prop}
    {name : TypeRow → Nat → Except Error String} {owner : TypeRow}
    (h : (assignment s name owner).Accepts (AssignmentForm s isName owner)) :
    Advances 2 (assignment s name owner) :=
  h.advances ((grounded_value 0).bind _) fun _ _ ha ↦ ha.sized.2

/-- What the loops over the values of a record and over the elements of an array repeat. -/
inductive Repeated (s : Snapshot) : {α : Type} → Reader α → Prop
  | fixed : Repeated s (value s 0)
  | field (owner : TypeRow) : Repeated s (assignment s (fieldName s) owner)
  | property (owner : TypeRow) : Repeated s (assignment s (propertyName s) owner)
  | element (room : Nat) (t : ValueType) (flag : UInt8) :
      Repeated s (arrayElement s (valueOf s room) t flag)

theorem Advances.mono {n : Nat} (hx : Advances n x) (hk : k ≤ n) : Advances k x := by
  intro c d a h
  obtain ⟨hbytes, hstep, hend⟩ := hx h
  exact ⟨hbytes, (Nat.add_le_add_left hk c.pos).trans hstep, hend⟩

theorem Repeated.advances (h : Repeated s x) : Advances 1 x := by
  have hle : 1 ≤ 2 := Nat.le_succ 1
  cases h with
  | fixed => exact (advances_value 0).mono hle
  | field owner => exact (advances_assignment (accepts_fieldAssignment owner)).mono hle
  | property owner => exact (advances_assignment (accepts_propertyAssignment owner)).mono hle
  | element room t flag => exact advances_arrayElement room t flag

end Reader

namespace RecordReader

variable {s : Snapshot} {r r' : RecordReader} {a : Attribute}

theorem sized_of_next (h : next s r = .ok a r') : r.recordPos + 3 ≤ r'.recordPos ∧
    r.recordPos + (a.values.map Argument.leaves).sum ≤ r'.recordPos ∧
      ∀ v ∈ a.values, v.arrayDepth ≤ greatestDepth := by
  obtain ⟨index, c, owner, values, d, name, -, -, hvalues, -, rfl, rfl⟩ := next_ok_iff.1 h
  have hvalid := Reader.grounded_recordArguments owner hvalues
  obtain ⟨bs, hbs, -, rfl⟩ := (Reader.accepts_recordArguments owner _ hvalid values d).1 hvalues
  obtain ⟨hleaves, hdepth⟩ := hbs.sized
  exact ⟨Nat.add_le_add_left hbs.three_le_length r.recordPos,
    Nat.add_le_add_left hleaves r.recordPos, hdepth⟩

theorem mul_length_readUpTo_le (n : Nat) (r : RecordReader) :
    3 * (readUpTo s n r).1.length ≤ r.bytes.size - r.recordPos := by
  induction n generalizing r with
  | zero => exact Nat.zero_le _
  | succ n ih =>
    cases h : next s r with
    | error e r' =>
      rw [readUpTo_succ_of_error h]
      exact Nat.zero_le _
    | ok a r' =>
      obtain ⟨hbytes, -, -, hend⟩ := pos_of_next h
      obtain ⟨hstep, -, -⟩ := sized_of_next h
      have hrest := ih r'
      rw [hbytes] at hrest
      rw [readUpTo_succ_of_ok h, List.length_cons]
      omega

end RecordReader

namespace Reader

/-- What is decoded is not larger than its bytes. An attribute has at most as many leaves as its
record has bytes; a value takes two bytes or more, and an element of an array one or more; no value
has more than 64 arrays in each other; and no loop takes more steps than there are bytes left, nor
does the one over the records. -/
theorem decoded_within_bytes (s : Snapshot) :
    (∀ r a r', RecordReader.next s r = .ok a r' →
      r.recordPos + (a.values.map Argument.leaves).sum ≤ r'.recordPos ∧
        ∀ v ∈ a.values, v.arrayDepth ≤ 64) ∧
    (∀ depth c v d, value s depth c = .ok v d → c.pos + 2 ≤ d.pos ∧ v.arrayDepth ≤ 64) ∧
    (∀ room t flag c v d, arrayElement s (valueOf s room) t flag c = .ok v d →
      c.pos + 1 ≤ d.pos) ∧
    (∀ {α : Type} (x : Reader α), Repeated s x → ∀ n c, successes x n c ≤ c.rest.length ∧
      (successes x n c = n ↔ ∃ as d, times x n c = .ok as d)) ∧
    ∀ n r, (RecordReader.readUpTo s n r).1.length ≤ r.bytes.size - r.recordPos := by
  refine ⟨fun _ _ _ h ↦ (RecordReader.sized_of_next h).2, ?_, ?_, ?_, ?_⟩
  · intro depth c v d h
    obtain ⟨bs, hbs, -, rfl⟩ := (accepts_value depth c (grounded_value depth h) v d).1 h
    obtain ⟨hsized, hlength⟩ := hbs.sized
    exact ⟨Nat.add_le_add_left hlength c.pos, hsized.arrayDepth_le.trans (Nat.sub_le _ _)⟩
  · intro room t flag c v d h
    exact (advances_arrayElement room t flag h).2.1
  · intro α x hx n c
    have hsteps := hx.advances.mul_successes_le n c
    rw [Nat.one_mul] at hsteps
    exact ⟨hsteps, successes_eq_iff⟩
  · intro n r
    have hrecords := RecordReader.mul_length_readUpTo_le (s := s) n r
    omega

theorem decoded_within_bytes_sample :
    (∃ r r', RecordReader.next RecordReader.sampleType r = .ok RecordReader.sampleAttribute r' ∧
      r.recordPos + 3 ≤ r'.recordPos ∧
      ∀ v ∈ RecordReader.sampleAttribute.values, v.arrayDepth ≤ 64) ∧
    successes (value RecordReader.sampleType 0) 0xFFFFFFFF
      (Cursor.ofBytes ⟨RecordReader.sampleData.toArray⟩) ≤ 21 := by
  obtain ⟨hrecord, -, -, hloop, -⟩ := decoded_within_bytes RecordReader.sampleType
  obtain ⟨a, _, r', ha, hnext, -⟩ :=
    RecordReader.reads_succ_eq_iff.1 RecordReader.reads_sampleRecord
  obtain ⟨rfl, -⟩ := List.cons.inj ha
  exact ⟨⟨_, r', hnext, hrecord _ _ _ hnext⟩, (hloop _ .fixed _ _).1⟩

end Reader

end MetadataDump
