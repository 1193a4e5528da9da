import MetadataDump.Proofs.Attribute.Prefix
import MetadataDump.Proofs.Bytes.Yields

namespace MetadataDump

section Words

inductive Text.Utf8.Fault.Told : Text.Utf8.Fault → String → Prop
  | invalid (valid length : Nat) : Told (.invalid valid length)
      s!"invalid utf-8 sequence of {length} bytes from index {valid}"
  | incomplete (valid : Nat) : Told (.incomplete valid)
      s!"incomplete utf-8 byte sequence from index {valid}"

/-- The digits of a byte, the upper four bits first. -/
inductive ByteDigits : UInt8 → String → Prop
  | mk {b : UInt8} {high low : Char} : "0123456789ABCDEF".toList[b.toNat / 16]? = some high →
      "0123456789ABCDEF".toList[b.toNat % 16]? = some low → ByteDigits b s!"{high}{low}"

inductive Damage.Told : Damage → String → Prop
  | invalidText (start stop : Nat) {fault : Text.Utf8.Fault} {words : String} :
      fault.Told words → Told (.invalidText start stop fault)
        s!"Invalid UTF-8 string at offset {start}-{stop}: {words}"
  | compressedLead {lead : UInt8} {digits : String} : ByteDigits lead digits →
      Told (.compressedLead lead) s!"Invalid compressed uint prefix - 0x{digits}"
  | invertedRange (start stop : UInt32) : Told (.invertedRange start stop)
      s!"Attribute data range is inverted - {start.toNat}..{stop.toNat}"
  | notAnEnum (name : String) : Told (.notAnEnum name) s!"Type '{name}' is not an enum"
  | constructorTable (count size : Nat) : Told (.constructorTable count size)
      s!"Attribute constructor table exceeds data - {count} entries in {size} bytes"
  | negativeConstructor (index : Int32) : Told (.negativeConstructor index)
      s!"Invalid attribute constructor - {index.toInt}"
  | memberBeforeTable (start : Int32) (member : Nat) : Told (.memberBeforeTable start member)
      s!"Invalid named argument member - {start.toInt} + {member}"
  | tooDeep (levels : Nat) : Told (.tooDeep levels)
      s!"Attribute value nesting exceeds {levels} levels"
  | textLength (length : Int32) : Told (.textLength length)
      s!"Invalid string length - {length.toInt}"
  | arrayLength (length : Int32) : Told (.arrayLength length)
      s!"Invalid array length - {length.toInt}"
  | valueTag {tag : UInt8} {digits : String} : ByteDigits tag digits →
      Told (.valueTag tag) s!"Unsupported attribute value type - 0x{digits}"

def tableNames : List (Table × String) :=
  [(.typeDefs, "type_defs"), (.fields, "fields"), (.properties, "properties"),
    (.methods, "methods"), (.parameters, "parameters"),
    (.interfaceIndices, "interface_indices"), (.strings, "strings"), (.types, "types"),
    (.genericContainers, "generic_containers"), (.methodSpecs, "method_specs"),
    (.attributeTypeRanges, "attribute_type_ranges"), (.attributeTypes, "attribute_types"),
    (.attributeDataRanges, "attribute_data_ranges")]

/-- The text that tells an error in metadata. -/
inductive Error.Told [Places] : Error → String → Prop
  | malformed {damage : Damage} {place : Place} {words : String} :
      Places.damage damage = place → damage.Told words →
        Told (.malformed damage) s!"Malformed - {place.file}:{place.line}: {words}"
  | outOfBounds {check : Check} {place : Place} : Places.check check = place →
      Told (.outOfBounds check)
        s!"Out of Bound read would have occurred - {place.file}:{place.line}"
  | dangling {table : Table} {name : String} (index : Int) : (table, name) ∈ tableNames →
      Told (.dangling table index) s!"Index {index} is out of range for table '{name}'"

theorem Text.Utf8.Fault.told_message (f : Text.Utf8.Fault) : f.Told f.message := by
  cases f with
  | invalid valid length => exact .invalid valid length
  | incomplete valid => exact .incomplete valid

theorem byteDigits_byteHex (b : UInt8) : ByteDigits b (Text.byteHex b) := by
  have hdigit : ∀ d < 16,
      "0123456789ABCDEF".toList[d]? = some (Nat.digitChar d).toUpper := by decide
  have hb := b.toNat_lt
  have hhigh : b.toNat / 16 % 16 = b.toNat / 16 := Nat.mod_eq_of_lt (by omega)
  have htext : Text.byteHex b = toString (Nat.digitChar (b.toNat / 16)).toUpper ++
      toString (Nat.digitChar (b.toNat % 16)).toUpper := by
    apply String.toList_injective
    rw [String.toList_append, Text.byteHex, String.toList_ofList]
    simp [Text.fixedHex, toString, String.toList_singleton, hhigh]
  rw [htext]
  exact .mk (hdigit (b.toNat / 16) (by omega)) (hdigit (b.toNat % 16) (by omega))

theorem Damage.told_message (d : Damage) : d.Told d.message := by
  cases d with
  | invalidText start stop fault =>
    exact .invalidText start stop fault.told_message
  | compressedLead lead => exact .compressedLead (byteDigits_byteHex lead)
  | invertedRange start stop => exact .invertedRange start stop
  | notAnEnum name => exact .notAnEnum name
  | constructorTable count size => exact .constructorTable count size
  | negativeConstructor index => exact .negativeConstructor index
  | memberBeforeTable start member => exact .memberBeforeTable start member
  | tooDeep levels => exact .tooDeep levels
  | textLength length => exact .textLength length
  | arrayLength length => exact .arrayLength length
  | valueTag tag => exact .valueTag (byteDigits_byteHex tag)

theorem Error.Told.of_dangling [Places] (table : Table) (index : Int) :
    Told (.dangling table index) (Error.dangling table index).message := by
  have hname : (table, table.name) ∈ tableNames := by cases table <;> decide
  exact .dangling index hname

end Words

/-- The errors that attribute data can lead to. The only text of a snapshot in them is the name of a
type. -/
inductive DataError (s : Snapshot) : Error → Prop
  | malformed {damage : Damage} :
      (∀ name, damage = .notAnEnum name → ∃ entry ∈ s.types, entry.name = name) →
        DataError s (.malformed damage)
  | outOfBounds (check : Check) : DataError s (.outOfBounds check)
  | dangling (table : Table) (index : Int) : DataError s (.dangling table index)

theorem DataError.told [Places] {s : Snapshot} {e : Error} (h : DataError s e) :
    e.Told e.message := by
  cases h with
  | malformed => exact .malformed rfl (Damage.told_message _)
  | outOfBounds check => exact .outOfBounds rfl
  | dangling table index => exact .of_dangling table index

namespace DataError

variable {s : Snapshot}

theorem of_ne {damage : Damage} (h : ∀ name, damage ≠ .notAnEnum name) :
    DataError s (.malformed damage) := .malformed fun name hname ↦ absurd hname (h name)

theorem exists_entry {name : String} (h : DataError s (.malformed (.notAnEnum name))) :
    ∃ entry ∈ s.types, entry.name = name := by
  cases h with
  | malformed hname => exact hname name rfl

theorem answers_row {α : Type} (table : Table) (rows : Array α) (i : Int) :
    Answers (RowAt rows i) (DataError s) (lookup table rows i) :=
  answers_lookup (.dangling table) rows i

theorem answers_any {α : Type} (table : Table) (rows : Array α) (i : Int) :
    Answers (fun _ ↦ True) (DataError s) (lookup table rows i) :=
  (answers_row table rows i).mono fun _ _ ↦ trivial

theorem answers_typeName (i : Int32) : Answers (fun _ ↦ True) (DataError s) (s.typeName i) :=
  (answers_any _ _ _).map fun _ _ ↦ trivial

theorem answers_enumElement (i : Int32) :
    Answers (fun _ ↦ True) (DataError s) (s.enumElement i) := by
  refine (answers_row _ _ _).bind fun entry hentry ↦ ?_
  split
  · trivial
  · refine .malformed fun name hname ↦ ⟨entry, Array.mem_of_getElem? hentry.2, ?_⟩
    exact Damage.notAnEnum.inj hname

end DataError

namespace Reader

variable {s : Snapshot} {α : Type}

section Numbers

theorem failsWith_take (check : Check) (n : Nat) : FailsWith (DataError s) (take check n) := by
  refine ends_get.bind fun c _ ↦ ends_ite (fun _ ↦ ?_) fun _ ↦ ?_
  · exact fun _ ↦ trivial
  · exact ends_throw (.outOfBounds check)

theorem failsWith_nat (n : Nat) : FailsWith (DataError s) (nat n) := (failsWith_take _ n).map _

theorem failsWith_u8 : FailsWith (DataError s) u8 := (failsWith_nat 1).map _

theorem failsWith_u32 : FailsWith (DataError s) u32 := (failsWith_nat 4).map _

theorem failsWith_text (n : Nat) : FailsWith (DataError s) (text n) := by
  refine ends_get.bind fun c _ ↦ (failsWith_take .bytes n).bind fun bytes ↦ ?_
  split
  · exact ends_pure trivial
  · exact ends_throw (.of_ne nofun)

theorem failsWith_compressedUInt : FailsWith (DataError s) compressedUInt := by
  refine failsWith_u8.bind fun lead ↦ ends_ite (fun _ ↦ ?_) fun _ ↦ ends_ite (fun _ ↦ ?_) fun _ ↦
    ends_ite (fun _ ↦ ?_) fun _ ↦ ends_ite (fun _ ↦ ?_) fun _ ↦ ends_ite (fun _ ↦ ?_) fun _ ↦
    ends_ite (fun _ ↦ ?_) fun _ ↦ ?_
  · exact ends_pure trivial
  · exact failsWith_u8.bind fun _ ↦ ends_pure trivial
  · exact failsWith_u8.bind fun _ ↦ failsWith_u8.bind fun _ ↦ failsWith_u8.bind fun _ ↦
      ends_pure trivial
  · exact failsWith_u32
  · exact ends_pure trivial
  · exact ends_pure trivial
  · exact ends_throw (.of_ne nofun)

theorem failsWith_compressedInt : FailsWith (DataError s) compressedInt :=
  failsWith_compressedUInt.map _

end Numbers

section Values

theorem ends_lift {p : α → Prop} {r : Error → Prop} {x : Except Error α} (h : Answers p r x) :
    Ends p r (lift x) := by
  cases x with
  | ok a => exact ends_pure h
  | error e => exact ends_throw h

theorem ends_times {p : α → Prop} {r : Error → Prop} {read : Reader α} (h : Ends p r read)
    (n : Nat) : Ends (fun as ↦ ∀ a ∈ as, p a) r (times read n) := by
  induction n with
  | zero => exact ends_pure (List.forall_mem_nil _)
  | succ n ih =>
    refine h.bind fun a ha ↦ ih.bind fun as has ↦ ?_
    exact ends_pure (List.forall_mem_cons.2 ⟨ha, has⟩)

theorem failsWith_times {read : Reader α} (h : FailsWith (DataError s) read) (n : Nat) :
    FailsWith (DataError s) (times read n) := by
  have hlist := (ends_times h n).map (f := id) (q := fun _ ↦ True) fun _ _ ↦ trivial
  rwa [id_map] at hlist

theorem failsWith_length? (invalid : Int32 → Damage) (h : ∀ n name, invalid n ≠ .notAnEnum name) :
    FailsWith (DataError s) (length? invalid) := by
  refine failsWith_compressedInt.bind fun n ↦ ends_ite (fun _ ↦ ?_) fun _ ↦
    ends_ite (fun _ ↦ ?_) fun _ ↦ ?_
  · exact ends_pure trivial
  · exact ends_throw (.of_ne (h n))
  · exact ends_pure trivial

theorem failsWith_valueType : FailsWith (DataError s) (valueType s) := by
  refine failsWith_u8.bind fun tag ↦ ends_ite (fun _ ↦ ?_) fun _ ↦ ?_
  · refine failsWith_compressedInt.bind fun index ↦ ?_
    refine (ends_lift (DataError.answers_enumElement index)).bind fun element _ ↦ ?_
    exact (ends_lift (DataError.answers_typeName index)).bind fun name _ ↦ ends_pure trivial
  · exact ends_pure trivial

theorem failsWith_payload {inner : ValueType → Reader Argument}
    (hinner : ∀ t, FailsWith (DataError s) (inner t)) (tag : UInt8) :
    FailsWith (DataError s) (payload s inner tag) := by
  have hboxed : FailsWith (DataError s) (valueType s >>= inner) := failsWith_valueType.bind hinner
  unfold payload
  split
  · exact failsWith_u8.bind fun _ ↦ ends_pure trivial
  · exact ((failsWith_nat 2).map _).map _
  · exact (failsWith_u8.map _).map _
  · exact failsWith_u8.map _
  · exact (((failsWith_nat 2).map _).map _).map _
  · exact ((failsWith_nat 2).map _).map _
  · exact failsWith_compressedInt.map _
  · exact failsWith_compressedUInt.map _
  · exact (((failsWith_nat 8).map _).map _).map _
  · exact ((failsWith_nat 8).map _).map _
  · exact failsWith_u32.map _
  · exact ((failsWith_nat 8).map _).map _
  · refine (failsWith_length? Damage.textLength fun _ ↦ nofun).bind fun length ↦ ?_
    cases length with
    | none => exact ends_pure trivial
    | some n => exact (failsWith_text n).map _
  · exact hboxed
  · refine (failsWith_length? Damage.arrayLength fun _ ↦ nofun).bind fun length ↦ ?_
    cases length with
    | none => exact ends_pure trivial
    | some n =>
      refine failsWith_valueType.bind fun element ↦ failsWith_u8.bind fun flag ↦ ?_
      refine (failsWith_times ?_ n).map _
      exact ends_ite (fun _ ↦ hboxed) fun _ ↦ hinner element
  · refine failsWith_compressedInt.bind fun index ↦ ends_ite (fun _ ↦ ?_) fun _ ↦ ?_
    · exact ends_pure trivial
    · exact (ends_lift (DataError.answers_typeName index)).map fun _ _ ↦ trivial
  · exact ends_throw (.of_ne nofun)

theorem failsWith_valueOf (room : Nat) (t : ValueType) :
    FailsWith (DataError s) (valueOf s room t) := by
  induction room generalizing t with
  | zero => exact ends_throw (.of_ne nofun)
  | succ room ih => exact (failsWith_payload ih t.tag).map _

theorem failsWith_value (depth : Nat) : FailsWith (DataError s) (value s depth) :=
  failsWith_valueType.bind fun t ↦ failsWith_valueOf _ t

end Values

section Records

theorem failsWith_member (owner : TypeRow) : FailsWith (DataError s) (member s owner) := by
  refine failsWith_compressedInt.bind fun position ↦ ends_ite (fun _ ↦ ?_) fun _ ↦ ?_
  · exact ends_pure trivial
  · refine failsWith_compressedUInt.bind fun declaring ↦ ?_
    exact (ends_lift (DataError.answers_any _ _ _)).bind fun _ _ ↦ ends_pure trivial

theorem answers_memberIndex (start : Int32) (position : Nat) :
    Answers (fun _ ↦ True) (DataError s) (memberIndex start position) :=
  answers_ite (fun _ ↦ .of_ne nofun) fun _ ↦ trivial

theorem answers_fieldName (declaring : TypeRow) (position : Nat) :
    Answers (fun _ ↦ True) (DataError s) (fieldName s declaring position) :=
  (answers_memberIndex _ _).bind fun _ _ ↦ (DataError.answers_any _ _ _).bind fun _ _ ↦
    DataError.answers_any _ _ _

theorem answers_propertyName (declaring : TypeRow) (position : Nat) :
    Answers (fun _ ↦ True) (DataError s) (propertyName s declaring position) :=
  (answers_memberIndex _ _).bind fun _ _ ↦ (DataError.answers_any _ _ _).bind fun _ _ ↦
    DataError.answers_any _ _ _

theorem failsWith_assignment {name : TypeRow → Nat → Except Error String}
    (hname : ∀ declaring position,
      Answers (fun _ ↦ True) (DataError s) (name declaring position)) (owner : TypeRow) :
    FailsWith (DataError s) (assignment s name owner) := by
  refine (failsWith_value 0).bind fun value ↦ (failsWith_member owner).bind fun at_ ↦ ?_
  exact (ends_lift (hname at_.1 at_.2)).bind fun _ _ ↦ ends_pure trivial

theorem failsWith_recordArguments (owner : TypeRow) :
    FailsWith (DataError s) (recordArguments s owner) := by
  have hfields := failsWith_assignment (answers_fieldName (s := s)) owner
  have hproperties := failsWith_assignment (answers_propertyName (s := s)) owner
  refine failsWith_compressedUInt.bind fun fixedCount ↦ failsWith_compressedUInt.bind
    fun fieldCount ↦ failsWith_compressedUInt.bind fun propertyCount ↦ ?_
  refine (failsWith_times (failsWith_value 0) _).bind fun fixed ↦ ?_
  exact (failsWith_times hfields _).bind fun _ ↦ (failsWith_times hproperties _).bind fun _ ↦
    ends_pure trivial

end Records

end Reader

namespace RecordReader

variable {s : Snapshot}

theorem ends_readAt {α : Type} {p : α → Prop} {r : Error → Prop} {read : Reader α}
    (h : Ends p r read) (pos : Nat) : Ends (fun v ↦ p v.1) r (readAt pos read) := by
  intro reader
  unfold readAt
  cases hread : read ⟨reader.bytes, pos⟩ with
  | ok a c => exact h.of_ok hread
  | error e c => exact h.of_error hread

theorem ends_lift {α : Type} {p : α → Prop} {r : Error → Prop} {x : Except Error α}
    (h : Answers p r x) : Ends p r (RecordReader.lift x) := by
  cases x with
  | ok a => exact ends_pure h
  | error e => exact ends_throw h

theorem answers_attributeType (index : Int32) :
    Answers (fun _ ↦ True) (DataError s) (attributeType s index) := by
  unfold attributeType
  split
  · exact .of_ne nofun
  · exact (DataError.answers_any _ _ _).bind fun _ _ ↦ DataError.answers_any _ _ _

theorem answers_ofBytes (bytes : ByteArray) :
    Answers (fun _ ↦ True) (DataError s) (ofBytes bytes) := by
  unfold ofBytes
  split
  · next e c he => exact Reader.failsWith_compressedUInt.of_error he
  · exact answers_ite (fun _ ↦ trivial) fun _ ↦ .of_ne nofun

theorem failsWith_next : FailsWith (DataError s) (next s) := by
  have hindex : FailsWith (DataError s) Reader.i32 := Reader.failsWith_u32.map _
  refine ends_get.bind fun r _ ↦ (ends_readAt hindex _).bind fun index _ ↦ ?_
  refine (ends_modify _).bind fun _ _ ↦ ?_
  refine (ends_lift (answers_attributeType index.1)).bind fun type _ ↦ ?_
  refine ends_get.bind fun r _ ↦ ?_
  refine (ends_readAt (Reader.failsWith_recordArguments type) _).bind fun record _ ↦ ?_
  refine (ends_modify _).bind fun _ _ ↦ ?_
  exact (ends_lift (DataError.answers_any _ _ _)).bind fun name _ ↦ ends_pure trivial

theorem dataError_of_readUpTo {n : Nat} {r : RecordReader} {e : Error}
    (h : (readUpTo s n r).2 = some e) : DataError s e := by
  induction n generalizing r with
  | zero => cases h
  | succ n ih =>
    cases hnext : next s r with
    | error e' r' =>
      rw [readUpTo_succ_of_error hnext] at h
      obtain rfl := Option.some.inj h
      exact failsWith_next.of_error hnext
    | ok a r' =>
      rw [readUpTo_succ_of_ok hnext] at h
      exact ih h

end RecordReader

namespace AttributeScheme

variable {s : Snapshot} {i : Nat}

theorem answers_rangeData (s : Snapshot) (i : Nat) :
    Answers (fun _ ↦ True) (DataError s) (rangeData s i) := by
  have hoffset (j : Nat) : Answers (fun _ ↦ True) (DataError s) (s.attributeDataOffset j) :=
    (DataError.answers_any _ _ _).map fun _ _ ↦ trivial
  refine (hoffset i).bind fun start _ ↦ (hoffset (i + 1)).bind fun stop _ ↦ ?_
  refine answers_ite (fun _ ↦ .of_ne nofun) fun _ ↦ ?_
  exact answers_ite (fun _ ↦ .outOfBounds _) fun _ ↦ trivial

theorem RangeReads.dataError {as : List Attribute} {e : Error} (h : RangeReads s i as (some e)) :
    DataError s e := by
  cases h with
  | noData hdata => exact (answers_rangeData s i).of_error hdata.eq
  | badHeader hdata hsize hheader => exact (RecordReader.answers_ofBytes _).of_error hheader
  | records hdata hsize hheader hstops =>
    exact RecordReader.dataError_of_readUpTo (congrArg Prod.snd hstops.eq_readUpTo).symm

/-- What stands behind the attributes of a range: nothing, or the line that tells what stopped the
reading. -/
inductive Remark [Places] (indent : String) : Option Error → String → Prop
  | none : Remark indent none ""
  | undecodable {e : Error} {words : String} : e.Told words → Remark indent (some e)
      (indent ++ "/* Undecodable custom attribute data: " ++ words ++ " */\n")

/-- The lines of a range of attribute data are never an error. They are those of the attributes in
front of the first failure, of which there is one at most, and one line more if there is one, which
tells the failure. -/
theorem lines_data_of_rangeReads [Places] (s : Snapshot) (i : Nat) (indent : String) :
    ∃ (as : List Attribute) (failure : Option Error) (remark : String),
      RangeReads s i as failure ∧
      (∀ bs failure', RangeReads s i bs failure' → bs = as ∧ failure' = failure) ∧
      Remark indent failure remark ∧
      lines .data s i indent =
        .ok (String.join (as.map fun a ↦ indent ++ a.text ++ "\n") ++ remark) := by
  have hreads := rangeReads_rangeAttributes s i
  refine ⟨_, _, String.join ((rangeAttributes s i).2.toList.map (failureLine indent)), hreads,
    ?_, ?_, rfl⟩
  · intro bs failure' h
    exact Prod.mk.inj h.eq_rangeAttributes
  · cases hfailure : (rangeAttributes s i).2 with
    | none => exact .none
    | some e =>
      rw [hfailure] at hreads
      have hline : String.join ((some e).toList.map (failureLine indent)) = failureLine indent e :=
        String.empty_append
      rw [hline]
      exact .undecodable hreads.dataError.told

end AttributeScheme

end MetadataDump
