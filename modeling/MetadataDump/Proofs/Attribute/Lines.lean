import MetadataDump.Proofs.Attribute.Diagnostics

namespace MetadataDump

/-- No name of the snapshot has a line feed. Nothing is said of its literals and attribute data. -/
structure Snapshot.SingleLine (s : Snapshot) : Prop where
  strings : ∀ text ∈ s.strings, IsLine text
  types : ∀ entry ∈ s.types, IsLine entry.name
  params : ∀ container ∈ s.genericContainers, ∀ param ∈ container.params, IsLine param
  specs : ∀ spec ∈ s.methodSpecs, IsLine spec.typeName ∧ IsLine spec.methodName

theorem yields_lookup_row {α : Type} (table : Table) (rows : Array α) (i : Int) :
    Yields (fun _ ↦ True) (lookup table rows i) :=
  yields_lookup (fun _ _ ↦ trivial) i

theorem DataError.oneLine {s : Snapshot} {e : Error} (h : DataError s e)
    (hs : ∀ entry ∈ s.types, IsLine entry.name) : e.OneLine := by
  rintro name rfl
  obtain ⟨entry, hentry, rfl⟩ := h.exists_entry
  exact hs entry hentry

namespace Snapshot

namespace SingleLine

variable {s : Snapshot} (hs : s.SingleLine)

include hs

theorem yields_text (i : UInt32) : Yields IsLine (s.text i) := yields_lookup hs.strings _

theorem yields_typeName (i : Int32) : Yields IsLine (s.typeName i) :=
  (yields_lookup hs.types _).map fun _ h ↦ h

theorem yields_genericParams (i : Int32) : Yields IsLine (s.genericParams i) := by
  refine (yields_lookup hs.params _).map fun container hparams ↦ ?_
  exact IsLine.between (IsLine.intercalate (IsLine.literal (by decide)) hparams) (by decide)
    (by decide)

end SingleLine

end Snapshot

namespace Reader

section Values

variable {s : Snapshot} (hs : s.SingleLine)

include hs

theorem gives_valueType : Gives (fun t ↦ ∀ name ∈ t.enumeration, IsLine name) (valueType s) := by
  refine gives_bind fun tag ↦ ends_ite (fun _ ↦ ?_) fun _ ↦ ?_
  · refine gives_bind fun index ↦ gives_bind fun element ↦ ?_
    refine (ends_lift (hs.yields_typeName index).values).bind fun name hname ↦ ?_
    refine ends_pure fun other hother ↦ ?_
    obtain rfl := Option.some.inj hother
    exact hname
  · exact ends_pure nofun

theorem gives_payload {inner : ValueType → Reader Argument}
    (hinner : ∀ t, (∀ name ∈ t.enumeration, IsLine name) →
      Gives (fun a ↦ IsLine a.text) (inner t)) (tag : UInt8) :
    Gives (fun a ↦ IsLine a.text) (payload s inner tag) := by
  have hnull : IsLine Argument.null.text := IsLine.literal (by decide)
  have hboxed : Gives (fun a ↦ IsLine a.text) (valueType s >>= inner) :=
    (gives_valueType hs).bind hinner
  unfold payload
  split
  · exact gives_bind fun b ↦ ends_pure (IsLine.boolText _)
  · exact gives_map fun unit ↦ IsLine.charLiteral unit
  · exact gives_map fun n ↦ IsLine.toString_int _
  · exact gives_map fun n ↦ IsLine.toString_nat _
  · exact gives_map fun n ↦ IsLine.toString_int _
  · exact gives_map fun n ↦ IsLine.toString_nat _
  · exact gives_map fun n ↦ IsLine.toString_int _
  · exact gives_map fun n ↦ IsLine.toString_nat _
  · exact gives_map fun n ↦ IsLine.toString_int _
  · exact gives_map fun n ↦ IsLine.toString_nat _
  · exact gives_map fun bits ↦ IsLine.plain _ _
  · exact gives_map fun bits ↦ IsLine.plain _ _
  · refine gives_bind fun length ↦ ?_
    cases length with
    | none => exact ends_pure hnull
    | some n => exact gives_map fun text ↦ IsLine.quote text
  · exact hboxed
  · refine gives_bind fun length ↦ ?_
    cases length with
    | none => exact ends_pure hnull
    | some n =>
      refine (gives_valueType hs).bind fun element helement ↦ gives_bind fun flag ↦ ?_
      refine (ends_times ?_ n).map fun elements helements ↦ IsLine.arrayText helements
      exact ends_ite (fun _ ↦ hboxed) fun _ ↦ hinner element helement
  · refine gives_bind fun index ↦ ends_ite (fun _ ↦ ?_) fun _ ↦ ?_
    · exact ends_pure hnull
    · exact (ends_lift (hs.yields_typeName index).values).map fun name hname ↦
        IsLine.typeText hname
  · exact ends_throw trivial

theorem gives_valueOf (room : Nat) (t : ValueType) (ht : ∀ name ∈ t.enumeration, IsLine name) :
    Gives (fun a ↦ IsLine a.text) (valueOf s room t) := by
  -- The values inside a payload have one level less, and types of their own.
  induction room generalizing t with
  | zero => exact ends_throw trivial
  | succ room ih =>
    refine (gives_payload hs ih t.tag).map fun a ha ↦ ?_
    unfold ValueType.wrap
    split
    · next name hname => exact IsLine.enumerationText (ht name hname) ha
    · exact ha

theorem gives_value (depth : Nat) : Gives (fun a ↦ IsLine a.text) (value s depth) :=
  (gives_valueType hs).bind fun t ht ↦ gives_valueOf hs _ t ht

end Values

section Records

variable {s : Snapshot} (hs : s.SingleLine)

theorem yields_memberIndex (start : Int32) (position : Nat) :
    Yields (fun _ ↦ True) (memberIndex start position) :=
  answers_ite (fun _ ↦ nofun) fun _ ↦ trivial

include hs

theorem yields_fieldName (declaring : TypeRow) (position : Nat) :
    Yields IsLine (fieldName s declaring position) :=
  (yields_memberIndex _ _).bind fun _ _ ↦ (yields_lookup_row _ _ _).bind fun row _ ↦
    hs.yields_text row.nameIndex

theorem yields_propertyName (declaring : TypeRow) (position : Nat) :
    Yields IsLine (propertyName s declaring position) :=
  (yields_memberIndex _ _).bind fun _ _ ↦ (yields_lookup_row _ _ _).bind fun row _ ↦
    hs.yields_text row.nameIndex

theorem gives_assignment {name : TypeRow → Nat → Except Error String}
    (hname : ∀ declaring position, Yields IsLine (name declaring position)) (owner : TypeRow) :
    Gives (fun a ↦ IsLine a.text) (assignment s name owner) := by
  refine (gives_value hs 0).bind fun value hvalue ↦ gives_bind fun at_ ↦ ?_
  refine (ends_lift (hname at_.1 at_.2).values).bind fun text htext ↦ ends_pure ?_
  exact IsLine.append (htext.append (IsLine.literal (by decide))) hvalue

theorem gives_recordArguments (owner : TypeRow) :
    Gives (fun r ↦ (∀ a ∈ r.fixed, IsLine a.text) ∧ ∀ a ∈ r.named, IsLine a.text)
      (recordArguments s owner) := by
  have hfields := ends_times (gives_assignment hs (yields_fieldName hs) owner)
  have hproperties := ends_times (gives_assignment hs (yields_propertyName hs) owner)
  refine gives_bind fun fixedCount ↦ gives_bind fun fieldCount ↦ gives_bind fun propertyCount ↦ ?_
  refine (ends_times (gives_value hs 0) _).bind fun fixed hfixed ↦ ?_
  refine (hfields _).bind fun fs hfs ↦ (hproperties _).bind fun ps hps ↦ ?_
  exact ends_pure ⟨hfixed, List.forall_mem_append.2 ⟨hfs, hps⟩⟩

end Records

end Reader

section Names

/-- A name loses characters only. -/
theorem mem_of_mem_eraseWord {word cs : List Char} {skip : Nat} {c : Char}
    (h : c ∈ eraseWord word skip cs) : c ∈ cs := by
  induction cs generalizing skip with
  | nil => cases h
  | cons d cs ih =>
    cases skip with
    | succ k => exact List.mem_cons_of_mem d (ih h)
    | zero =>
      rw [eraseWord] at h
      split at h
      · exact List.mem_cons_of_mem d (ih h)
      · rcases List.mem_cons.1 h with rfl | hmem
        · exact List.mem_cons_self
        · exact List.mem_cons_of_mem d (ih hmem)

theorem IsLine.attributeName {name : String} (h : IsLine name) :
    IsLine (MetadataDump.attributeName name) :=
  ofList_iff.2 fun hmem ↦ h.not_mem (mem_of_mem_eraseWord hmem)

end Names

namespace RecordReader

variable {s : Snapshot} (hs : s.SingleLine)

include hs

theorem gives_next : Gives (fun a ↦ IsLine a.text) (next s) := by
  refine gives_bind fun r ↦ gives_bind fun index ↦ gives_bind fun _ ↦ gives_bind fun type ↦
    gives_bind fun r ↦ ?_
  refine (ends_readAt (Reader.gives_recordArguments hs type) _).bind fun record hrecord ↦ ?_
  refine gives_bind fun _ ↦ ?_
  refine (ends_lift (hs.yields_text type.nameIndex).values).bind fun name hname ↦ ?_
  exact ends_pure (IsLine.attributeText hname.attributeName hrecord.1 hrecord.2)

theorem isLine_readUpTo (n : Nat) (r : RecordReader) :
    ∀ a ∈ (readUpTo s n r).1, IsLine a.text := by
  induction n generalizing r with
  | zero => exact List.forall_mem_nil _
  | succ n ih =>
    cases hnext : next s r with
    | error e r' =>
      rw [readUpTo_succ_of_error hnext]
      exact List.forall_mem_nil _
    | ok a r' =>
      rw [readUpTo_succ_of_ok hnext]
      exact List.forall_mem_cons.2 ⟨(gives_next hs).of_ok hnext, ih r'⟩

end RecordReader

namespace AttributeScheme

theorem RangeReads.isLine {s : Snapshot} {i : Nat} {as : List Attribute} {failure : Option Error}
    (h : RangeReads s i as failure) (hs : s.SingleLine) : ∀ a ∈ as, IsLine a.text := by
  cases h with
  | noData | empty | badHeader => exact List.forall_mem_nil _
  | @records bytes r as failure hdata hsize hheader hstops =>
    have hlines := RecordReader.isLine_readUpTo hs r.count.toNat r
    rwa [← hstops.eq_readUpTo] at hlines

end AttributeScheme

end MetadataDump
