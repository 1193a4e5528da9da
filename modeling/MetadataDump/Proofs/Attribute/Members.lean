import MetadataDump.Proofs.Attribute.Cursors
import MetadataDump.Proofs.Declaration.Accessors

namespace MetadataDump

namespace Form

variable {α β : Type} {p : Form α}

/-- If one form is another one up to what is kept of a value, then so are the sequences of both. -/
theorem sequence_map_iff {q : Form β} {f : β → α} (h : ∀ bs a, p bs a ↔ ∃ b, q bs b ∧ f b = a)
    {bs : List UInt8} {as : List α} :
    p.Sequence bs as ↔ ∃ items, q.Sequence bs items ∧ items.map f = as := by
  constructor
  · intro hs
    induction hs with
    | nil => exact ⟨[], .nil, rfl⟩
    | cons ha _ ih =>
      obtain ⟨b, hb, rfl⟩ := (h _ _).1 ha
      obtain ⟨items, hitems, rfl⟩ := ih
      exact ⟨b :: items, .cons hb hitems, rfl⟩
  · intro hs
    obtain ⟨items, hitems, rfl⟩ := hs
    induction hitems with
    | nil => exact .nil
    | cons hb _ ih => exact .cons ((h _ _).2 ⟨_, hb, rfl⟩) ih

end Form

structure MemberAssignment where
  declaring : TypeRow
  position : Nat
  argument : NamedArgument

structure RecordMembers where
  fixed : List Argument
  fields : List MemberAssignment
  properties : List MemberAssignment

def RecordMembers.arguments (members : RecordMembers) : RecordArguments :=
  ⟨members.fixed, members.fields.map MemberAssignment.argument ++
    members.properties.map MemberAssignment.argument⟩

section Forms

variable {s : Snapshot} {owner : TypeRow} {isName : TypeRow → Nat → String → Prop}
  {bs : List UInt8}

/-- The forms of an assignment, as those in `AssignmentForm`, with its member. -/
inductive MemberAssignmentForm (s : Snapshot) (isName : TypeRow → Nat → String → Prop)
    (owner : TypeRow) : Form MemberAssignment
  | mk {bs cs : List UInt8} {value : Argument} {declaring : TypeRow} {position : Nat}
      {name : String} : TypedForm s 0 bs value → MemberForm s owner cs (declaring, position) →
      isName declaring position name →
      MemberAssignmentForm s isName owner (bs ++ cs) ⟨declaring, position, name, value⟩

inductive RecordMembersForm (s : Snapshot) (owner : TypeRow) : Form RecordMembers
  | mk {bs cs ds vs fs ps : List UInt8} {fixed : List Argument}
      {fields properties : List MemberAssignment} : UIntForm fixed.length bs →
      UIntForm fields.length cs → UIntForm properties.length ds →
      (TypedForm s 0).Sequence vs fixed →
      (MemberAssignmentForm s s.IsFieldName owner).Sequence fs fields →
      (MemberAssignmentForm s s.IsPropertyName owner).Sequence ps properties →
      RecordMembersForm s owner (bs ++ (cs ++ (ds ++ (vs ++ (fs ++ ps)))))
        ⟨fixed, fields, properties⟩

theorem assignmentForm_iff (bs : List UInt8) (a : NamedArgument) :
    AssignmentForm s isName owner bs a ↔
      ∃ x, MemberAssignmentForm s isName owner bs x ∧ x.argument = a := by
  constructor
  · intro h
    obtain ⟨hvalue, hmember, hname⟩ := h
    exact ⟨_, .mk hvalue hmember hname, rfl⟩
  · intro h
    obtain ⟨_, ⟨hvalue, hmember, hname⟩, rfl⟩ := h
    exact .mk hvalue hmember hname

theorem recordForm_iff {values : RecordArguments} : RecordForm s owner bs values ↔
    ∃ members, RecordMembersForm s owner bs members ∧ members.arguments = values := by
  constructor
  · intro h
    obtain ⟨hfixed, hfields, hproperties, hvs, hfs, hps⟩ := h
    obtain ⟨fields, hfs', rfl⟩ := (Form.sequence_map_iff assignmentForm_iff).1 hfs
    obtain ⟨properties, hps', rfl⟩ := (Form.sequence_map_iff assignmentForm_iff).1 hps
    rw [List.length_map] at hfields hproperties
    exact ⟨_, .mk hfixed hfields hproperties hvs hfs' hps', rfl⟩
  · intro h
    obtain ⟨_, ⟨hfixed, hfields, hproperties, hvs, hfs, hps⟩, rfl⟩ := h
    refine .mk hfixed ?_ ?_ hvs ((Form.sequence_map_iff assignmentForm_iff).2 ⟨_, hfs, rfl⟩)
      ((Form.sequence_map_iff assignmentForm_iff).2 ⟨_, hps, rfl⟩)
    · rwa [List.length_map]
    · rwa [List.length_map]

theorem MemberAssignmentForm.isName_of_mem {xs : List MemberAssignment}
    (h : (MemberAssignmentForm s isName owner).Sequence bs xs) :
    ∀ x ∈ xs, isName x.declaring x.position x.argument.name := by
  induction h with
  | nil => exact fun _ hx ↦ nomatch hx
  | cons hx _ ih =>
    obtain ⟨-, -, hname⟩ := hx
    exact List.forall_mem_cons.2 ⟨hname, ih⟩

theorem Snapshot.IsMemberName.unique {α : Type} {rows : Array α} {nameIndex : α → UInt32}
    {start : Int32} {position : Nat} {name name' : String}
    (h : s.IsMemberName rows nameIndex start position name)
    (h' : s.IsMemberName rows nameIndex start position name') : name = name' := by
  obtain ⟨-, row, hrow, hname⟩ := h
  obtain ⟨-, row', hrow', hname'⟩ := h'
  obtain rfl := hrow.unique hrow'
  exact Option.some.inj (hname.symm.trans hname')

theorem MemberAssignmentForm.unambiguous
    (hisName : ∀ declaring position name name',
      isName declaring position name → isName declaring position name' → name = name') :
    (MemberAssignmentForm s isName owner).Unambiguous := by
  intro bs cs ds es x y hx hy h
  obtain ⟨hvalue, hmember, hname⟩ := hx
  obtain ⟨hvalue', hmember', hname'⟩ := hy
  rw [List.append_assoc, List.append_assoc] at h
  obtain ⟨rfl, h⟩ := (Reader.accepts_value 0).unambiguous hvalue hvalue' h
  obtain ⟨hsame, h⟩ := (Reader.accepts_member owner).unambiguous hmember hmember' h
  cases hsame
  obtain rfl := hisName _ _ _ _ hname hname'
  exact ⟨rfl, h⟩

theorem RecordMembersForm.unambiguous : (RecordMembersForm s owner).Unambiguous := by
  intro bs cs ds es members members' hm hm' h
  obtain ⟨hfixed, hfields, hproperties, hvs, hfs, hps⟩ := hm
  obtain ⟨hfixed', hfields', hproperties', hvs', hfs', hps'⟩ := hm'
  simp only [List.append_assoc] at h
  obtain ⟨hfixed, h⟩ := eq_of_uintForm hfixed hfixed' h
  obtain ⟨hfields, h⟩ := eq_of_uintForm hfields hfields' h
  obtain ⟨hproperties, h⟩ := eq_of_uintForm hproperties hproperties' h
  have hfield : (MemberAssignmentForm s s.IsFieldName owner).Unambiguous :=
    MemberAssignmentForm.unambiguous fun _ _ _ _ ↦ Snapshot.IsMemberName.unique
  have hproperty : (MemberAssignmentForm s s.IsPropertyName owner).Unambiguous :=
    MemberAssignmentForm.unambiguous fun _ _ _ _ ↦ Snapshot.IsMemberName.unique
  obtain ⟨rfl, h⟩ := (Reader.accepts_value 0).unambiguous.sequence hvs hvs' hfixed h
  obtain ⟨rfl, h⟩ := hfield.sequence hfs hfs' hfields h
  obtain ⟨rfl, h⟩ := hproperty.sequence hps hps' hproperties h
  exact ⟨rfl, h⟩

theorem RecordMembersForm.members_unique {bytes : ByteArray} {i j j' : Nat}
    {members members' : RecordMembers} (h : (RecordMembersForm s owner).At bytes i j members)
    (h' : (RecordMembersForm s owner).At bytes i j' members') : members = members' := by
  obtain ⟨hij, hj, hm⟩ := h
  obtain ⟨hij', hj', hm'⟩ := h'
  have hrecord : (RecordForm s owner).At bytes i j members.arguments :=
    ⟨hij, hj, recordForm_iff.2 ⟨members, hm, rfl⟩⟩
  have hrecord' : (RecordForm s owner).At bytes i j' members'.arguments :=
    ⟨hij', hj', recordForm_iff.2 ⟨members', hm', rfl⟩⟩
  -- The values alone tell where the record ends.
  obtain ⟨rfl, -⟩ := (Reader.accepts_recordArguments owner).at_unique hrecord hrecord'
  have hsame : (bytes.extract i j).data.toList ++ [] = (bytes.extract i j).data.toList ++ [] := rfl
  exact (RecordMembersForm.unambiguous hm hm' hsame).1

end Forms

section Owners

variable {s : Snapshot} {α : Type} {rows : Array α} {nameIndex : α → UInt32} {range : RowRange}

/-- The row of a member is one of a range of rows, and has the name. -/
def Snapshot.IsMemberOf (s : Snapshot) (rows : Array α) (nameIndex : α → UInt32)
    (range : RowRange) (position : Nat) (name : String) : Prop :=
  range.start.toInt + position ∈ range.positions ∧
    ∃ row, RowAt rows (range.start.toInt + position) row ∧
      s.strings[(nameIndex row).toNat]? = some name

theorem isMemberOf_iff {position : Nat} {name : String}
    (h : s.IsMemberName rows nameIndex range.start position name) :
    s.IsMemberOf rows nameIndex range position name ↔ position < range.count.toNat := by
  have hmem : range.start.toInt + (position : Int) ∈ range.positions ↔
      (position : Int) < range.count.toNat := RowRange.add_mem_positions_iff (by omega)
  rw [Snapshot.IsMemberOf, hmem, Int.ofNat_lt]
  exact and_iff_left h.2

theorem forall_isMemberOf_iff (range : TypeRow → RowRange) {owner : TypeRow} {bs : List UInt8}
    {xs : List MemberAssignment}
    (h : (MemberAssignmentForm s (fun declaring ↦ s.IsMemberName rows nameIndex
      (range declaring).start) owner).Sequence bs xs) :
    (∀ x ∈ xs, s.IsMemberOf rows nameIndex (range x.declaring) x.position x.argument.name) ↔
      ∀ x ∈ xs, x.position < (range x.declaring).count.toNat :=
  forall₂_congr fun x hx ↦ isMemberOf_iff (MemberAssignmentForm.isName_of_mem h x hx)

namespace RecordMembers

/-- Every assignment is to a member of its declaring type. -/
structure Own (s : Snapshot) (members : RecordMembers) : Prop where
  field : ∀ x ∈ members.fields, s.IsMemberOf s.fields FieldRow.nameIndex x.declaring.fieldRange
    x.position x.argument.name
  property : ∀ x ∈ members.properties, s.IsMemberOf s.properties PropertyRow.nameIndex
    x.declaring.propertyRange x.position x.argument.name

/-- Every assignment is to a position below the number of members of its declaring type. -/
structure InRange (members : RecordMembers) : Prop where
  field : ∀ x ∈ members.fields, x.position < x.declaring.fieldCount.toNat
  property : ∀ x ∈ members.properties, x.position < x.declaring.propertyCount.toNat

theorem own_iff_inRange {owner : TypeRow} {members : RecordMembers} {bs : List UInt8}
    (h : RecordMembersForm s owner bs members) : members.Own s ↔ members.InRange := by
  obtain ⟨-, -, -, -, hfs, hps⟩ := h
  have hfield := forall_isMemberOf_iff TypeRow.fieldRange hfs
  have hproperty := forall_isMemberOf_iff TypeRow.propertyRange hps
  constructor
  · intro hown
    exact ⟨hfield.1 hown.field, hproperty.1 hown.property⟩
  · intro hrange
    exact ⟨hfield.2 hrange.field, hproperty.2 hrange.property⟩

end RecordMembers

end Owners

namespace RecordReader

/-- What an attribute is decoded from: the next constructor, which tells its type, and the next
record, which tells the members. -/
structure DecodedFrom (s : Snapshot) (r : RecordReader) (owner : TypeRow)
    (members : RecordMembers) (a : Attribute) : Prop where
  type : ∃ constructor stop, Int32Form.At r.bytes r.constructorPos stop constructor ∧
    attributeType s constructor = .ok owner
  record : ∃ stop, (RecordMembersForm s owner).At r.bytes r.recordPos stop members
  name : ∃ name, s.strings[owner.nameIndex.toNat]? = some name ∧
    a = ⟨attributeName name, members.arguments.fixed, members.arguments.named⟩

variable {s : Snapshot} {r : RecordReader} {a : Attribute}

theorem read_eq_ok_iff :
    (read s r).1 = .ok a ↔ ∃ owner members, DecodedFrom s r owner members a := by
  have hread : (read s r).1 = .ok a ↔ ∃ r', next s r = .ok a r' := by
    unfold read
    cases next s r <;> simp
  simp only [hread, next_ok_iff, Snapshot.text_eq_ok_iff]
  constructor
  · intro h
    obtain ⟨_, constructor, c, owner, values, d, name, hconstructor, howner, hvalues, hname, rfl,
      -⟩ := h
    have hat := (Reader.accepts_i32.at_of_ok (Reader.grounded_i32 hconstructor) hconstructor).2
    obtain ⟨hle, hsize, hrecord⟩ := ((Reader.accepts_recordArguments owner).at_of_ok
      (Reader.grounded_recordArguments owner hvalues) hvalues).2
    obtain ⟨members, hmembers, rfl⟩ := recordForm_iff.1 hrecord
    exact ⟨owner, members, ⟨constructor, c.pos, hat, howner⟩, ⟨d.pos, hle, hsize, hmembers⟩, name,
      hname, rfl⟩
  · intro h
    obtain ⟨owner, members, ⟨constructor, stop, hat, howner⟩, ⟨stop', hle, hsize, hmembers⟩, name,
      hname, rfl⟩ := h
    have hvalues : (RecordForm s owner).At r.bytes r.recordPos stop' members.arguments :=
      ⟨hle, hsize, recordForm_iff.2 ⟨members, hmembers, rfl⟩⟩
    exact ⟨_, constructor, _, owner, members.arguments, _, name, Reader.accepts_i32.ok_of_at hat,
      howner, (Reader.accepts_recordArguments owner).ok_of_at hvalues, hname, rfl, rfl⟩

theorem DecodedFrom.unique {owner owner' : TypeRow} {members members' : RecordMembers}
    (h : DecodedFrom s r owner members a) (h' : DecodedFrom s r owner' members' a) :
    owner' = owner ∧ members' = members := by
  obtain ⟨⟨constructor, _, hat, howner⟩, ⟨_, hmembers⟩, -⟩ := h
  obtain ⟨⟨constructor', _, hat', howner'⟩, ⟨_, hmembers'⟩, -⟩ := h'
  obtain ⟨-, rfl⟩ := Reader.accepts_i32.at_unique hat hat'
  obtain rfl := Except.ok.inj (howner.symm.trans howner')
  exact ⟨rfl, RecordMembersForm.members_unique hmembers' hmembers⟩

/-- The attributes of a run are those that are decoded from a constructor and a record, whatever
the positions of members. The members are known from the bytes, and they are members of their
declaring types exactly if the positions are below the numbers of members of these. -/
theorem own_iff_inRange_of_reads (s : Snapshot) (n : Nat) (r : RecordReader) (i : Nat)
    (a : Attribute) :
    ((reads s n r).1[i]? = some (.ok a) ↔
      i < n ∧ ∃ owner members, DecodedFrom s (after s r i) owner members a) ∧
    ∀ owner members, DecodedFrom s (after s r i) owner members a →
      (∀ owner' members', DecodedFrom s (after s r i) owner' members' a →
        owner' = owner ∧ members' = members) ∧
      (members.Own s ↔ members.InRange) := by
  refine ⟨?_, fun owner members h ↦ ⟨fun owner' members' h' ↦ h.unique h', ?_⟩⟩
  · rw [getElem?_reads, ← read_eq_ok_iff]
    split <;> simp_all
  · obtain ⟨_, _, _, hmembers⟩ := h.record
    exact RecordMembers.own_iff_inRange hmembers

section Neighbours

def marker : TypeRow := ⟨0, 0, -1, -1, -1, 0, 0, 0, 0, 0, 1, 0, 1, 0, 0, -1, 0⟩

def neighbours : Snapshot :=
  { Snapshot.blank ⟨29, 0⟩ with
    strings := #["MarkerAttribute", "enabled", "Vault", "secret"]
    typeDefs := #[marker, ⟨2, 0, -1, -1, -1, 0, 1, 0, 0, 0, 0, 0, 1, 0, 0, -1, 0⟩]
    methods := #[⟨0, 0, -1, 0, -1, 0, 0, 0, 0xFFFF, 0, -1⟩]
    fields := #[⟨1, -1, -1, 0⟩, ⟨3, -1, -1, 0⟩] }

def markerData (position : Nat) : ByteArray :=
  ⟨#[0x01, 0x00, 0x00, 0x00, 0x00, 0x00, 0x01, 0x00, 0x02, 0x01, .ofNat (2 * position)]⟩

def markerMembers (position : Nat) (name : String) : RecordMembers :=
  ⟨[], [⟨marker, position, name, .bool true⟩], []⟩

theorem decodedFrom_markerData {position : Nat} {name : String} (hposition : position < 0x40)
    (hname : neighbours.IsFieldName marker position name) :
    DecodedFrom neighbours ⟨markerData position, 1, 1, 5⟩ marker (markerMembers position name)
      ⟨"Marker", [], [⟨name, .bool true⟩]⟩ := by
  have hvalue : TypedForm neighbours 0 [0x02, 0x01] (.bool true) :=
    ⟨[0x02], [0x01], ⟨0x02, none⟩, rfl, .plain (by decide), _, .scalar ⟨1, rfl, rfl⟩, rfl⟩
  have hzigZag : zigZag (position : Int) = 2 * position := by
    rw [zigZag, if_pos (Int.natCast_nonneg position), Int.toNat_natCast]
  have hindex : IntForm position [.ofNat (2 * position)] := by
    rw [← hzigZag]
    exact .one (by omega)
  have hassignment : MemberAssignmentForm neighbours neighbours.IsFieldName marker
      [0x02, 0x01, .ofNat (2 * position)] ⟨marker, position, name, .bool true⟩ :=
    .mk hvalue (.own hindex) hname
  have hzero : UIntForm 0 [0x00] := .one (by decide)
  have hone : UIntForm 1 [0x01] := .one (by decide)
  have hmembers : RecordMembersForm neighbours marker ([0x00] ++ ([0x01] ++ ([0x00] ++ ([] ++
      (([0x02, 0x01, .ofNat (2 * position)] ++ []) ++ []))))) (markerMembers position name) :=
    .mk hzero hone hzero .nil (.cons hassignment .nil) .nil
  have hsize : (markerData position).size = 11 := rfl
  have hconstructor : Int32Form.At (markerData position) 1 5 0 :=
    ⟨by decide, hsize ▸ by decide, rfl⟩
  have hrecord : (RecordMembersForm neighbours marker).At (markerData position) 5 11
      (markerMembers position name) := ⟨by decide, hsize.ge, hmembers⟩
  exact ⟨⟨0, 5, hconstructor, rfl⟩, ⟨11, hrecord⟩, "MarkerAttribute", rfl, rfl⟩

theorem own_neighbours : ∃ r, ofBytes (markerData 0) = .ok r ∧
    (reads neighbours 1 r).1[0]? = some (.ok ⟨"Marker", [], [⟨"enabled", .bool true⟩]⟩) ∧
    DecodedFrom neighbours (after neighbours r 0) marker (markerMembers 0 "enabled")
      ⟨"Marker", [], [⟨"enabled", .bool true⟩]⟩ ∧
    (markerMembers 0 "enabled").Own neighbours := by
  have hheader : ofBytes (markerData 0) = .ok ⟨markerData 0, 1, 1, 5⟩ := rfl
  have hname : neighbours.IsFieldName marker 0 "enabled" :=
    ⟨by decide, ⟨1, -1, -1, 0⟩, ⟨by decide, rfl⟩, rfl⟩
  have hdecoded := decodedFrom_markerData (by decide) hname
  have hrange : (markerMembers 0 "enabled").InRange := by
    refine ⟨?_, ?_⟩ <;> decide
  obtain ⟨hreads, hmembers⟩ := own_iff_inRange_of_reads neighbours 1 ⟨markerData 0, 1, 1, 5⟩ 0
    ⟨"Marker", [], [⟨"enabled", .bool true⟩]⟩
  exact ⟨_, hheader, hreads.2 ⟨Nat.one_pos, marker, _, hdecoded⟩, hdecoded,
    (hmembers marker _ hdecoded).2.2 hrange⟩

/-- The field of the other type is taken for one of the attribute, which has none of this name. -/
theorem not_own_neighbours : ∃ r, ofBytes (markerData 1) = .ok r ∧
    (reads neighbours 1 r).1[0]? = some (.ok ⟨"Marker", [], [⟨"secret", .bool true⟩]⟩) ∧
    (∀ position ∈ marker.fieldRange.positions, ∀ row, RowAt neighbours.fields position row →
      neighbours.strings[row.nameIndex.toNat]? = some "enabled") ∧
    ∃ members, DecodedFrom neighbours (after neighbours r 0) marker members
      ⟨"Marker", [], [⟨"secret", .bool true⟩]⟩ ∧ ¬ members.Own neighbours := by
  have hheader : ofBytes (markerData 1) = .ok ⟨markerData 1, 1, 1, 5⟩ := rfl
  have hname : neighbours.IsFieldName marker 1 "secret" :=
    ⟨by decide, ⟨3, -1, -1, 0⟩, ⟨by decide, rfl⟩, rfl⟩
  have hdecoded := decodedFrom_markerData (by decide) hname
  have hread := read_eq_ok_iff.2 ⟨marker, _, hdecoded⟩
  refine ⟨_, hheader, ?_, fun position hposition row hrow ↦ ?_, _, hdecoded, fun hown ↦ ?_⟩
  · rw [getElem?_reads, if_pos Nat.one_pos]
    exact congrArg some hread
  · obtain rfl := List.mem_singleton.1 hposition
    obtain rfl := Option.some.inj hrow.2
    rfl
  · obtain ⟨hmem, -⟩ := hown.field _ (List.mem_singleton_self _)
    exact absurd hmem (by decide)

end Neighbours

end RecordReader

end MetadataDump
