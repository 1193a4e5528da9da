import MetadataDump.Attribute.Record
import MetadataDump.Proofs.Bytes.Compressed
import MetadataDump.Proofs.Snapshot.Lookup

namespace MetadataDump

/-- The forms of the type in front of a value. An enum stands for its underlying type. -/
inductive TypeForm (s : Snapshot) : Form ValueType
  | plain {tag : UInt8} : tag ≠ 0x55 → TypeForm s [tag] ⟨tag, none⟩
  | enumeration {bs : List UInt8} {i : Int} {entry : TypeEntry} {element : UInt8} :
      IntForm i bs → RowAt s.types i entry → entry.enumElement = some element →
      TypeForm s (0x55 :: bs) ⟨element, some entry.name⟩

def ScalarForm (tag : Nat) : Form Argument := fun bs v ↦
  match tag with
  | 0x02 => ∃ b : UInt8, bs = [b] ∧ v = .bool (b ≠ 0)
  | 0x03 => ∃ n : UInt16, bs = leBytes 2 n.toNat ∧ v = .char n
  | 0x04 => ∃ n : Int8, bs = [n.toUInt8] ∧ v = .i1 n
  | 0x05 => ∃ n : UInt8, bs = [n] ∧ v = .u1 n
  | 0x06 => ∃ n : Int16, bs = leBytes 2 n.toUInt16.toNat ∧ v = .i2 n
  | 0x07 => ∃ n : UInt16, bs = leBytes 2 n.toNat ∧ v = .u2 n
  | 0x08 => ∃ n : Int32, IntForm n.toInt bs ∧ v = .i4 n
  | 0x09 => ∃ n : UInt32, UIntForm n.toNat bs ∧ v = .u4 n
  | 0x0A => ∃ n : Int64, bs = leBytes 8 n.toUInt64.toNat ∧ v = .i8 n
  | 0x0B => ∃ n : UInt64, bs = leBytes 8 n.toNat ∧ v = .u8 n
  | 0x0C => ∃ bits : UInt32, bs = leBytes 4 bits.toNat ∧ v = .r4 bits
  | 0x0D => ∃ bits : UInt64, bs = leBytes 8 bits.toNat ∧ v = .r8 bits
  | _ => False

/-- The payloads of a value by its tag, if `inner` are the forms of a value one level deeper. -/
inductive PayloadForm (s : Snapshot) (inner : ValueType → Form Argument) : Nat → Form Argument
  | scalar {tag : Nat} {bs : List UInt8} {v : Argument} : ScalarForm tag bs v →
      PayloadForm s inner tag bs v
  | nullString {bs : List UInt8} : IntForm (-1) bs → PayloadForm s inner 0x0E bs .null
  | string {text : String} {bs : List UInt8} : IntForm text.utf8ByteSize bs →
      PayloadForm s inner 0x0E (bs ++ text.toUTF8.data.toList) (.string text)
  | boxed {bs : List UInt8} {v : Argument} : (TypeForm s).bind inner bs v →
      PayloadForm s inner 0x1C bs v
  | nullArray {bs : List UInt8} : IntForm (-1) bs → PayloadForm s inner 0x1D bs .null
  /-- All elements are of one type. -/
  | uniform {bs cs ds : List UInt8} {t : ValueType} {flag : UInt8} {vs : List Argument} :
      IntForm vs.length bs → TypeForm s cs t → flag ≠ 1 → (inner t).Sequence ds vs →
      PayloadForm s inner 0x1D (bs ++ (cs ++ flag :: ds)) (.array vs)
  /-- Every element has its own type in front of it. -/
  | mixed {bs cs ds : List UInt8} {t : ValueType} {vs : List Argument} :
      IntForm vs.length bs → TypeForm s cs t → ((TypeForm s).bind inner).Sequence ds vs →
      PayloadForm s inner 0x1D (bs ++ (cs ++ 1 :: ds)) (.array vs)
  | nullType {bs : List UInt8} : IntForm (-1) bs → PayloadForm s inner 0xFF bs .null
  | type {bs : List UInt8} {i : Int} {entry : TypeEntry} : IntForm i bs →
      RowAt s.types i entry → PayloadForm s inner 0xFF bs (.type entry.name)

/-- The forms of a value of a type, with `room` levels for it and the values in it. -/
def ValueForm (s : Snapshot) : Nat → ValueType → Form Argument
  | 0, _ => fun _ _ ↦ False
  | room + 1, t => fun bs v ↦ ∃ w, PayloadForm s (ValueForm s room) t.tag.toNat bs w ∧ v = t.wrap w

def TypedForm (s : Snapshot) (depth : Nat) : Form Argument :=
  (TypeForm s).bind (ValueForm s (greatestDepth - depth))

inductive MemberForm (s : Snapshot) (owner : TypeRow) : Form (TypeRow × Nat)
  | own {bs : List UInt8} {position : Nat} : IntForm position bs →
      MemberForm s owner bs (owner, position)
  | declared {bs cs : List UInt8} {position index : Nat} {declaring : TypeRow} :
      IntForm (-(position + 1)) bs → UIntForm index cs → RowAt s.typeDefs index declaring →
      MemberForm s owner (bs ++ cs) (declaring, position)

def Snapshot.IsMemberName {α : Type} (s : Snapshot) (rows : Array α) (nameIndex : α → UInt32)
    (start : Int32) (position : Nat) (name : String) : Prop :=
  0 ≤ start.toInt ∧ ∃ row, RowAt rows (start.toInt + position) row ∧
    s.strings[(nameIndex row).toNat]? = some name

def Snapshot.IsFieldName (s : Snapshot) (declaring : TypeRow) : Nat → String → Prop :=
  s.IsMemberName s.fields FieldRow.nameIndex declaring.fieldStart

def Snapshot.IsPropertyName (s : Snapshot) (declaring : TypeRow) : Nat → String → Prop :=
  s.IsMemberName s.properties PropertyRow.nameIndex declaring.propertyStart

inductive AssignmentForm (s : Snapshot) (isName : TypeRow → Nat → String → Prop)
    (owner : TypeRow) : Form NamedArgument
  | mk {bs cs : List UInt8} {value : Argument} {declaring : TypeRow} {position : Nat}
      {name : String} : TypedForm s 0 bs value → MemberForm s owner cs (declaring, position) →
      isName declaring position name → AssignmentForm s isName owner (bs ++ cs) ⟨name, value⟩

/-- The forms of a record: three counts, and then the values and assignments. -/
inductive RecordForm (s : Snapshot) (owner : TypeRow) : Form RecordArguments
  | mk {bs cs ds vs fs ps : List UInt8} {fixed : List Argument}
      {fields properties : List NamedArgument} : UIntForm fixed.length bs →
      UIntForm fields.length cs → UIntForm properties.length ds →
      (TypedForm s 0).Sequence vs fixed →
      (AssignmentForm s s.IsFieldName owner).Sequence fs fields →
      (AssignmentForm s s.IsPropertyName owner).Sequence ps properties →
      RecordForm s owner (bs ++ (cs ++ (ds ++ (vs ++ (fs ++ ps))))) ⟨fixed, fields ++ properties⟩

inductive AttributeForm (s : Snapshot) (constructor : Int32) : Form Attribute
  | mk {bs : List UInt8} {method : MethodRow} {owner : TypeRow} {name : String}
      {values : RecordArguments} : RowAt s.methods constructor.toInt method →
      RowAt s.typeDefs method.declaringType.toNat owner →
      s.strings[owner.nameIndex.toNat]? = some name → RecordForm s owner bs values →
      AttributeForm s constructor bs ⟨attributeName name, values.fixed, values.named⟩

inductive RecordsForm (s : Snapshot) : List Int32 → Form (List Attribute)
  | nil : RecordsForm s [] [] []
  | cons {constructor : Int32} {constructors : List Int32} {bs cs : List UInt8} {a : Attribute}
      {as : List Attribute} : AttributeForm s constructor bs a → RecordsForm s constructors cs as →
      RecordsForm s (constructor :: constructors) (bs ++ cs) (a :: as)

def constructorTable (constructors : List Int32) : List UInt8 :=
  constructors.flatMap fun k ↦ leBytes 4 k.toUInt32.toNat

/-- The forms of a list of attributes, with bytes behind it that belong to none of them. -/
inductive DataForm (s : Snapshot) (trailing : List UInt8) : Form (List Attribute)
  | mk {header body : List UInt8} {constructors : List Int32} {as : List Attribute} :
      UIntForm constructors.length header → RecordsForm s constructors body as →
      DataForm s trailing (header ++ (constructorTable constructors ++ (body ++ trailing))) as

end MetadataDump
