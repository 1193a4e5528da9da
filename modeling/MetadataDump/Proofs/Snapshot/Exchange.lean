import MetadataDump.Json.Read
import MetadataDump.Proofs.Json.Codecs
import MetadataDump.Proofs.Snapshot.Lookup
import MetadataDump.Snapshot.Index

namespace MetadataDump

open Json (Gives LawfulCodec RoundTrips roundTrips)

section Rows

instance : LawfulCodec Version where
  roundTrips v := by
    refine Gives.roundTrips ?_ (by decide) rfl rfl fun _ ↦ rfl
    apply Gives.required
    apply Gives.optional
    exact Gives.pure v

instance : LawfulCodec Section where
  roundTrips s := by
    refine Gives.roundTrips ?_ (by decide) rfl rfl fun _ ↦ rfl
    iterate 3 apply Gives.optional
    exact Gives.pure s

instance : LawfulCodec ImageRow where
  roundTrips r := by
    refine Gives.roundTrips ?_ (by decide) rfl rfl fun _ ↦ rfl
    iterate 6 apply Gives.optional
    exact Gives.pure r

instance : LawfulCodec TypeRow where
  roundTrips r := by
    refine Gives.roundTrips ?_ (by decide) rfl rfl fun _ ↦ rfl
    iterate 17 apply Gives.optional
    exact Gives.pure r

instance : LawfulCodec FieldRow where
  roundTrips r := by
    refine Gives.roundTrips ?_ (by decide) rfl rfl fun _ ↦ rfl
    iterate 4 apply Gives.optional
    exact Gives.pure r

instance : LawfulCodec PropertyRow where
  roundTrips r := by
    refine Gives.roundTrips ?_ (by decide) rfl rfl fun _ ↦ rfl
    iterate 6 apply Gives.optional
    exact Gives.pure r

instance : LawfulCodec MethodRow where
  roundTrips r := by
    refine Gives.roundTrips ?_ (by decide) rfl rfl fun _ ↦ rfl
    iterate 11 apply Gives.optional
    exact Gives.pure r

instance : LawfulCodec ParameterRow where
  roundTrips r := by
    refine Gives.roundTrips ?_ (by decide) rfl rfl fun _ ↦ rfl
    iterate 3 apply Gives.optional
    exact Gives.pure r

instance : LawfulCodec DefaultRow where
  roundTrips r := by
    refine Gives.roundTrips ?_ (by decide) rfl rfl fun _ ↦ rfl
    iterate 2 apply Gives.required
    exact Gives.pure r

instance : LawfulCodec TypeEntry where
  roundTrips e := by
    refine Gives.roundTrips ?_ (by decide) rfl rfl fun _ ↦ rfl
    iterate 6 apply Gives.optional
    exact Gives.pure e

instance : LawfulCodec GenericContainer where
  roundTrips c := by
    refine Gives.roundTrips ?_ (by decide) rfl rfl fun _ ↦ rfl
    apply Gives.optional
    exact Gives.pure c

instance : LawfulCodec MethodSpec where
  roundTrips s := by
    refine Gives.roundTrips ?_ (by decide) rfl rfl fun _ ↦ rfl
    iterate 4 apply Gives.optional
    exact Gives.pure s

instance : LawfulCodec AttributeTypeRange where
  roundTrips r := by
    refine Gives.roundTrips ?_ (by decide) rfl rfl fun _ ↦ rfl
    iterate 3 apply Gives.optional
    exact Gives.pure r

instance : LawfulCodec AttributeDataRange where
  roundTrips r := by
    refine Gives.roundTrips ?_ (by decide) rfl rfl fun _ ↦ rfl
    iterate 2 apply Gives.optional
    exact Gives.pure r

end Rows

namespace DefaultValue

theorem ofJson?_pair (kind : String) (content : Json) :
    ofJson? (.object [(↑"kind", .string kind), (↑"value", content)]) = ofContent? kind content := by
  let members : List (String × Json) := [("kind", .string kind), ("value", content)]
  have hnames : (members.map Prod.fst).Nodup := by
    show ["kind", "value"].Nodup
    decide
  have hkind : Json.single? [(↑"kind", .string kind), (↑"value", content)] "kind" =
      some (some (.string kind)) :=
    Json.single?_of_mem hnames (List.mem_cons_self ..)
  have hvalue : Json.single? [(↑"kind", .string kind), (↑"value", content)] "value" =
      some (some content) :=
    Json.single?_of_mem hnames (List.mem_cons_of_mem _ (List.mem_cons_self ..))
  rw [ofJson?, hkind, hvalue]
  rfl

theorem roundTrips_of_content {v : DefaultValue} {content : Json} (h : v.content? = some content)
    (hread : ofContent? v.kind content = some v) (hwritten : content.Written) :
    RoundTrips v := by
  have hencode : Json.encode v = .object [(↑"kind", .string v.kind), (↑"value", content)] := by
    show Json.object (_ :: (v.content?.map fun content ↦ (↑"value", content)).toList) = _
    rw [h]
    rfl
  constructor
  · rw [hencode]
    exact (ofJson?_pair v.kind content).trans hread
  · rw [hencode]
    apply Json.Written.object
    · intro m hm
      rcases List.mem_pair.1 hm with rfl | rfl <;> rfl
    · intro m hm
      rcases List.mem_pair.1 hm with rfl | rfl
      · exact .string _
      · exact hwritten

theorem roundTrips_of_not_float {v : DefaultValue} (h : ∀ bits, v ≠ .float bits) :
    RoundTrips v := by
  have hread : ∀ {α : Type} [Json.Codec α] [LawfulCodec α] (a : α) (f : α → DefaultValue),
      f <$> Json.decode? (Json.encode a) = some (f a) := by
    intro α _ _ a f
    rw [(roundTrips a).decode]
    rfl
  cases v with
  | string s => exact roundTrips_of_content rfl (hread s .string) (roundTrips s).written
  | char unit => exact roundTrips_of_content rfl (hread unit .char) (roundTrips unit).written
  | bool b => exact roundTrips_of_content rfl (hread b .bool) (roundTrips b).written
  | int n => exact roundTrips_of_content rfl (hread n .int) (roundTrips n).written
  | uint n => exact roundTrips_of_content rfl (hread n .uint) (roundTrips n).written
  | float bits => exact absurd rfl (h bits)
  | null =>
    refine ⟨rfl, .object ?_ ?_⟩
    · intro m hm
      rcases List.mem_singleton.1 hm with rfl
      rfl
    · intro m hm
      rcases List.mem_singleton.1 hm with rfl
      exact .string _
  | unresolved offset =>
    exact roundTrips_of_content rfl (hread offset .unresolved) (roundTrips offset).written

end DefaultValue

theorem Json.readBytes_toUTF8 {α : Type} [Json.Codec α] (text : String) :
    (Json.readBytes text.toUTF8 : Except Error α) = Json.read text := by
  have hvalid : text.toUTF8.IsValidUTF8 := text.isValidUTF8
  have hutf8 : String.fromUTF8? text.toUTF8 = some text := dif_pos hvalid
  unfold Json.readBytes
  rw [hutf8]

namespace Snapshot

/-- Every default value but those in floating point reads back as it is. -/
theorem roundTrips_of_not_float {s : Snapshot}
    (h : ∀ (key : Int32) (bits : UInt64), s.literals[key]? ≠ some (.float bits)) :
    RoundTrips s := by
  have hliterals : RoundTrips s.literals := by
    apply Json.roundTrips_map
    intro key v hv
    apply DefaultValue.roundTrips_of_not_float
    rintro bits rfl
    exact h key bits hv
  refine Gives.roundTrips ?_ (by decide) rfl rfl fun _ ↦ rfl
  iterate 19 apply Gives.optional
  apply Gives.optional_of hliterals
  iterate 6 apply Gives.optional
  exact Gives.pure s

theorem read_layout {s : Snapshot} (h : RoundTrips s) {layout : Json → String}
    (hlayout : layout ∈ [Json.compact, Json.pretty]) :
    Json.read (layout (Json.encode s)) = .ok s := by
  have hparse : Json.parse? (layout (Json.encode s)) = some (Json.encode s) := by
    rcases List.mem_pair.1 hlayout with rfl | rfl
    · exact Json.parse?_compact h.written
    · exact (Json.parse?_pretty h.written).1
  unfold Json.read
  rw [hparse, Option.bind_eq_bind, Option.bind_some, h.decode]

theorem literals_shapes_ne_float (version : Version) (key : Int32) (bits : UInt64) :
    (shapes version).literals[key]? ≠ some (.float bits) := by
  show ((∅ : Std.ExtTreeMap Int32 DefaultValue).insert 7 (.int 5))[key]? ≠ _
  rw [Std.ExtTreeMap.getElem?_insert]
  split
  · intro hint
    cases hint
  · rw [Std.ExtTreeMap.getElem?_empty]
    intro hnone
    cases hnone

/-- A snapshot is read from its text, with or without blanks, and what is read has the same text. -/
theorem read_encode_of_not_float (s : Snapshot)
    (h : ∀ (key : Int32) (bits : UInt64), s.literals[key]? ≠ some (.float bits)) :
    ∀ layout ∈ [Json.compact, Json.pretty],
      Json.read (layout (Json.encode s)) = .ok s ∧
      ∀ r : Snapshot, Json.read (layout (Json.encode s)) = .ok r →
        Metadata.ofSnapshot r = Metadata.ofSnapshot s ∧
        layout (Json.encode r) = layout (Json.encode s) := by
  intro layout hlayout
  have hread := read_layout (roundTrips_of_not_float h) hlayout
  refine ⟨hread, ?_⟩
  intro r hr
  obtain rfl : s = r := Except.ok.inj (hread.symm.trans hr)
  exact ⟨rfl, rfl⟩

theorem read_encode_shapes :
    (∀ (key : Int32) (bits : UInt64), (shapes ⟨24, 0⟩).literals[key]? ≠ some (.float bits)) ∧
    Json.read (Json.compact (Json.encode (shapes ⟨24, 0⟩))) = .ok (shapes ⟨24, 0⟩) :=
  have h := literals_shapes_ne_float ⟨24, 0⟩
  ⟨h, (read_encode_of_not_float _ h _ (List.mem_cons_self ..)).1⟩

end Snapshot

end MetadataDump
