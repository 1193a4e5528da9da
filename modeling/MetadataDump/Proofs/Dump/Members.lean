import MetadataDump.Dump.Document
import MetadataDump.Dump.Text
import MetadataDump.Proofs.Declaration.Assembled
import MetadataDump.Proofs.Json.Same

namespace MetadataDump.Dump

open Json (Same)

theorem forall₂_iff_map_eq {α β : Type} {f : α → β} {as bs : List α} :
    List.Forall₂ (fun a b ↦ f a = f b) as bs ↔ as.map f = bs.map f := by
  rw [← List.forall₂_eq_eq_eq, List.forall₂_map_left_iff, List.forall₂_map_right_iff]

theorem map_eq_of_same {α β : Type} {record : α → Json} (text : α → β) {as bs : List α}
    (h : Same (.array (as.map record)) (.array (bs.map record)))
    (htext : ∀ a b, (a, b) ∈ as.zip bs → Same (record a) (record b) → text a = text b) :
    as.map text = bs.map text := by
  obtain ⟨hlength, hzip⟩ := List.forall₂_iff_zip.1 h.forall₂_of_array
  exact forall₂_iff_map_eq.1
    (List.forall₂_iff_zip.2 ⟨hlength, fun hmem ↦ htext _ _ hmem (hzip hmem)⟩)

theorem keywords_eq_of_same {ms ns : List Modifier}
    (h : Same (Document.modifiers ms) (Document.modifiers ns)) :
    ms.map Modifier.keyword = ns.map Modifier.keyword := h.strings_eq

theorem modifiers_eq_of_same {ms ns : List Modifier}
    (h : Same (Document.modifiers ms) (Document.modifiers ns)) :
    Text.modifiers ms = Text.modifiers ns := congrArg Text.words h.strings_eq

theorem keyword_eq_const_iff (modifier : Modifier) :
    modifier.keyword = "const" ↔ modifier = .constant := by
  cases modifier with
  | access a => cases a <;> simp [Modifier.keyword, Access.keyword]
  | _ => simp [Modifier.keyword]

theorem const_mem_keywords_iff (ms : List Modifier) :
    "const" ∈ ms.map Modifier.keyword ↔ .constant ∈ ms := by
  simp only [List.mem_map, keyword_eq_const_iff, exists_eq_right]

theorem suffix_eq_of_same {d e : Option Literal} (hd : ∀ l ∈ d, l.IsClear)
    (he : ∀ l ∈ e, l.IsClear) (h : Same (Document.default d) (Document.default e)) :
    Text.suffix d = Text.suffix e := by
  cases d with
  | none =>
    cases e with
    | none => rfl
    | some l => cases h
  | some k =>
    cases e with
    | none => cases h
    | some l => exact Literal.suffix_eq_of_text_eq (hd k rfl) (he l rfl) h.string_eq

theorem field_eq_of_same {c : Config} {f g : FieldDecl} (hf : f.Assembled c) (hg : g.Assembled c)
    (h : Same (Document.field f) (Document.field g)) : Text.field f = Text.field g := by
  have hattributes := (h.member "attributes" rfl rfl).string_eq
  have hvisibility := h.member "visibility" rfl rfl
  have htype := (h.member "type" rfl rfl).string_eq
  have hname := (h.member "name" rfl rfl).string_eq
  have hsuffix := suffix_eq_of_same hf.default hg.default (h.member "defaultValue" rfl rfl)
  have hvalue := Int32.toInt_inj.1 (h.member "offset" rfl rfl).ofInt_eq
  have hconst : f.isConst = g.isConst := by
    rw [Bool.eq_iff_iff, hf.isConst, hg.isConst, ← const_mem_keywords_iff,
      keywords_eq_of_same hvisibility, const_mem_keywords_iff]
  have hoffset : f.offset = g.offset := by
    have hsome : f.offset.isSome = g.offset.isSome := by rw [hf.offset, hg.offset, hconst]
    cases hi : f.offset <;> cases hj : g.offset <;> simp_all
  simp only [Text.field, hattributes, modifiers_eq_of_same hvisibility, htype, hname, hsuffix,
    hoffset]

theorem property_eq_of_same {p q : PropertyDecl}
    (h : Same (Document.property p) (Document.property q)) : Text.property p = Text.property q := by
  have hattributes := (h.member "attributes" rfl rfl).string_eq
  have hmodifiers := modifiers_eq_of_same (h.member "modifiers" rfl rfl)
  have htype := h.member "type" rfl rfl
  have hname := (h.member "name" rfl rfl).string_eq
  have haccessors := (h.member "accessors" rfl rfl).strings_eq
  have hbody : Text.propertyBody p = Text.propertyBody q := by
    unfold Text.propertyBody
    cases hp : p.primary with
    | none =>
      cases hq : q.primary with
      | none => rw [hname]
      | some b => rw [hp, hq] at htype; cases htype
    | some a =>
      cases hq : q.primary with
      | none => rw [hp, hq] at htype; cases htype
      | some b =>
        rw [hp, hq] at htype hmodifiers
        simp only [Option.map_some, Option.getD_some] at hmodifiers
        simp only [hmodifiers, htype.string_eq, hname, haccessors]
  rw [Text.property, Text.property, hattributes, hbody]

theorem parameter_eq_of_same {p q : ParameterDecl} (hp : ∀ l ∈ p.default, l.IsClear)
    (hq : ∀ l ∈ q.default, l.IsClear) (h : Same (Document.parameter p) (Document.parameter q)) :
    Text.parameter p = Text.parameter q := by
  have hkeyword := (h.member "keyword" rfl rfl).string_eq
  have htype := (h.member "typeName" rfl rfl).string_eq
  have hname := (h.member "name" rfl rfl).string_eq
  have hsuffix := suffix_eq_of_same hp hq (h.member "defaultValue" rfl rfl)
  simp only [Text.parameter, hkeyword, htype, hname, hsuffix]

theorem address_eq_of_same {a b : Address} (hrva : Same (.ofNat a.rva.toNat) (.ofNat b.rva.toNat))
    (hoffset : Same (.ofNat a.offset.toNat) (.ofNat b.offset.toNat))
    (hva : Same (.ofNat a.va.toNat) (.ofNat b.va.toNat)) : a = b := by
  cases a
  cases b
  rw [Address.mk.injEq]
  exact ⟨UInt64.toNat_inj.1 hrva.ofNat_eq, UInt64.toNat_inj.1 hoffset.ofNat_eq,
    UInt64.toNat_inj.1 hva.ofNat_eq⟩

theorem orZero_eq_of_same {d e : MethodDecl} (h : Same (Document.method d) (Document.method e)) :
    Address.orZero d.address = Address.orZero e.address :=
  address_eq_of_same (h.member "rva" rfl rfl) (h.member "offset" rfl rfl) (h.member "va" rfl rfl)

def entryRecord (e : Address × Instantiation) : Json := Document.instantiation (some e.1) e.2

theorem flatMap_group (groups : List GenericGroup) :
    groups.flatMap Document.group = (groups.flatMap GenericGroup.entries).map entryRecord := by
  have hgroup : Document.group = fun g ↦ g.entries.map entryRecord := by
    funext g
    rw [Document.group, GenericGroup.entries, List.map_map]
    rfl
  rw [List.map_flatMap, hgroup]

theorem entry_eq_of_same {e f : Address × Instantiation}
    (h : Same (entryRecord e) (entryRecord f)) : e = f := by
  have haddress : e.1 = f.1 :=
    address_eq_of_same (h.member "rva" rfl rfl) (h.member "offset" rfl rfl) (h.member "va" rfl rfl)
  have htype := (h.member "returnType" rfl rfl).string_eq
  have hname := (h.member "name" rfl rfl).string_eq
  obtain ⟨a, type, name⟩ := e
  obtain ⟨b, type', name'⟩ := f
  simp_all

theorem generics_eq_of_same {s s' : Snapshot} {gs hs : List GenericGroup}
    (hg : GenericGroup.Grouped s gs) (hh : GenericGroup.Grouped s' hs)
    (h : Same (.array (gs.flatMap Document.group)) (.array (hs.flatMap Document.group))) :
    gs = hs := by
  rw [flatMap_group, flatMap_group] at h
  have hentries := map_eq_of_same id h fun e f _ ↦ entry_eq_of_same
  rw [List.map_id, List.map_id] at hentries
  rw [← hg.regroup_entries, hentries, hh.regroup_entries]

theorem method_eq_of_same {s s' : Snapshot} (c : Config) {d e : MethodDecl}
    (hd : d.Assembled s) (he : e.Assembled s') (h : Same (Document.method d) (Document.method e)) :
    Text.method c d = Text.method c e := by
  have hattributes := (h.member "attributes" rfl rfl).string_eq
  have hmodifiers := modifiers_eq_of_same (h.member "modifiers" rfl rfl)
  have hbyRef := (h.member "returnsByRef" rfl rfl).bool_eq
  have hreturn := (h.member "returnType" rfl rfl).string_eq
  have hname := (h.member "name" rfl rfl).string_eq
  have hparameters := map_eq_of_same Text.parameter (h.member "parameters" rfl rfl)
    fun p q hmem ↦ parameter_eq_of_same (hd.parameters p (List.of_mem_zip hmem).1)
      (he.parameters q (List.of_mem_zip hmem).2)
  have haddress : d.address = e.address := by
    rw [← Address.ofNonzero_orZero hd.address, orZero_eq_of_same h,
      Address.ofNonzero_orZero he.address]
  have hslot : d.slot = e.slot := by
    have hrecord := h.member "slot" rfl rfl
    cases hi : d.slot with
    | none =>
      cases hj : e.slot with
      | none => rfl
      | some j => rw [hi, hj] at hrecord; cases hrecord
    | some i =>
      cases hj : e.slot with
      | none => rw [hi, hj] at hrecord; cases hrecord
      | some j =>
        rw [hi, hj] at hrecord
        exact congrArg some (UInt16.toNat_inj.1 hrecord.ofNat_eq)
  have habstract := (h.member "isAbstract" rfl rfl).bool_eq
  have hgenerics := generics_eq_of_same hd.generics he.generics
    (h.member "genericInstances" rfl rfl)
  simp only [Text.method, Text.addressLine, Text.signature, hattributes, hmodifiers, hbyRef,
    hreturn, hname, hparameters, haddress, hslot, habstract, hgenerics]

end MetadataDump.Dump
