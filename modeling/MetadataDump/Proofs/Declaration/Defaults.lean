import MetadataDump.Proofs.Attribute.Shapes
import MetadataDump.Proofs.Declaration.Literal

namespace MetadataDump

open Text

namespace Literal

theorem unresolvedText_injective : Function.Injective unresolvedText := by
  intro i j h
  unfold unresolvedText at h
  rw [String.append_left_inj, String.append_right_inj] at h
  exact UInt32.toNat_inj.1 (upperHex_injective h)

theorem suffix_value_ne_unresolved (text : String) (offset : UInt32) :
    (value text).suffix ≠ (unresolved offset).suffix := by
  intro h
  have hblank : " " ++ ("= " ++ text) = " " ++ unresolvedText offset := by
    rw [← String.append_assoc]
    exact h
  have hhead := head?_unresolvedText offset
  rw [← (String.append_right_inj _).1 hblank, String.toList_append] at hhead
  exact absurd (Option.some.inj hhead) (by decide)

theorem suffix_eq_iff {a b : Literal} (ha : a.IsClear) (hb : b.IsClear) :
    a.suffix = b.suffix ↔ a.text = b.text := by
  refine ⟨fun h ↦ ?_, suffix_eq_of_text_eq ha hb⟩
  cases a with
  | value s =>
    cases b with
    | value t => exact (String.append_right_inj _).1 h
    | unresolved j => exact absurd h (suffix_value_ne_unresolved s j)
  | unresolved i =>
    cases b with
    | value t => exact absurd h.symm (suffix_value_ne_unresolved t i)
    | unresolved j => exact (String.append_right_inj _).1 h

theorem text_eq_unresolvedText_iff {a : Literal} (ha : a.IsClear) (offset : UInt32) :
    a.text = unresolvedText offset ↔ a = .unresolved offset := by
  cases a with
  | value s =>
    refine iff_of_false ?_ nofun
    rintro rfl
    exact ha (head?_unresolvedText offset)
  | unresolved i =>
    rw [Literal.unresolved.injEq]
    exact unresolvedText_injective.eq_iff

end Literal

namespace DefaultValue

def argument? : DefaultValue → Option Argument
  | .string s => some (.string s)
  | .char unit => some (.char unit)
  | .bool b => some (.bool b)
  | .int n => some (.i8 n)
  | .uint n => some (.u8 n)
  | .float bits => some (.r8 bits)
  | .null => some .null
  | .unresolved _ => none

/-- The same value, or the same number with and without a sign bit. -/
inductive Alike : DefaultValue → DefaultValue → Prop
  | refl (v : DefaultValue) : Alike v v
  | int_uint {n : Int64} {k : UInt64} (h : n.toInt = k.toNat) : Alike (.int n) (.uint k)
  | uint_int {k : UInt64} {n : Int64} (h : n.toInt = k.toNat) : Alike (.uint k) (.int n)

variable {v w : DefaultValue}

theorem literal_of_argument? {a : Argument} (h : v.argument? = some a) :
    v.literal = .value a.text := by
  cases v <;> cases h <;> rw [Argument.text] <;> rfl

section Arguments

variable {a b : Argument} (hv : ∀ bits, v ≠ .float bits) (hw : ∀ bits, w ≠ .float bits)
  (ha : v.argument? = some a) (hb : w.argument? = some b)

include hv ha in
theorem readable_of_argument? : a.shape.Readable := by
  cases v with
  | string s =>
    cases ha
    rw [Argument.shape]
    exact .string s
  | char unit =>
    cases ha
    rw [Argument.shape]
    exact .char unit
  | bool b =>
    cases ha
    rw [Argument.shape]
    exact .bool b
  | int n =>
    cases ha
    rw [Argument.shape]
    exact .integer n.toInt
  | uint n =>
    cases ha
    rw [Argument.shape]
    exact .integer n.toNat
  | float bits => exact absurd rfl (hv bits)
  | null =>
    cases ha
    rw [Argument.shape]
    exact .null
  | unresolved offset => cases ha

include hv ha hb in
theorem alike_of_shape_eq (h : a.shape = b.shape) : v.Alike w := by
  cases v <;> cases ha <;> cases w <;> cases hb <;>
    simp only [Argument.shape, Shape.string.injEq, Shape.char.injEq, Shape.bool.injEq,
      Shape.integer.injEq, reduceCtorEq] at h
  case string.refl.string.refl => exact h ▸ .refl _
  case char.refl.char.refl => exact h ▸ .refl _
  case bool.refl.bool.refl => exact h ▸ .refl _
  case int.refl.int.refl => exact Int64.toInt_inj.1 h ▸ .refl _
  case int.refl.uint.refl => exact .int_uint h
  case uint.refl.int.refl => exact .uint_int h.symm
  case uint.refl.uint.refl => exact UInt64.toNat_inj.1 (Int.ofNat.inj h) ▸ .refl _
  case float.refl.float.refl bits _ => exact absurd rfl (hv bits)
  case null.refl.null.refl => exact .refl _

end Arguments

theorem Alike.text_eq (h : v.Alike w) : v.literal.text = w.literal.text := by
  cases h with
  | refl => rfl
  | int_uint h => exact congrArg (toString (α := Int)) h
  | uint_int h => exact congrArg (toString (α := Int)) h.symm

theorem exists_eq_unresolved (h : v.argument? = none) : ∃ offset, v = .unresolved offset := by
  cases v with
  | unresolved offset => exact ⟨offset, rfl⟩
  | _ => cases h

theorem text_eq_unresolvedText_iff (v : DefaultValue) (offset : UInt32) :
    v.literal.text = Literal.unresolvedText offset ↔ v = .unresolved offset := by
  rw [Literal.text_eq_unresolvedText_iff v.isClear_literal]
  constructor
  · intro h
    cases ha : v.argument? with
    | none =>
      obtain ⟨i, rfl⟩ := exists_eq_unresolved ha
      rw [Literal.unresolved.inj h]
    | some a => cases (literal_of_argument? ha).symm.trans h
  · rintro rfl
    rfl

theorem alike_of_text_eq (hv : ∀ bits, v ≠ .float bits) (hw : ∀ bits, w ≠ .float bits)
    (h : v.literal.text = w.literal.text) : v.Alike w := by
  cases ha : v.argument? with
  | none =>
    obtain ⟨offset, rfl⟩ := exists_eq_unresolved ha
    rw [(text_eq_unresolvedText_iff w offset).1 h.symm]
    exact .refl _
  | some a =>
    cases hb : w.argument? with
    | none =>
      obtain ⟨offset, rfl⟩ := exists_eq_unresolved hb
      rw [(text_eq_unresolvedText_iff v offset).1 h]
      exact .refl _
    | some b =>
      rw [literal_of_argument? ha, literal_of_argument? hb] at h
      have hchars : a.shape.spell ++ [] = b.shape.spell ++ [] := by
        rw [← Argument.toList_text, ← Argument.toList_text]
        exact congrArg (·.toList ++ []) h
      obtain ⟨hshape, -⟩ := Shape.spell_append_inj (readable_of_argument? hv ha)
        (readable_of_argument? hw hb) (stops_nil _) (stops_nil _) hchars
      exact alike_of_shape_eq hv ha hb hshape

/-- A default value is told by its text, and by the suffix of its declaration, up to the signedness
of a number. No other value, not even a floating-point number, looks like one that could not be
decoded. -/
theorem literal_tells_value :
    (∀ v w : DefaultValue, (∀ bits, v ≠ .float bits) → (∀ bits, w ≠ .float bits) →
      (v.literal.text = w.literal.text ↔ v.Alike w) ∧
        (v.literal.suffix = w.literal.suffix ↔ v.Alike w)) ∧
    ∀ (v : DefaultValue) (offset : UInt32),
      (v.literal.text = (unresolved offset).literal.text ↔ v = .unresolved offset) ∧
        (v.literal.suffix = (unresolved offset).literal.suffix ↔ v = .unresolved offset) := by
  refine ⟨fun v w hv hw ↦ ?_, fun v offset ↦ ?_⟩
  · rw [Literal.suffix_eq_iff v.isClear_literal w.isClear_literal]
    have htext : v.literal.text = w.literal.text ↔ v.Alike w :=
      ⟨alike_of_text_eq hv hw, Alike.text_eq⟩
    exact ⟨htext, htext⟩
  · rw [Literal.suffix_eq_iff v.isClear_literal (unresolved offset).isClear_literal]
    exact ⟨text_eq_unresolvedText_iff v offset, text_eq_unresolvedText_iff v offset⟩

theorem literal_tells_comment : (∀ bits, string "/*Metadata offset 0x40*/" ≠ .float bits) ∧
    (∀ bits, unresolved 0x40 ≠ .float bits) ∧
    (string "/*Metadata offset 0x40*/").literal.text ≠ (unresolved 0x40).literal.text ∧
    (string "/*Metadata offset 0x40*/").literal.suffix ≠ (unresolved 0x40).literal.suffix := by
  obtain ⟨htext, hsuffix⟩ := literal_tells_value.1 (string "/*Metadata offset 0x40*/")
    (unresolved 0x40) nofun nofun
  have hdifferent : ¬ (string "/*Metadata offset 0x40*/").Alike (unresolved 0x40) := nofun
  exact ⟨nofun, nofun, mt htext.1 hdifferent, mt hsuffix.1 hdifferent⟩

end DefaultValue

end MetadataDump
