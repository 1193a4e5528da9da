import MetadataDump.Attribute.Argument
import MetadataDump.Proofs.Text.Literals

namespace MetadataDump

open Text

/-- An argument without the widths of its integers. A floating-point number is left as its text. -/
inductive Shape
  | null
  | bool (b : Bool)
  | char (unit : UInt16)
  | integer (n : Int)
  | float (text : String)
  | string (s : String)
  | type (name : String)
  | array (elements : List Shape)
  | enumeration (name : String) (value : Shape)

namespace Argument

mutual

def shape : Argument → Shape
  | .null => .null
  | .bool b => .bool b
  | .char unit => .char unit
  | .i1 n => .integer n.toInt
  | .u1 n => .integer n.toNat
  | .i2 n => .integer n.toInt
  | .u2 n => .integer n.toNat
  | .i4 n => .integer n.toInt
  | .u4 n => .integer n.toNat
  | .i8 n => .integer n.toInt
  | .u8 n => .integer n.toNat
  | .r4 bits => .float (text (.r4 bits))
  | .r8 bits => .float (text (.r8 bits))
  | .string s => .string s
  | .type name => .type name
  | .array elements => .array (shapes elements)
  | .enumeration name value => .enumeration name (shape value)

def shapes : List Argument → List Shape
  | [] => []
  | a :: as => shape a :: shapes as

end

end Argument

namespace Shape

mutual

def spell : Shape → List Char
  | .null => ['n', 'u', 'l', 'l']
  | .bool true => ['t', 'r', 'u', 'e']
  | .bool false => ['f', 'a', 'l', 's', 'e']
  | .char unit => (Quoted.charLiteral unit).toList
  | .integer n => (toString n).toList
  | .float text => text.toList
  | .string s => (Quoted.quote s).toList
  | .type name => ['t', 'y', 'p', 'e', 'o', 'f', '('] ++ name.toList ++ [')']
  | .array elements => ['n', 'e', 'w', '[', ']', ' ', '{', ' '] ++ spellAll elements ++ [' ', '}']
  | .enumeration name value => ['('] ++ name.toList ++ [')'] ++ spell value

def spellAll : List Shape → List Char
  | [] => []
  | s :: ss => s.spell ++ spellOthers ss

def spellOthers : List Shape → List Char
  | [] => []
  | s :: ss => ',' :: ' ' :: s.spell ++ spellOthers ss

end

theorem spellOthers_eq (ss : List Shape) : spellOthers ss = others spell ss := by
  induction ss with
  | nil =>
    rw [spellOthers]
    rfl
  | cons s ss ih =>
    rw [spellOthers, ih]
    rfl

theorem spellAll_eq (ss : List Shape) : spellAll ss = commaList spell ss := by
  cases ss with
  | nil =>
    rw [spellAll]
    rfl
  | cons s ss => rw [spellAll, spellOthers_eq, commaList_cons]

theorem spell_type_append (name : String) (rest : List Char) : (type name).spell ++ rest =
    ['t', 'y', 'p', 'e', 'o', 'f', '('] ++ (name.toList ++ ')' :: rest) := by
  rw [spell, List.append_assoc, List.append_assoc]
  rfl

theorem spell_array_append (ss : List Shape) (rest : List Char) : (array ss).spell ++ rest =
    ['n', 'e', 'w', '[', ']', ' ', '{', ' '] ++ (commaList spell ss ++ ' ' :: '}' :: rest) := by
  rw [spell, spellAll_eq, List.append_assoc, List.append_assoc]
  rfl

theorem spell_enumeration_append (name : String) (value : Shape) (rest : List Char) :
    (enumeration name value).spell ++ rest =
      ['('] ++ (name.toList ++ ')' :: (value.spell ++ rest)) := by
  rw [spell, List.append_assoc, List.append_assoc, List.append_assoc]
  rfl

end Shape

namespace Argument

theorem shapes_eq_map (as : List Argument) : shapes as = as.map shape := by
  induction as with
  | nil => rw [shapes, List.map_nil]
  | cons a as ih => rw [shapes, ih, List.map_cons]

mutual

theorem toList_text : ∀ a : Argument, a.text.toList = a.shape.spell
  | .null => by rw [text, shape, Shape.spell]; rfl
  | .bool true => by rw [text, shape, Shape.spell]; rfl
  | .bool false => by rw [text, shape, Shape.spell]; rfl
  | .char unit => by rw [text, shape, Shape.spell]
  | .i1 n => by rw [text, shape, Shape.spell]
  | .u1 n => by rw [text, shape, Shape.spell]; rfl
  | .i2 n => by rw [text, shape, Shape.spell]
  | .u2 n => by rw [text, shape, Shape.spell]; rfl
  | .i4 n => by rw [text, shape, Shape.spell]
  | .u4 n => by rw [text, shape, Shape.spell]; rfl
  | .i8 n => by rw [text, shape, Shape.spell]
  | .u8 n => by rw [text, shape, Shape.spell]; rfl
  | .r4 bits => by rw [shape, Shape.spell]
  | .r8 bits => by rw [shape, Shape.spell]
  | .string s => by rw [text, shape, Shape.spell]
  | .type name => by
    rw [text, shape, Shape.spell, String.toList_append, String.toList_append]
    rfl
  | .array elements => by
    rw [text, shape, Shape.spell, String.toList_append, String.toList_append,
      String.toList_intercalate, toList_texts elements, Shape.spellAll_eq]
    rfl
  | .enumeration name value => by
    rw [text, shape, Shape.spell, ← toList_text value, String.toList_append, String.toList_append,
      String.toList_append]
    rfl

theorem toList_texts : ∀ as : List Argument,
    (texts as).map String.toList = (shapes as).map Shape.spell
  | [] => by
    rw [texts, shapes]
    rfl
  | a :: as => by
    rw [texts, shapes, List.map_cons, List.map_cons, toList_text a, toList_texts as]

end

end Argument

namespace Shape

/-- Shapes that can be read back: no floating-point number in them, and no closing parenthesis in
the name of a type. -/
inductive Readable : Shape → Prop
  | null : Readable .null
  | bool (b : Bool) : Readable (.bool b)
  | char (unit : UInt16) : Readable (.char unit)
  | integer (n : Int) : Readable (.integer n)
  | string (s : String) : Readable (.string s)
  | type {name : String} (h : ')' ∉ name.toList) : Readable (.type name)
  | array {elements : List Shape} (h : ∀ e ∈ elements, Readable e) : Readable (.array elements)
  | enumeration {name : String} {value : Shape} (hname : ')' ∉ name.toList) (h : Readable value) :
    Readable (.enumeration name value)

inductive Kind
  | null | bool | char | integer | float | string | type | array | enumeration

def kind : Shape → Kind
  | .null => .null
  | .bool _ => .bool
  | .char _ => .char
  | .integer _ => .integer
  | .float _ => .float
  | .string _ => .string
  | .type _ => .type
  | .array _ => .array
  | .enumeration _ _ => .enumeration

/-- The kind of shape that a text starts with; two characters are enough to tell. -/
def opening : List Char → Kind
  | 'n' :: 'u' :: _ => .null
  | 'n' :: _ => .array
  | 't' :: 'y' :: _ => .type
  | 't' :: _ => .bool
  | 'f' :: _ => .bool
  | '\'' :: _ => .char
  | '"' :: _ => .string
  | '(' :: _ => .enumeration
  | _ => .integer

theorem opening_of_isNumeric {c : Char} (h : isNumeric c = true) (rest : List Char) :
    opening (c :: rest) = .integer := by
  unfold opening
  split <;> simp_all [isNumeric]

variable {s t : Shape} {r r' : List Char}

theorem opening_spell (hs : s.Readable) (rest : List Char) :
    opening (s.spell ++ rest) = s.kind := by
  cases hs with
  | null =>
    rw [spell]
    rfl
  | bool b => cases b <;> (rw [spell]; rfl)
  | char unit =>
    rw [spell, Quoted.toList_charLiteral]
    rfl
  | integer n =>
    obtain ⟨c, cs, hn, hc⟩ := exists_toString_eq n
    rw [spell, hn]
    exact opening_of_isNumeric hc _
  | string s =>
    rw [spell, Quoted.toList_quote]
    rfl
  | type h =>
    rw [spell]
    rfl
  | array h =>
    rw [spell]
    rfl
  | enumeration h hvalue =>
    rw [spell]
    rfl

theorem kind_eq (hs : s.Readable) (ht : t.Readable) (h : s.spell ++ r = t.spell ++ r') :
    s.kind = t.kind := by
  rw [← opening_spell hs r, h, opening_spell ht r']

theorem spell_append_ne_blank (hs : s.Readable) : s.spell ++ r ≠ ' ' :: r' := by
  intro h
  have hkind : s.kind = .integer := by
    rw [← opening_spell hs r, h]
    rfl
  cases hs with
  | integer n =>
    obtain ⟨c, cs, hn, hc⟩ := exists_toString_eq n
    rw [spell, hn] at h
    obtain rfl := (List.cons.inj h).1
    cases hc
  | _ => cases hkind

theorem eq_nil_of_commaList {ss : List Shape} (hss : ∀ s ∈ ss, s.Readable)
    (h : commaList spell ss ++ r = ' ' :: r') : ss = [] := by
  cases ss with
  | nil => rfl
  | cons s ss =>
    rw [commaList_cons, List.append_assoc] at h
    exact absurd h (spell_append_ne_blank (hss s List.mem_cons_self))

/-- Arrays are told apart by their texts if their elements are. -/
theorem elements_append_inj {ss ts : List Shape} (hss : ∀ s ∈ ss, s.Readable)
    (hts : ∀ t ∈ ts, t.Readable)
    (hitems : ∀ s ∈ ss, ∀ t ∈ ts, ∀ r r', Follows ' ' r → Follows ' ' r' →
      s.spell ++ r = t.spell ++ r' → s = t ∧ r = r')
    (h : commaList spell ss ++ ' ' :: r = commaList spell ts ++ ' ' :: r') : ss = ts ∧ r = r' := by
  refine commaList_append_inj (by decide) hitems ⟨?_, ?_⟩ h
  · rintro rfl
    exact eq_nil_of_commaList hts h.symm
  · rintro rfl
    exact eq_nil_of_commaList hss h

theorem spell_append_inj (hs : s.Readable) (ht : t.Readable) (hr : Stops isNumeric r)
    (hr' : Stops isNumeric r') (h : s.spell ++ r = t.spell ++ r') : s = t ∧ r = r' := by
  -- both shapes are of the kind that the text starts with, so only equal constructors are left
  have hkind := kind_eq hs ht h
  induction hs generalizing t r r' with
  | null =>
    cases ht with
    | null => exact ⟨rfl, List.append_cancel_left h⟩
    | _ => cases hkind
  | bool b =>
    cases ht with
    | bool c =>
      obtain rfl : b = c := by cases b <;> cases c <;> simp [spell] at h ⊢
      exact ⟨rfl, List.append_cancel_left h⟩
    | _ => cases hkind
  | char unit =>
    cases ht with
    | char unit' =>
      rw [spell, spell] at h
      obtain ⟨rfl, hrest⟩ := Quoted.charLiteral_append_inj h
      exact ⟨rfl, hrest⟩
    | _ => cases hkind
  | integer n =>
    cases ht with
    | integer n' =>
      rw [spell, spell] at h
      obtain ⟨rfl, hrest⟩ := toString_append_inj hr hr' h
      exact ⟨rfl, hrest⟩
    | _ => cases hkind
  | string s =>
    cases ht with
    | string s' =>
      rw [spell, spell] at h
      obtain ⟨rfl, hrest⟩ := Quoted.quote_append_inj h
      exact ⟨rfl, hrest⟩
    | _ => cases hkind
  | type hname =>
    cases ht with
    | type hname' =>
      rw [spell_type_append, spell_type_append] at h
      obtain ⟨heq, hrest⟩ := append_cons_inj hname hname' (List.append_cancel_left h)
      rw [String.toList_injective heq]
      exact ⟨rfl, hrest⟩
    | _ => cases hkind
  | array hss ih =>
    cases ht with
    | array hts =>
      rw [spell_array_append, spell_array_append] at h
      obtain ⟨rfl, hrest⟩ := elements_append_inj hss hts (fun s hs t ht r r' hr hr' hst ↦
        ih s hs (hts t ht) (hr.stops_isNumeric rfl) (hr'.stops_isNumeric rfl) hst
          (kind_eq (hss s hs) (hts t ht) hst)) (List.append_cancel_left h)
      exact ⟨rfl, (List.cons.inj hrest).2⟩
    | _ => cases hkind
  | enumeration hname hvalue ih =>
    cases ht with
    | enumeration hname' hvalue' =>
      rw [spell_enumeration_append, spell_enumeration_append] at h
      obtain ⟨heq, hrest⟩ := append_cons_inj hname hname' (List.append_cancel_left h)
      obtain ⟨rfl, hr⟩ := ih hvalue' hr hr' hrest (kind_eq hvalue hvalue' hrest)
      rw [String.toList_injective heq]
      exact ⟨rfl, hr⟩
    | _ => cases hkind

end Shape

end MetadataDump
