import MetadataDump.Proofs.Attribute.Shapes

namespace MetadataDump

open Text

/-- A letter, a digit or an underscore. Beyond ASCII every character is taken for one. -/
def isWord (c : Char) : Bool := c.isAlphanum || c = '_' || 128 ≤ c.toNat

theorem head?_dropWhile_isWord_ne {cs rest : List Char} {d : Char} (hcs : ' ' ∉ cs)
    (hrest : rest.head? = some d) (hd : isWord d = false) (hblank : d ≠ ' ') :
    ((cs ++ rest).dropWhile isWord).head? ≠ some ' ' := by
  induction cs with
  | nil =>
    cases rest with
    | nil => cases hrest
    | cons c rest =>
      obtain rfl := Option.some.inj hrest
      rw [List.nil_append, List.dropWhile_cons_of_neg (by simp [hd])]
      exact fun h ↦ hblank (Option.some.inj h)
  | cons c cs ih =>
    obtain ⟨hc, hcs⟩ := not_or.1 (mt List.mem_cons.2 hcs)
    cases hword : isWord c with
    | true =>
      rw [List.cons_append, List.dropWhile_cons_of_pos hword]
      exact ih hcs
    | false =>
      rw [List.cons_append, List.dropWhile_cons_of_neg (by simp [hword])]
      exact fun h ↦ hc (Option.some.inj h).symm

inductive Item
  | fixed (s : Shape)
  | named (name : String) (s : Shape)

namespace Item

def fixed? : Item → Option Shape
  | .fixed s => some s
  | .named _ _ => none

def named? : Item → Option (String × Shape)
  | .fixed _ => none
  | .named name s => some (name, s)

def spell : Item → List Char
  | .fixed s => s.spell
  | .named name s => name.toList ++ ' ' :: '=' :: ' ' :: s.spell

inductive Readable : Item → Prop
  | fixed {s : Shape} (h : s.Readable) : Readable (.fixed s)
  | named {name : String} {s : Shape} (hname : ∀ c ∈ name.toList, isWord c) (h : s.Readable) :
    Readable (.named name s)

theorem blank_not_mem_toString (n : Int) : ' ' ∉ (toString n).toList := by
  intro h
  cases isNumeric_of_mem_toString _ h

theorem head?_dropWhile_fixed {s : Shape} (hs : s.Readable) {rest : List Char}
    (h : Follows ')' rest) : ((s.spell ++ rest).dropWhile isWord).head? ≠ some ' ' := by
  obtain ⟨d, hrest, hd, hblank⟩ : ∃ d, rest.head? = some d ∧ isWord d = false ∧ d ≠ ' ' := by
    rcases h with h | h
    · exact ⟨',', h, by decide, by decide⟩
    · exact ⟨')', h, by decide, by decide⟩
  have hopen {cs more : List Char} {d : Char} (hcs : ' ' ∉ cs) (hd : isWord d = false)
      (hblank : d ≠ ' ') : ((cs ++ d :: more).dropWhile isWord).head? ≠ some ' ' :=
    head?_dropWhile_isWord_ne hcs rfl hd hblank
  cases hs with
  | null =>
    rw [Shape.spell]
    exact head?_dropWhile_isWord_ne (by decide) hrest hd hblank
  | bool b =>
    cases b with
    | true =>
      rw [Shape.spell]
      exact head?_dropWhile_isWord_ne (by decide) hrest hd hblank
    | false =>
      rw [Shape.spell]
      exact head?_dropWhile_isWord_ne (by decide) hrest hd hblank
  | integer n =>
    rw [Shape.spell]
    exact head?_dropWhile_isWord_ne (blank_not_mem_toString n) hrest hd hblank
  | char unit =>
    rw [Shape.spell, Quoted.toList_charLiteral]
    exact hopen List.not_mem_nil (show isWord '\'' = false by decide) (by decide)
  | string s =>
    rw [Shape.spell, Quoted.toList_quote]
    exact hopen List.not_mem_nil (show isWord '"' = false by decide) (by decide)
  | type h =>
    rw [Shape.spell]
    exact hopen (show ' ' ∉ ['t', 'y', 'p', 'e', 'o', 'f'] by decide)
      (show isWord '(' = false by decide) (by decide)
  | array h =>
    rw [Shape.spell]
    exact hopen (show ' ' ∉ ['n', 'e', 'w'] by decide) (show isWord '[' = false by decide)
      (by decide)
  | enumeration hname h =>
    rw [Shape.spell]
    exact hopen List.not_mem_nil (show isWord '(' = false by decide) (by decide)

theorem blank_not_mem_of_isWord {cs : List Char} (h : ∀ c ∈ cs, isWord c) : ' ' ∉ cs := by
  intro hmem
  cases h ' ' hmem

theorem head?_dropWhile_named {name : String} (hname : ∀ c ∈ name.toList, isWord c) (s : Shape)
    (rest : List Char) :
    (((named name s).spell ++ rest).dropWhile isWord).head? = some ' ' := by
  rw [spell, List.append_assoc, List.dropWhile_append_of_pos hname]
  rfl

theorem spell_append_inj {i j : Item} (hi : i.Readable) (hj : j.Readable) {r s : List Char}
    (hr : Follows ')' r) (hs : Follows ')' s) (h : i.spell ++ r = j.spell ++ s) :
    i = j ∧ r = s := by
  -- a fixed and a named argument differ behind the word that they start with
  cases hi with
  | fixed hi =>
    cases hj with
    | fixed hj =>
      obtain ⟨rfl, hrest⟩ := Shape.spell_append_inj hi hj (hr.stops_isNumeric rfl)
        (hs.stops_isNumeric rfl) h
      exact ⟨rfl, hrest⟩
    | @named name t hname hj =>
      have hblank := head?_dropWhile_named hname t s
      rw [← h] at hblank
      exact absurd hblank (head?_dropWhile_fixed hi hr)
  | @named name t hname hi =>
    cases hj with
    | fixed hj =>
      have hblank := head?_dropWhile_named hname t r
      rw [h] at hblank
      exact absurd hblank (head?_dropWhile_fixed hj hs)
    | named hname' hj =>
      rw [spell, spell, List.append_assoc, List.append_assoc] at h
      obtain ⟨heq, hvalue⟩ := append_cons_inj (blank_not_mem_of_isWord hname)
        (blank_not_mem_of_isWord hname') h
      have hblank := (List.cons.inj hvalue).2
      obtain ⟨rfl, hrest⟩ := Shape.spell_append_inj hi hj (hr.stops_isNumeric rfl)
        (hs.stops_isNumeric rfl) (List.cons.inj hblank).2
      exact ⟨by rw [String.toList_injective heq], hrest⟩

end Item

def NamedArgument.shape (a : NamedArgument) : String × Shape := (a.name, a.value.shape)

namespace Attribute

/-- Names that leave the text of an attribute readable, and no floating-point numbers. The name of a
member is a word; it need not be nonempty. -/
structure Readable (a : Attribute) : Prop where
  typeName : ∀ c ∈ a.typeName.toList, c ≠ '(' ∧ c ≠ ']'
  fixed : ∀ x ∈ a.fixed, x.shape.Readable
  named : ∀ x ∈ a.named, (∀ c ∈ x.name.toList, isWord c) ∧ x.value.shape.Readable

/-- The same type and the same arguments, but for the width of integers. -/
structure Alike (a b : Attribute) : Prop where
  typeName : a.typeName = b.typeName
  fixed : a.fixed.map Argument.shape = b.fixed.map Argument.shape
  named : a.named.map NamedArgument.shape = b.named.map NamedArgument.shape

def items (a : Attribute) : List Item :=
  a.fixed.map (fun x ↦ .fixed x.shape) ++ a.named.map fun x ↦ .named x.name x.value.shape

variable {a b : Attribute}

theorem Readable.items (h : a.Readable) : ∀ i ∈ a.items, i.Readable := by
  refine List.forall_mem_append.2 ⟨fun i hi ↦ ?_, fun i hi ↦ ?_⟩
  · obtain ⟨x, hx, rfl⟩ := List.mem_map.1 hi
    exact .fixed (h.fixed x hx)
  · obtain ⟨x, hx, rfl⟩ := List.mem_map.1 hi
    exact .named (h.named x hx).1 (h.named x hx).2

theorem filterMap_fixed?_items (a : Attribute) :
    a.items.filterMap Item.fixed? = a.fixed.map Argument.shape := by
  simp [items, List.filterMap_append, List.filterMap_map, Function.comp_def, Item.fixed?]

theorem filterMap_named?_items (a : Attribute) :
    a.items.filterMap Item.named? = a.named.map NamedArgument.shape := by
  simp [items, List.filterMap_append, List.filterMap_map, Function.comp_def, Item.named?,
    NamedArgument.shape]

theorem items_eq_iff : a.items = b.items ↔
    a.fixed.map Argument.shape = b.fixed.map Argument.shape ∧
      a.named.map NamedArgument.shape = b.named.map NamedArgument.shape := by
  constructor
  · intro h
    rw [← filterMap_fixed?_items, ← filterMap_named?_items, h, filterMap_fixed?_items,
      filterMap_named?_items]
    exact ⟨rfl, rfl⟩
  · rintro ⟨hfixed, hnamed⟩
    have hitems (a : Attribute) : a.items = (a.fixed.map Argument.shape).map .fixed ++
        (a.named.map NamedArgument.shape).map fun x ↦ .named x.1 x.2 := by
      rw [List.map_map, List.map_map]
      rfl
    rw [hitems, hitems, hfixed, hnamed]

theorem map_toList_arguments (a : Attribute) :
    a.arguments.map String.toList = a.items.map Item.spell := by
  have hnamed (x : NamedArgument) :
      x.text.toList = (Item.named x.name x.value.shape).spell := by
    rw [NamedArgument.text, String.toList_append, String.toList_append, Argument.toList_text,
      Item.spell, List.append_assoc]
    rfl
  rw [arguments, items, List.map_append, List.map_append, Argument.toList_texts,
    Argument.shapes_eq_map, List.map_map, List.map_map, List.map_map, List.map_map]
  exact congrArg (_ ++ ·) (List.map_congr_left fun x _ ↦ hnamed x)

theorem isEmpty_arguments (a : Attribute) : a.arguments.isEmpty = a.items.isEmpty := by
  rw [← List.isEmpty_map (f := String.toList), map_toList_arguments, List.isEmpty_map]

/-- What stands behind the type of an attribute. -/
def spellItems (items : List Item) : List Char :=
  if items.isEmpty then [']'] else '(' :: (commaList Item.spell items ++ [')', ']'])

theorem toList_text (a : Attribute) :
    a.text.toList = '[' :: (a.typeName.toList ++ spellItems a.items) := by
  rw [text, isEmpty_arguments, String.toList_append, String.toList_append, String.toList_append,
    List.append_assoc, List.append_assoc, spellItems]
  refine congrArg (fun cs ↦ '[' :: (a.typeName.toList ++ cs)) ?_
  split
  · rfl
  · rw [String.toList_append, String.toList_append, String.toList_intercalate,
      map_toList_arguments, List.append_assoc, List.append_assoc]
    rfl

theorem spellItems_inj {xs ys : List Item} (hxs : ∀ x ∈ xs, x.Readable)
    (hys : ∀ y ∈ ys, y.Readable) (h : spellItems xs = spellItems ys) : xs = ys := by
  have hitems : ∀ x ∈ xs, ∀ y ∈ ys, ∀ r s, Follows ')' r → Follows ')' s →
      x.spell ++ r = y.spell ++ s → x = y ∧ r = s :=
    fun x hx y hy r s hr hs heq ↦ Item.spell_append_inj (hxs x hx) (hys y hy) hr hs heq
  cases xs with
  | nil =>
    cases ys with
    | nil => rfl
    | cons y ys => exact absurd (List.cons.inj h).1 (by decide)
  | cons x xs =>
    cases ys with
    | nil => exact absurd (List.cons.inj h).1 (by decide)
    | cons y ys =>
      have hempty : x :: xs = [] ↔ y :: ys = [] := iff_of_false nofun nofun
      exact (commaList_append_inj (by decide) hitems hempty (List.cons.inj h).2).1

def isNamePart (c : Char) : Bool := c != '(' && c != ']'

theorem stops_spellItems (items : List Item) : Stops isNamePart (spellItems items) := by
  intro c hc
  unfold spellItems at hc
  split at hc
  · cases hc
    rfl
  · cases hc
    rfl

theorem Readable.isNamePart (h : a.Readable) : ∀ c ∈ a.typeName.toList, isNamePart c := by
  intro c hc
  simpa [Attribute.isNamePart] using h.typeName c hc

/-- The text of an attribute tells its type and its arguments, and of these everything but the width
of their integers. -/
theorem text_eq_iff_alike (ha : a.Readable) (hb : b.Readable) : a.text = b.text ↔ a.Alike b := by
  constructor
  · intro h
    have hchars := congrArg String.toList h
    rw [toList_text, toList_text] at hchars
    obtain ⟨hname, hitems⟩ := append_inj_of_stops ha.isNamePart hb.isNamePart
      (stops_spellItems a.items) (stops_spellItems b.items) (List.cons.inj hchars).2
    obtain ⟨hfixed, hnamed⟩ := items_eq_iff.1 (spellItems_inj ha.items hb.items hitems)
    exact ⟨String.toList_injective hname, hfixed, hnamed⟩
  · intro h
    refine String.toList_injective ?_
    rw [toList_text, toList_text, h.typeName, items_eq_iff.2 ⟨h.fixed, h.named⟩]

def tagged (elements : List Argument) : Attribute where
  typeName := "Tagged"
  fixed := [.array elements, .type "int[]"]
  named := [⟨"order_2", .i4 (-7)⟩]

def joinedTags : Attribute :=
  tagged [.string "a\", \"b", .enumeration "Color" (.u1 3), .array []]

def wideTags : Attribute :=
  tagged [.string "a\", \"b", .enumeration "Color" (.i8 3), .array []]

def splitTags : Attribute :=
  tagged [.string "a", .string "b", .enumeration "Color" (.u1 3), .array []]

theorem readable_tagged {elements : List Argument} (h : ∀ e ∈ elements, e.shape.Readable) :
    (tagged elements).Readable := by
  have harray : (Argument.array elements).shape.Readable := by
    rw [Argument.shape, Argument.shapes_eq_map]
    exact .array (List.forall_mem_map.2 h)
  refine ⟨by simp [tagged], ?_, ?_⟩
  · exact List.forall_mem_cons.2 ⟨harray, List.forall_mem_singleton.2 (.type (by decide))⟩
  · exact List.forall_mem_singleton.2 ⟨by simp [isWord], .integer _⟩

/-- The width of a number is not told, but one string is not taken for two. -/
theorem text_tags : joinedTags.Readable ∧ wideTags.Readable ∧ splitTags.Readable ∧
    joinedTags.text = wideTags.text ∧ joinedTags.text ≠ splitTags.text := by
  have hcolor : (Shape.enumeration "Color" (.integer 3)).Readable :=
    .enumeration (by decide) (.integer 3)
  have hempty : (Shape.array []).Readable := .array (List.forall_mem_nil _)
  have hjoined : joinedTags.Readable := by
    refine readable_tagged ?_
    simp only [List.forall_mem_cons, Argument.shape, Argument.shapes]
    exact ⟨.string _, hcolor, hempty, List.forall_mem_nil _⟩
  have hwide : wideTags.Readable := by
    refine readable_tagged ?_
    simp only [List.forall_mem_cons, Argument.shape, Argument.shapes]
    exact ⟨.string _, hcolor, hempty, List.forall_mem_nil _⟩
  have hsplit : splitTags.Readable := by
    refine readable_tagged ?_
    simp only [List.forall_mem_cons, Argument.shape, Argument.shapes]
    exact ⟨.string _, .string _, hcolor, hempty, List.forall_mem_nil _⟩
  refine ⟨hjoined, hwide, hsplit, ?_, fun h ↦ ?_⟩
  · exact (text_eq_iff_alike hjoined hwide).2 ⟨rfl, rfl, rfl⟩
  · have hfixed := ((text_eq_iff_alike hjoined hsplit).1 h).fixed
    simp [joinedTags, splitTags, tagged, Argument.shape, Argument.shapes] at hfixed

end Attribute

end MetadataDump
