import MetadataDump.Attribute.Scheme
import MetadataDump.Proofs.Declaration.Literal

namespace MetadataDump

structure IsLine (s : String) : Prop where
  not_mem : '\n' ∉ s.toList

/-- The only text from the metadata that an error tells is the name of a type. -/
def Error.OneLine (e : Error) : Prop := ∀ name, e = .malformed (.notAnEnum name) → IsLine name

namespace IsLine

variable {s t : String}

theorem ofList_iff {cs : List Char} : IsLine (String.ofList cs) ↔ '\n' ∉ cs := by
  constructor
  · intro h
    rw [← String.toList_ofList (l := cs)]
    exact h.not_mem
  · intro h
    constructor
    rwa [String.toList_ofList]

/-- A text that is written out is decided fastest by its characters. -/
theorem literal {cs : List Char} (h : '\n' ∉ cs) : IsLine (String.ofList cs) := ofList_iff.2 h

theorem append (hs : IsLine s) (ht : IsLine t) : IsLine (s ++ t) := by
  constructor
  rw [String.toList_append, List.mem_append, not_or]
  exact ⟨hs.not_mem, ht.not_mem⟩

theorem between {front back : List Char} (h : IsLine s) (hfront : '\n' ∉ front)
    (hback : '\n' ∉ back) : IsLine (String.ofList front ++ s ++ String.ofList back) :=
  append (append (literal hfront) h) (literal hback)

theorem join {ss : List String} (h : ∀ s ∈ ss, IsLine s) : IsLine (String.join ss) := by
  induction ss with
  | nil => exact literal (by decide)
  | cons s ss ih =>
    obtain ⟨hs, hss⟩ := List.forall_mem_cons.1 h
    rw [String.join_cons]
    exact hs.append (ih hss)

theorem intercalate (hs : IsLine s) {ss : List String} (h : ∀ t ∈ ss, IsLine t) :
    IsLine (s.intercalate ss) := by
  induction ss with
  | nil =>
    rw [String.intercalate_nil]
    exact literal (by decide)
  | cons t ss ih =>
    obtain ⟨ht, hss⟩ := List.forall_mem_cons.1 h
    cases ss with
    | nil =>
      rw [String.intercalate_singleton]
      exact ht
    | cons u ss =>
      rw [String.intercalate_cons_cons]
      exact (ht.append hs).append (ih hss)

section Numbers

theorem toString_nat (n : Nat) : IsLine (toString n) := by
  constructor
  rw [Nat.toString_eq_repr, Nat.toList_repr]
  exact not_mem_toDigits (by decide) n

theorem toString_int (n : Int) : IsLine (toString n) := by
  rw [Int.toString_eq_repr, Int.repr_eq_if]
  split
  · exact toString_nat _
  · exact append (literal (by decide)) (toString_nat _)

theorem digitChar_ne_lineFeed (n : Nat) : n.digitChar ≠ '\n' ∧ n.digitChar.toUpper ≠ '\n' := by
  by_cases hn : n < 16
  · have hall : ∀ d < 16, Nat.digitChar d ≠ '\n' ∧ (Nat.digitChar d).toUpper ≠ '\n' := by decide
    exact hall n hn
  · rw [Nat.digitChar_eq_star.2 (Nat.not_lt.1 hn)]
    decide

theorem mem_toDigits {b n : Nat} {c : Char} (hb : 1 < b) (hc : c ∈ Nat.toDigits b n) :
    ∃ d, c = Nat.digitChar d := by
  induction n using Nat.strongRecOn with
  | ind n ih =>
    by_cases hn : n < b
    · rw [Nat.toDigits_of_lt_base hn, List.mem_singleton] at hc
      exact ⟨n, hc⟩
    · rw [Nat.toDigits_of_base_le hb (Nat.not_lt.1 hn), List.mem_append] at hc
      rcases hc with hfront | hlast
      · exact ih (n / b) (Nat.div_lt_self (by omega) hb) hfront
      · exact ⟨n % b, List.mem_singleton.1 hlast⟩

theorem hex (n : Nat) : IsLine (Text.hex n) := by
  rw [Text.hex, ofList_iff]
  intro hmem
  obtain ⟨d, hd⟩ := mem_toDigits (by decide) hmem
  exact (digitChar_ne_lineFeed d).1 hd.symm

theorem upperHex (n : Nat) : IsLine (Text.upperHex n) := by
  rw [Text.upperHex, ofList_iff]
  intro hmem
  obtain ⟨c, hc, heq⟩ := List.mem_map.1 hmem
  obtain ⟨d, rfl⟩ := mem_toDigits (by decide) hc
  exact (digitChar_ne_lineFeed d).2 heq

theorem mem_fixedHex {width n : Nat} {c : Char} (hc : c ∈ Text.fixedHex width n) :
    ∃ d, c = Nat.digitChar d := by
  induction width generalizing n with
  | zero => cases hc
  | succ width ih =>
    rw [Text.fixedHex, List.mem_append] at hc
    rcases hc with hfront | hlast
    · exact ih hfront
    · exact ⟨n % 16, List.mem_singleton.1 hlast⟩

theorem byteHex (b : UInt8) : IsLine (Text.byteHex b) := by
  rw [Text.byteHex, ofList_iff]
  intro hmem
  obtain ⟨c, hc, heq⟩ := List.mem_map.1 hmem
  obtain ⟨d, rfl⟩ := mem_fixedHex hc
  exact (digitChar_ne_lineFeed d).2 heq

theorem plain (f : Decimal.BinaryFormat) (bits : Nat) :
    IsLine (Decimal.plain.text f bits) :=
  ⟨Decimal.Layout.not_mem_plain (by decide) (by decide) f bits⟩

end Numbers

section Literals

theorem not_mem_escapeChar (c : Char) : '\n' ∉ Text.Quoted.escapeChar c := by
  by_cases hc : c = '\n'
  · subst hc
    decide
  · unfold Text.Quoted.escapeChar
    split
    case h_13 =>
      rw [List.mem_singleton]
      exact Ne.symm hc
    all_goals decide

theorem quote (s : String) : IsLine (Text.Quoted.quote s) := by
  have hescape : IsLine (Text.Quoted.escape s) := by
    rw [Text.Quoted.escape, ofList_iff, Text.Quoted.encode, List.mem_flatMap]
    rintro ⟨c, -, hc⟩
    exact not_mem_escapeChar c hc
  exact between hescape (by decide) (by decide)

theorem charLiteral (unit : UInt16) : IsLine (Text.Quoted.charLiteral unit) :=
  between (hex _) (by decide) (by decide)

theorem boolText (b : Bool) : IsLine (Argument.bool b).text := by
  cases b with
  | false => exact literal (by decide)
  | true => exact literal (by decide)

theorem unresolvedText (offset : UInt32) : IsLine (Literal.unresolvedText offset) :=
  between (upperHex _) (by decide) (by decide)

theorem suffix_literal (v : DefaultValue) : IsLine v.literal.suffix := by
  have hvalue (text : String) (h : IsLine text) : IsLine (Literal.value text).suffix :=
    append (literal (by decide)) h
  cases v with
  | string s => exact hvalue _ (quote s)
  | char unit => exact hvalue _ (charLiteral unit)
  | bool b => exact hvalue _ (boolText b)
  | int n => exact hvalue _ (toString_int _)
  | uint n => exact hvalue _ (toString_nat _)
  | float bits => exact hvalue _ (plain _ _)
  | null => exact hvalue _ (literal (by decide))
  | unresolved offset => exact append (literal (by decide)) (unresolvedText offset)

end Literals

section Attributes

theorem address (a : Address) : IsLine a.text := by
  refine append (append ?_ (literal (by decide))) (upperHex a.va.toNat)
  refine append (append ?_ (literal (by decide))) (upperHex a.offset.toNat)
  exact append (literal (by decide)) (upperHex a.rva.toNat)

theorem texts {as : List Argument} (h : ∀ a ∈ as, IsLine a.text) :
    ∀ t ∈ Argument.texts as, IsLine t := by
  induction as with
  | nil => exact List.forall_mem_nil _
  | cons a as ih =>
    obtain ⟨ha, has⟩ := List.forall_mem_cons.1 h
    rw [Argument.texts]
    exact List.forall_mem_cons.2 ⟨ha, ih has⟩

theorem arrayText {elements : List Argument} (h : ∀ a ∈ elements, IsLine a.text) :
    IsLine (Argument.array elements).text := by
  have hcomma : IsLine ", " := literal (by decide)
  have helements := intercalate hcomma (texts h)
  rw [Argument.text]
  exact between helements (by decide) (by decide)

theorem enumerationText {name : String} {value : Argument} (hname : IsLine name)
    (h : IsLine value.text) : IsLine (Argument.enumeration name value).text := by
  have hcast : IsLine ("(" ++ name ++ ")") := between hname (by decide) (by decide)
  rw [Argument.text]
  exact append hcast h

theorem typeText {name : String} (hname : IsLine name) : IsLine (Argument.type name).text := by
  rw [Argument.text]
  exact between hname (by decide) (by decide)

theorem attributeText {a : Attribute} (hname : IsLine a.typeName)
    (hfixed : ∀ x ∈ a.fixed, IsLine x.text) (hnamed : ∀ x ∈ a.named, IsLine x.text) :
    IsLine a.text := by
  have harguments : ∀ t ∈ a.arguments, IsLine t := by
    intro t ht
    rcases List.mem_append.1 ht with hmem | hmem
    · exact texts hfixed t hmem
    · obtain ⟨x, hx, rfl⟩ := List.mem_map.1 hmem
      exact hnamed x hx
  have hcomma : IsLine ", " := literal (by decide)
  have hlist := intercalate hcomma harguments
  refine append (append (append (literal (by decide)) hname) ?_) (literal (by decide))
  split
  · exact literal (by decide)
  · exact between hlist (by decide) (by decide)

end Attributes

section Errors

theorem tableName (t : Table) : IsLine t.name := by
  cases t <;> exact literal (by decide)

theorem labelled {label : String} (hlabel : IsLine label) (n : Nat) :
    IsLine (label ++ toString n) :=
  hlabel.append (toString_nat n)

theorem faultMessage (f : Text.Utf8.Fault) : IsLine f.message := by
  cases f with
  | invalid valid length =>
    exact labelled (append (labelled (literal (by decide)) length) (literal (by decide))) valid
  | incomplete valid => exact labelled (literal (by decide)) valid

theorem damageMessage {d : Damage} (h : ∀ name, d = .notAnEnum name → IsLine name) :
    IsLine d.message := by
  cases d with
  | invalidText start stop fault =>
    refine append (append ?_ (literal (by decide))) (faultMessage fault)
    exact labelled (append (labelled (literal (by decide)) start) (literal (by decide))) stop
  | compressedLead lead => exact append (literal (by decide)) (byteHex lead)
  | invertedRange start stop =>
    exact labelled (append (labelled (literal (by decide)) start.toNat) (literal (by decide)))
      stop.toNat
  | notAnEnum name => exact between (h name rfl) (by decide) (by decide)
  | constructorTable count size =>
    refine append ?_ (literal (by decide))
    exact labelled (append (labelled (literal (by decide)) count) (literal (by decide))) size
  | negativeConstructor index => exact append (literal (by decide)) (toString_int _)
  | memberBeforeTable start member =>
    refine labelled (append ?_ (literal (by decide))) member
    exact append (literal (by decide)) (toString_int start.toInt)
  | tooDeep levels => exact append (labelled (literal (by decide)) levels) (literal (by decide))
  | textLength length => exact append (literal (by decide)) (toString_int _)
  | arrayLength length => exact append (literal (by decide)) (toString_int _)
  | valueTag tag => exact append (literal (by decide)) (byteHex tag)

theorem placeText (p : Place) : IsLine p.text := by
  have hfile : IsLine p.file := ⟨p.not_mem_file⟩
  exact labelled (hfile.append (literal (by decide))) p.line

theorem message [Places] {e : Error} (h : e.OneLine) : IsLine e.message := by
  cases e with
  | malformed damage =>
    have hmark : IsLine "Malformed - " := literal (by decide)
    have hplace := (hmark.append (placeText (Places.damage damage))).append
      (literal (by decide) : IsLine ": ")
    refine append hplace (damageMessage fun name hname ↦ h name ?_)
    rw [hname]
  | dangling table index =>
    refine append (append (append ?_ (literal (by decide))) (tableName table)) (literal (by decide))
    exact append (literal (by decide)) (toString_int index)
  | outOfBounds check => exact append (literal (by decide)) (placeText _)
  | file => exact literal (by decide)
  | json => exact literal (by decide)

end Errors

end IsLine

end MetadataDump
