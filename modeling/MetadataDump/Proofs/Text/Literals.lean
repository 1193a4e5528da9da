import MetadataDump.Proofs.Text.Hex
import MetadataDump.Proofs.Text.Separation
import MetadataDump.Text.Quoted

namespace MetadataDump.Text

def units (n : Nat) : List UInt16 :=
  if n < 0x10000 then [.ofNat n]
  else [.ofNat (0xD800 + (n - 0x10000) / 0x400), .ofNat (0xDC00 + (n - 0x10000) % 0x400)]

def utf16 (cs : List Char) : List UInt16 := cs.flatMap (units ·.toNat)

theorem toNat_not_surrogate (c : Char) :
    c.toNat < 0xD800 ∨ 0xDFFF < c.toNat ∧ c.toNat < 0x110000 :=
  c.valid

theorem units_ne_nil (n : Nat) : units n ≠ [] := by
  unfold units
  split
  · exact List.cons_ne_nil _ _
  · exact List.cons_ne_nil _ _

theorem units_append_inj {c d : Char} {us vs : List UInt16}
    (h : units c.toNat ++ us = units d.toNat ++ vs) : c = d ∧ us = vs := by
  have hc := toNat_not_surrogate c
  have hd := toNat_not_surrogate d
  have hunit {m n : Nat} (hmn : UInt16.ofNat m = UInt16.ofNat n) (hm : m < 0x10000)
      (hn : n < 0x10000) : m = n := by
    have hnat := congrArg UInt16.toNat hmn
    rwa [UInt16.toNat_ofNat_of_lt' hm, UInt16.toNat_ofNat_of_lt' hn] at hnat
  unfold units at h
  split at h <;> split at h
  · obtain ⟨hhead, htail⟩ := List.cons.inj h
    exact ⟨Char.toNat_inj.1 (hunit hhead (by omega) (by omega)), htail⟩
  · obtain ⟨hhead, -⟩ := List.cons.inj h
    have hnat := hunit hhead (by omega) (by omega)
    omega
  · obtain ⟨hhead, -⟩ := List.cons.inj h
    have hnat := hunit hhead (by omega) (by omega)
    omega
  · obtain ⟨hfirst, hrest⟩ := List.cons.inj h
    obtain ⟨hsecond, htail⟩ := List.cons.inj hrest
    have hhigh := hunit hfirst (by omega) (by omega)
    have hlow := hunit hsecond (by omega) (by omega)
    exact ⟨Char.toNat_inj.1 (by omega), htail⟩

theorem utf16_injective : Function.Injective utf16 := by
  intro cs ds h
  induction cs generalizing ds with
  | nil =>
    cases ds with
    | nil => rfl
    | cons d ds => exact absurd (List.append_eq_nil_iff.1 h.symm).1 (units_ne_nil _)
  | cons c cs ih =>
    cases ds with
    | nil => exact absurd (List.append_eq_nil_iff.1 h).1 (units_ne_nil _)
    | cons d ds =>
      obtain ⟨rfl, htail⟩ := units_append_inj h
      rw [ih htail]

namespace Lexer

def newlines : List Char := ['\n', '\r', '\u0085', '\u2028', '\u2029']

def simpleEscape? : Char → Option UInt16
  | '\'' => some 0x27
  | '"' => some 0x22
  | '\\' => some 0x5C
  | '0' => some 0x00
  | 'a' => some 0x07
  | 'b' => some 0x08
  | 'f' => some 0x0C
  | 'n' => some 0x0A
  | 'r' => some 0x0D
  | 't' => some 0x09
  | 'v' => some 0x0B
  | _ => none

/-- Takes hexadecimal digits as long as there are some, at most `most` of them. -/
def hexDigits : Nat → List Char → List Nat × List Char
  | 0, cs => ([], cs)
  | _ + 1, [] => ([], [])
  | most + 1, c :: cs =>
    match hexValue? c with
    | some d => (d :: (hexDigits most cs).1, (hexDigits most cs).2)
    | none => ([], c :: cs)

def hexEscape? (least most : Nat) (cs : List Char) : Option (List UInt16 × List Char) :=
  let (digits, rest) := hexDigits most cs
  let n := digits.foldl (16 * · + ·) 0
  if least ≤ digits.length ∧ n < 0x110000 then some (units n, rest) else none

def escape? : List Char → Option (List UInt16 × List Char)
  | [] => none
  | 'u' :: cs => hexEscape? 4 4 cs
  | 'U' :: cs => hexEscape? 8 8 cs
  | 'x' :: cs => hexEscape? 1 4 cs
  | c :: cs => (simpleEscape? c).map ([·], cs)

theorem length_hexDigits_le (most : Nat) (cs : List Char) :
    (hexDigits most cs).2.length ≤ cs.length := by
  induction most generalizing cs with
  | zero => exact le_rfl
  | succ most ih =>
    cases cs with
    | nil => exact le_rfl
    | cons c cs =>
      rw [hexDigits]
      split
      · exact (ih cs).trans (Nat.le_succ _)
      · exact le_rfl

theorem length_le_of_hexEscape? {least most : Nat} {cs rest : List Char} {us : List UInt16}
    (h : hexEscape? least most cs = some (us, rest)) : rest.length ≤ cs.length := by
  have hle := length_hexDigits_le most cs
  obtain ⟨-, he⟩ := Option.ite_none_right_eq_some.1 h
  cases he
  exact hle

theorem length_lt_of_escape? {cs rest : List Char} {us : List UInt16}
    (h : escape? cs = some (us, rest)) : rest.length < cs.length := by
  unfold escape? at h
  split at h
  · cases h
  · exact Nat.lt_succ_of_le (length_le_of_hexEscape? h)
  · exact Nat.lt_succ_of_le (length_le_of_hexEscape? h)
  · exact Nat.lt_succ_of_le (length_le_of_hexEscape? h)
  · obtain ⟨u, -, he⟩ := Option.map_eq_some_iff.1 h
    cases he
    exact Nat.lt_succ_self _

/-- The code units of a string up to its closing quote, and the text after that. -/
def characters (cs : List Char) : Option (List UInt16 × List Char) :=
  match cs with
  | [] => none
  | '"' :: rest => some ([], rest)
  | '\\' :: cs =>
    match _h : escape? cs with
    | none => none
    | some (us, rest) => (characters rest).map fun (vs, rest) ↦ (us ++ vs, rest)
  | c :: cs =>
    if c ∈ newlines then none
    else (characters cs).map fun (vs, rest) ↦ (units c.toNat ++ vs, rest)
termination_by cs.length
decreasing_by
  · have hlt := length_lt_of_escape? _h
    simp only [List.length_cons]
    omega
  · simp

/-- A regular string literal at the start of a text: its value, and the text after it. -/
def stringLiteral? : List Char → Option (List UInt16 × List Char)
  | '"' :: cs => characters cs
  | _ => none

theorem characters_quote (rest : List Char) : characters ('"' :: rest) = some ([], rest) := by
  rw [characters]

theorem characters_escape {cs rest : List Char} {us : List UInt16}
    (h : escape? cs = some (us, rest)) :
    characters ('\\' :: cs) = (characters rest).map fun (vs, rest) ↦ (us ++ vs, rest) := by
  rw [characters]
  split
  · rename_i hnone
    cases h.symm.trans hnone
  · rename_i hsome
    cases h.symm.trans hsome
    rfl

theorem characters_plain {c : Char} (hquote : c ≠ '"') (hslash : c ≠ '\\') (hline : c ∉ newlines)
    (cs : List Char) : characters (c :: cs) =
      (characters cs).map fun (vs, rest) ↦ (units c.toNat ++ vs, rest) := by
  rw [characters]
  · rw [if_neg hline]
  · exact hquote
  · exact hslash

theorem not_mem_newlines {c : Char} (hfeed : c ≠ '\n') (hreturn : c ≠ '\r') (hnext : c ≠ '\u0085')
    (hline : c ≠ '\u2028') (hparagraph : c ≠ '\u2029') : c ∉ newlines := by
  simp [newlines, *]

theorem characters_escapeChar (c : Char) (rest : List Char) :
    characters (Quoted.escapeChar c ++ rest) =
      (characters rest).map fun (vs, rest) ↦ (units c.toNat ++ vs, rest) := by
  unfold Quoted.escapeChar
  split
  case h_13 hsingle hdouble htab hfeed hreturn hpage hback hslash hnull hnext hline hparagraph =>
    exact characters_plain hdouble hslash
      (not_mem_newlines hfeed hreturn hnext hline hparagraph) rest
  all_goals exact characters_escape rfl

theorem characters_encode (cs rest : List Char) :
    characters (Quoted.encode cs ++ '"' :: rest) = some (utf16 cs, rest) := by
  induction cs with
  | nil => exact characters_quote rest
  | cons c cs ih =>
    have hcons : Quoted.encode (c :: cs) = Quoted.escapeChar c ++ Quoted.encode cs := rfl
    rw [hcons, List.append_assoc, characters_escapeChar, ih]
    rfl

end Lexer

namespace Quoted

open Lexer

theorem toList_escape (s : String) : (escape s).toList = encode s.toList := String.toList_ofList

theorem toList_quote (s : String) : (quote s).toList = '"' :: (encode s.toList ++ ['"']) := by
  rw [quote, String.toList_append, String.toList_append, toList_escape]
  rfl

theorem stringLiteral?_quote (s : String) (rest : List Char) :
    stringLiteral? ((quote s).toList ++ rest) = some (utf16 s.toList, rest) := by
  rw [toList_quote, List.cons_append, List.append_assoc]
  exact characters_encode s.toList rest

theorem quote_append_inj {s t : String} {r r' : List Char}
    (h : (quote s).toList ++ r = (quote t).toList ++ r') : s = t ∧ r = r' := by
  have hread := stringLiteral?_quote s r
  rw [h, stringLiteral?_quote] at hread
  obtain ⟨hvalue, hrest⟩ := Prod.mk.inj (Option.some.inj hread)
  exact ⟨(String.toList_injective (utf16_injective hvalue)).symm, hrest.symm⟩

theorem escape_injective : Function.Injective escape := by
  intro s t h
  have hquote : (quote s).toList ++ [] = (quote t).toList ++ [] := by rw [quote, h, quote]
  exact (quote_append_inj hquote).1

theorem toList_charLiteral (unit : UInt16) :
    (charLiteral unit).toList = ['\'', '\\', 'x'] ++ ((hex unit.toNat).toList ++ ['\'']) := by
  rw [charLiteral, String.toList_append, String.toList_append, List.append_assoc]
  rfl

theorem charLiteral_append_inj {u v : UInt16} {r r' : List Char}
    (h : (charLiteral u).toList ++ r = (charLiteral v).toList ++ r') : u = v ∧ r = r' := by
  have hmark (n : Nat) : '\'' ∉ (hex n).toList :=
    fun hmem ↦ hexValue?_ne_none_of_hexNumber? (hexNumber?_hex n) _ hmem rfl
  rw [toList_charLiteral, toList_charLiteral, List.append_assoc, List.append_assoc,
    List.append_assoc, List.append_assoc] at h
  obtain ⟨hdigits, hrest⟩ := append_cons_inj (hmark _) (hmark _) (List.append_cancel_left h)
  exact ⟨UInt16.toNat_inj.1 (hex_injective (String.toList_injective hdigits)), hrest⟩

theorem not_mem_newlines_of_mem_escapeChar (c : Char) : ∀ d ∈ escapeChar c, d ∉ newlines := by
  unfold escapeChar
  split
  case h_13 hsingle hdouble htab hfeed hreturn hpage hback hslash hnull hnext hline hparagraph =>
    exact List.forall_mem_singleton.2 (not_mem_newlines hfeed hreturn hnext hline hparagraph)
  all_goals simp [newlines]

/-- A literal means the string that it is made from, and nothing in the string ends the literal or
the line that it stands on. -/
theorem quote_readable :
    (∀ s t : String, stringLiteral? (quote s ++ t).toList = some (utf16 s.toList, t.toList)) ∧
      Function.Injective escape ∧ ∀ s : String, ∀ c ∈ (escape s).toList, c ∉ newlines := by
  refine ⟨fun s t ↦ ?_, escape_injective, fun s c hc ↦ ?_⟩
  · rw [String.toList_append]
    exact stringLiteral?_quote s t.toList
  · rw [toList_escape] at hc
    obtain ⟨d, -, hd⟩ := List.mem_flatMap.1 hc
    exact not_mem_newlines_of_mem_escapeChar d c hd

example : stringLiteral? ((quote "\x001\\\"\n").toList ++ ['"']) =
    some ([0x00, 0x31, 0x5C, 0x22, 0x0A], ['"']) := by
  cbv

end Quoted

end MetadataDump.Text
