import Mathlib
import MetadataDump.Literal

namespace MetadataDump

theorem not_mem_toDigits {c : Char} (hc : c.isDigit = false) (n : Nat) :
    c ∉ Nat.toDigits 10 n := by
  intro h
  have hdigit := Nat.isDigit_of_mem_toDigits (by decide) (by decide) h
  rw [hc] at hdigit
  cases hdigit

namespace Decimal.Layout

def signs : List Char := "-.NaNinf".toList

variable {c : Char} (hdigit : c.isDigit = false)

include hdigit

theorem not_mem_zeros (n : Nat) : c ∉ (zeros n).toList := by
  have hzero : c ≠ '0' := by
    rintro rfl
    exact absurd hdigit (by decide)
  simp [zeros, hzero]

theorem not_mem_point (hc : c ≠ '.') (l : Layout) {digits : List Char} (h : c ∉ digits)
    (place : Int) : c ∉ (l.point digits place).toList := by
  have htake : c ∉ digits.take place.toNat := mt List.mem_of_mem_take h
  have hdrop : c ∉ digits.drop place.toNat := mt List.mem_of_mem_drop h
  have hzeros := not_mem_zeros hdigit
  have hzero : c ≠ '0' := by
    rintro rfl
    exact absurd hdigit (by decide)
  unfold point
  split
  · cases l.pointAlways <;> simp [h, hzeros, hc, hzero]
  · split
    · simp [htake, hdrop, hc]
    · simp [h, hzeros, hc, hzero]

theorem not_mem_plain (hc : c ∉ signs) (f : BinaryFormat) (bits : Nat) :
    c ∉ (plain.text f bits).toList := by
  have hplain : ∀ s, plain.scientific s =
      plain.point (Nat.toDigits 10 s.digits) (s.scale + (Nat.toDigits 10 s.digits).length) :=
    fun s ↦ rfl
  have hsub (text : String) (hsubset : text.toList ⊆ signs) : c ∉ text.toList :=
    fun h ↦ hc (hsubset h)
  have hpoint : c ≠ '.' := by simpa using hsub "." (by decide)
  have hminus : c ≠ '-' := by simpa using hsub "-" (by decide)
  unfold text
  cases f.decode bits with
  | nan => exact hsub _ (by decide)
  | infinite negative => cases negative <;> exact hsub _ (by decide)
  | finite negative mantissa scale narrowBelow =>
    have hzero := not_mem_point hdigit hpoint plain (not_mem_toDigits hdigit 0) 1
    have hdigits := fun s : Scientific ↦ not_mem_point hdigit hpoint plain
      (not_mem_toDigits hdigit s.digits) (s.scale + (Nat.toDigits 10 s.digits).length)
    have hsign : Nat.toDigits 10 0 = ['0'] := rfl
    rw [hsign] at hzero
    cases negative <;> by_cases hm : mantissa = 0 <;> simp [hm, hplain, hzero, hdigits, hminus]

end Decimal.Layout

namespace Literal

def IsClear : Literal → Prop
  | .value text => text.toList.head? ≠ some '/'
  | .unresolved _ => True

theorem isClear_of_slash_not_mem {text : String} (h : '/' ∉ text.toList) : (value text).IsClear :=
  fun hhead ↦ h (List.mem_of_head? hhead)

theorem head?_unresolvedText (offset : UInt32) :
    (unresolvedText offset).toList.head? = some '/' := by
  unfold unresolvedText
  generalize Text.upperHex offset.toNat = digits
  rw [String.toList_append, String.toList_append]
  rfl

theorem suffix_eq_of_text_eq {a b : Literal} (ha : a.IsClear) (hb : b.IsClear)
    (h : a.text = b.text) : a.suffix = b.suffix := by
  cases a with
  | value s =>
    cases b with
    | value t => exact congrArg (" = " ++ ·) h
    | unresolved j =>
      have hs : s = unresolvedText j := h
      exact absurd (head?_unresolvedText j) (hs ▸ ha)
  | unresolved i =>
    cases b with
    | value t =>
      have ht : t = unresolvedText i := h.symm
      exact absurd (head?_unresolvedText i) (ht ▸ hb)
    | unresolved j => exact congrArg (" " ++ ·) h

end Literal

theorem DefaultValue.isClear_literal (v : DefaultValue) : v.literal.IsClear := by
  cases v with
  | string s => simp [literal, Literal.IsClear, Text.Quoted.quote]
  | char unit => simp [literal, Literal.IsClear, Text.Quoted.charLiteral]
  | bool b => cases b <;> simp [literal, Literal.IsClear]
  | int n =>
    refine Literal.isClear_of_slash_not_mem ?_
    rw [Int.toString_eq_repr, Int.repr_eq_if]
    split <;> simp [not_mem_toDigits]
  | uint n =>
    refine Literal.isClear_of_slash_not_mem ?_
    rw [Nat.toString_eq_repr, Nat.toList_repr]
    exact not_mem_toDigits (by decide) _
  | float bits =>
    exact Literal.isClear_of_slash_not_mem
      (Decimal.Layout.not_mem_plain (by decide) (by decide) _ _)
  | null => simp [literal, Literal.IsClear]
  | unresolved offset => trivial

end MetadataDump
