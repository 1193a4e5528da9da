import Mathlib
import MetadataDump.Json.Numeral

namespace MetadataDump

def Numeral.toRat (n : Numeral) : Rat :=
  (if n.negative then -1 else 1) *
    (n.whole * 10 ^ n.fraction.length + value n.fraction : Nat) *
      10 ^ (n.exponent.getD 0 - n.fraction.length)

namespace Json

/-- Two texts that are not readable stand for no value and count as equal. -/
inductive Same : Json → Json → Prop
  | null : Same .null .null
  | bool (b : Bool) : Same (.bool b) (.bool b)
  | number {n k : Numeral} : n.toRat = k.toRat → Same (.number n) (.number k)
  | string (s : String) : Same (.string s) (.string s)
  | unreadable : Same .unreadable .unreadable
  | array {as bs : List Json} : List.Forall₂ Same as bs → Same (.array as) (.array bs)
  | object {as bs : List (Name × Json)} :
      (∀ name, Option.Rel Same (get? name (.object as)) (get? name (.object bs))) →
      Same (.object as) (.object bs)

theorem sizeOf_lt_of_get? {members : List (Name × Json)} {name : String} {a : Json}
    (h : get? name (.object members) = some a) : sizeOf a < sizeOf members := by
  obtain ⟨member, hfind, rfl⟩ := Option.map_eq_some_iff.1 h
  have hmem := List.sizeOf_lt_of_mem (List.mem_of_find?_eq_some hfind)
  have hsnd : sizeOf member.2 < sizeOf member := by
    cases member
    simp only [Prod.mk.sizeOf_spec]
    omega
  omega

theorem Same.refl : ∀ a : Json, Same a a
  | .null => .null
  | .bool b => .bool b
  | .number _ => .number rfl
  | .string s => .string s
  | .unreadable => .unreadable
  | .array items => .array (List.forall₂_same.2 fun a _ ↦ Same.refl a)
  | .object members => by
    refine .object fun name ↦ ?_
    cases hget : get? name (.object members) with
    | none => exact .none
    | some a =>
      have hlt := sizeOf_lt_of_get? hget
      exact .some (Same.refl a)
termination_by a => sizeOf a
decreasing_by
  · decreasing_tactic
  · simp only [object.sizeOf_spec]
    omega

theorem Same.get? {a b : Json} (h : Same a b) (name : String) :
    Option.Rel Same (a.get? name) (b.get? name) := by
  cases h with
  | object h => exact h name
  | _ => exact .none

theorem Same.member {a b x y : Json} (h : Same a b) (name : String) (hx : a.get? name = some x)
    (hy : b.get? name = some y) : Same x y := by
  have hrel := h.get? name
  rw [hx, hy] at hrel
  cases hrel with
  | some hxy => exact hxy

theorem Same.string_eq {s t : String} (h : Same (.string s) (.string t)) : s = t := by
  cases h
  rfl

theorem Same.bool_eq {b c : Bool} (h : Same (.bool b) (.bool c)) : b = c := by
  cases h
  rfl

theorem toRat_whole (negative : Bool) (n : Nat) :
    Numeral.toRat ⟨negative, n, [], none⟩ = (if negative then -1 else 1) * (n : Rat) := by
  have hvalue : Numeral.value [] = 0 := rfl
  simp [Numeral.toRat, hvalue]

theorem toRat_ofInt (n : Int) : Numeral.toRat ⟨n < 0, n.natAbs, [], none⟩ = n := by
  have hcast : (n.natAbs : Rat) = ((n.natAbs : Int) : Rat) := (Rat.intCast_natCast n.natAbs).symm
  rw [toRat_whole, hcast]
  by_cases h : n < 0
  · have habs : (n.natAbs : Int) = -n := by omega
    rw [habs, Rat.intCast_neg, if_pos (decide_eq_true h), Rat.neg_mul, Rat.one_mul, Rat.neg_neg]
  · have habs : (n.natAbs : Int) = n := by omega
    rw [habs, if_neg (by simpa using h), Rat.one_mul]

theorem Same.ofInt_eq {n k : Int} (h : Same (.ofInt n) (.ofInt k)) : n = k := by
  cases h with
  | number h =>
    rw [toRat_ofInt, toRat_ofInt] at h
    exact Rat.intCast_inj.1 h

theorem Same.ofNat_eq {n k : Nat} (h : Same (.ofNat n) (.ofNat k)) : n = k :=
  Int.ofNat_inj.1 (Same.ofInt_eq h)

theorem Same.forall₂_of_array {α β : Type} {f : α → Json} {g : β → Json} {as : List α} {bs : List β}
    (h : Same (.array (as.map f)) (.array (bs.map g))) :
    List.Forall₂ (fun a b ↦ Same (f a) (g b)) as bs := by
  cases h with
  | array h => simpa only [List.forall₂_map_left_iff, List.forall₂_map_right_iff] using h

theorem Same.strings_eq {ss ts : List String} (h : Same (.strings ss) (.strings ts)) : ss = ts := by
  have hall := h.forall₂_of_array.imp fun _ _ ↦ Same.string_eq
  exact List.forall₂_eq_eq_eq ▸ hall

end Json

end MetadataDump
