import Mathlib
import MetadataDump.Text.Hex

namespace MetadataDump.Text

def hexNumber? (s : String) : Option Nat :=
  s.toList.foldlM (fun n c ↦ (hexValue? c).map (16 * n + ·)) 0

theorem hexValue?_digitChar (d : Fin 16) : hexValue? d.val.digitChar = some d.val := by
  revert d
  decide

theorem hexValue?_toUpper_digitChar (d : Fin 16) :
    hexValue? d.val.digitChar.toUpper = some d.val := by
  revert d
  decide

theorem hexNumber?_ofList_map {f : Char → Char}
    (hf : ∀ d : Fin 16, hexValue? (f d.val.digitChar) = some d.val) (n : Nat) :
    hexNumber? (String.ofList ((Nat.toDigits 16 n).map f)) = some n := by
  rw [hexNumber?, String.toList_ofList]
  induction n using Nat.strongRecOn with
  | ind n ih =>
    by_cases hn : n < 16
    · have hdigit := hf ⟨n, hn⟩
      rw [Nat.toDigits_of_lt_base hn]
      simpa using hdigit
    · have hdigit := hf ⟨n % 16, Nat.mod_lt n (by decide)⟩
      rw [Nat.toDigits_of_base_le (by decide) (Nat.not_lt.1 hn), List.map_append,
        List.foldlM_append, ih (n / 16) (by omega)]
      simp only [List.map_cons, List.map_nil, List.foldlM_cons, List.foldlM_nil, hdigit,
        Option.bind_eq_bind, Option.bind_some, Option.map_some, Option.pure_def]
      rw [Nat.div_add_mod]

theorem hexNumber?_hex (n : Nat) : hexNumber? (hex n) = some n := by
  have h := hexNumber?_ofList_map (f := id) hexValue?_digitChar n
  rwa [List.map_id] at h

theorem hexNumber?_upperHex (n : Nat) : hexNumber? (upperHex n) = some n :=
  hexNumber?_ofList_map hexValue?_toUpper_digitChar n

theorem hexValue?_ne_none_of_hexNumber? {s : String} {n : Nat} (h : hexNumber? s = some n) :
    ∀ c ∈ s.toList, hexValue? c ≠ none := by
  have hfold : ∀ (cs : List Char) (m : Nat),
      cs.foldlM (fun n c ↦ (hexValue? c).map (16 * n + ·)) m = some n →
        ∀ c ∈ cs, hexValue? c ≠ none := by
    intro cs
    induction cs with
    | nil => exact fun _ _ ↦ List.forall_mem_nil _
    | cons c cs ih =>
      intro m hm
      rw [List.foldlM_cons] at hm
      cases hc : hexValue? c with
      | none =>
        rw [hc] at hm
        cases hm
      | some d =>
        rw [hc] at hm
        exact List.forall_mem_cons.2 ⟨by simp [hc], ih _ hm⟩
  exact hfold s.toList 0 h

theorem injective_of_hexNumber? {spell : Nat → String}
    (h : ∀ n, hexNumber? (spell n) = some n) : Function.Injective spell := by
  intro m n he
  have hm := h m
  rw [he, h n] at hm
  exact (Option.some.inj hm).symm

theorem hex_injective : Function.Injective hex := injective_of_hexNumber? hexNumber?_hex

theorem upperHex_injective : Function.Injective upperHex :=
  injective_of_hexNumber? hexNumber?_upperHex

end MetadataDump.Text
