import Mathlib
import MetadataDump.Json.Numeral

namespace MetadataDump.Numeral

/-- Text that does not go on with a numeral in front of it. -/
def Ends (rest : List Char) : Prop :=
  ∀ c ∈ rest.head?, digit? c = none ∧ c ≠ '.' ∧ c ≠ 'e' ∧ c ≠ 'E'

theorem ends_nil : Ends [] := by
  intro c hc
  cases hc

theorem ends_cons {c : Char} {rest : List Char} (hdigit : digit? c = none)
    (hc : c ≠ '.' ∧ c ≠ 'e' ∧ c ≠ 'E') : Ends (c :: rest) := by
  intro d hd
  obtain rfl := Option.some.inj hd
  exact ⟨hdigit, hc⟩

theorem digit?_digitChar (d : Fin 10) : digit? (digitChar d) = some d := by
  revert d
  decide

theorem digits_append (ds : List (Fin 10)) {rest : List Char}
    (h : ∀ c ∈ rest.head?, digit? c = none) : digits (ds.map digitChar ++ rest) = (ds, rest) := by
  induction ds with
  | nil =>
    cases rest with
    | nil => rfl
    | cons c rest =>
      have hc := h c rfl
      simp only [List.map_nil, List.nil_append, digits, hc]
  | cons d ds ih => simp only [List.map_cons, List.cons_append, digits, digit?_digitChar, ih]

theorem value_concat (ds : List (Fin 10)) (d : Fin 10) :
    value (ds ++ [d]) = 10 * value ds + d.val := by
  rw [value, List.foldl_append]
  rfl

theorem exists_digits (n : Nat) : ∃ ds : List (Fin 10), Nat.toDigits 10 n = ds.map digitChar ∧
    value ds = n ∧ ds ≠ [] ∧ (ds.head? = some 0 → n = 0) := by
  induction n using Nat.strongRecOn with
  | ind n ih =>
    by_cases hn : n < 10
    · refine ⟨[⟨n, hn⟩], Nat.toDigits_of_lt_base hn, ?_, by simp, ?_⟩
      · exact Nat.zero_add n
      · intro h
        exact congrArg Fin.val (Option.some.inj h)
    · obtain ⟨ds, hds, hvalue, hne, hhead⟩ := ih (n / 10) (by omega)
      have hlast : n % 10 < 10 := Nat.mod_lt n (by decide)
      refine ⟨ds ++ [⟨n % 10, hlast⟩], ?_, ?_, by simp, ?_⟩
      · rw [Nat.toDigits_of_base_le (by decide) (Nat.not_lt.1 hn), hds, List.map_append]
        rfl
      · rw [value_concat, hvalue]
        exact Nat.div_add_mod n 10
      · intro h
        rw [List.head?_append_of_ne_nil ds hne] at h
        have hzero := hhead h
        omega

theorem scanWhole_toDigits (n : Nat) {rest : List Char} (h : ∀ c ∈ rest.head?, digit? c = none) :
    scanWhole (Nat.toDigits 10 n ++ rest) = some (n, rest) := by
  obtain ⟨ds, hds, rfl, hne, hhead⟩ := exists_digits n
  unfold scanWhole
  rw [hds, digits_append ds h]
  cases ds with
  | nil => exact absurd rfl hne
  | cons d ds =>
    by_cases hd : d = 0
    · subst hd
      have hzero := hhead rfl
      rw [hzero, Nat.toDigits_zero] at hds
      obtain rfl : ds = [] := by simpa using (congrArg List.length hds).symm
      rfl
    · split
      · rename_i heq
        cases heq
      · rename_i heq
        cases heq
        exact absurd rfl hd
      · rename_i heq
        cases heq
        rfl

theorem ends_digit {rest : List Char} (h : Ends rest) : ∀ c ∈ rest.head?, digit? c = none :=
  fun c hc ↦ (h c hc).1

def fractionChars (ds : List (Fin 10)) : List Char :=
  if ds.isEmpty then [] else '.' :: ds.map digitChar

theorem scanFraction_fractionChars (ds : List (Fin 10)) {rest : List Char}
    (h : ∀ c ∈ rest.head?, digit? c = none ∧ c ≠ '.') :
    scanFraction (fractionChars ds ++ rest) = some (ds, rest) := by
  cases ds with
  | nil =>
    show scanFraction rest = some ([], rest)
    unfold scanFraction
    split
    · exact absurd rfl (h _ rfl).2
    · rfl
  | cons d ds =>
    have hdigits := digits_append (d :: ds) fun c hc ↦ (h c hc).1
    show scanFraction ('.' :: ((d :: ds).map digitChar ++ rest)) = some (d :: ds, rest)
    rw [scanFraction, hdigits]

theorem scanPower_toDigits (negative : Bool) (n : Nat) {rest : List Char} (h : Ends rest) :
    scanPower negative (Nat.toDigits 10 n ++ rest) =
      some (some (if negative then -(n : Int) else n), rest) := by
  obtain ⟨ds, hds, rfl, hne, -⟩ := exists_digits n
  unfold scanPower
  rw [hds, digits_append ds (ends_digit h)]
  cases ds with
  | nil => exact absurd rfl hne
  | cons d ds => rfl

def exponentChars : Option Int → List Char
  | none => []
  | some e => 'e' :: (if e < 0 then '-' else '+') :: Nat.toDigits 10 e.natAbs

theorem scanExponent_exponentChars (exponent : Option Int) {rest : List Char} (h : Ends rest) :
    scanExponent (exponentChars exponent ++ rest) = some (exponent, rest) := by
  cases exponent with
  | none =>
    rw [exponentChars, List.nil_append]
    unfold scanExponent
    split
    · exact absurd rfl (h _ rfl).2.2.1
    · exact absurd rfl (h _ rfl).2.2.2
    · rfl
  | some e =>
    by_cases he : e < 0
    · have hscan := scanPower_toDigits true e.natAbs h
      have habs : -(e.natAbs : Int) = e := by omega
      rw [if_pos rfl, habs] at hscan
      rw [exponentChars, if_pos he]
      exact hscan
    · have hscan := scanPower_toDigits false e.natAbs h
      have habs : (e.natAbs : Int) = e := by omega
      rw [if_neg Bool.false_ne_true, habs] at hscan
      rw [exponentChars, if_neg he]
      exact hscan

theorem chars_eq (n : Numeral) : n.chars = (if n.negative then ['-'] else []) ++
    (Nat.toDigits 10 n.whole ++ (fractionChars n.fraction ++ exponentChars n.exponent)) := by
  unfold chars fractionChars
  cases n.exponent <;> simp [exponentChars, List.append_assoc]

theorem head?_exponentChars_append (exponent : Option Int) {rest : List Char} (h : Ends rest) :
    ∀ c ∈ (exponentChars exponent ++ rest).head?, digit? c = none ∧ c ≠ '.' := by
  intro c hc
  cases exponent with
  | none => exact ⟨(h c hc).1, (h c hc).2.1⟩
  | some e =>
    obtain rfl := Option.some.inj hc
    decide

theorem head?_fractionChars_append (ds : List (Fin 10)) {rest : List Char}
    (h : ∀ c ∈ rest.head?, digit? c = none) :
    ∀ c ∈ (fractionChars ds ++ rest).head?, digit? c = none := by
  intro c hc
  cases ds with
  | nil => exact h c hc
  | cons d ds =>
    obtain rfl := Option.some.inj hc
    decide

theorem exists_toDigits_eq (n : Nat) :
    ∃ (d : Fin 10) (cs : List Char), Nat.toDigits 10 n = digitChar d :: cs := by
  obtain ⟨ds, hds, -, hne, -⟩ := exists_digits n
  cases ds with
  | nil => exact absurd rfl hne
  | cons d ds => exact ⟨d, ds.map digitChar, hds⟩

theorem digitChar_ne_minus (d : Fin 10) : digitChar d ≠ '-' := by
  revert d
  decide

def scanUnsigned (negative : Bool) (cs : List Char) : Option (Numeral × List Char) := do
  let (whole, cs) ← scanWhole cs
  let (fraction, cs) ← scanFraction cs
  let (exponent, cs) ← scanExponent cs
  return (⟨negative, whole, fraction, exponent⟩, cs)

theorem scan_minus (cs : List Char) : scan ('-' :: cs) = scanUnsigned true cs := rfl

theorem scan_of_ne_minus {c : Char} (h : c ≠ '-') (cs : List Char) :
    scan (c :: cs) = scanUnsigned false (c :: cs) := by
  unfold scan
  split
  · rename_i heq
    split at heq
    · rename_i hcons
      exact absurd (List.cons.inj hcons).1 h
    · obtain ⟨rfl, rfl⟩ := Prod.mk.inj heq
      rfl

theorem scanUnsigned_chars (n : Numeral) {rest : List Char} (h : Ends rest) :
    scanUnsigned n.negative (Nat.toDigits 10 n.whole ++
      (fractionChars n.fraction ++ (exponentChars n.exponent ++ rest))) = some (n, rest) := by
  have hexponent := scanExponent_exponentChars n.exponent h
  have hhead := head?_exponentChars_append n.exponent h
  have hfraction := scanFraction_fractionChars n.fraction hhead
  have hwhole := scanWhole_toDigits n.whole
    (head?_fractionChars_append n.fraction fun c hc ↦ (hhead c hc).1)
  unfold scanUnsigned
  simp only [hwhole, hfraction, hexponent, Option.bind_eq_bind, Option.bind_some, Option.pure_def]

/-- A numeral is read as it is written, up to where it ends. -/
theorem scan_chars (n : Numeral) {rest : List Char} (h : Ends rest) :
    scan (n.chars ++ rest) = some (n, rest) := by
  have hunsigned := scanUnsigned_chars n h
  rw [chars_eq, List.append_assoc, List.append_assoc, List.append_assoc]
  cases hn : n.negative with
  | true =>
    rw [hn] at hunsigned
    exact (scan_minus _).trans hunsigned
  | false =>
    obtain ⟨d, ds, hds⟩ := exists_toDigits_eq n.whole
    rw [hn, hds] at hunsigned
    rw [hds]
    exact (scan_of_ne_minus (digitChar_ne_minus d) _).trans hunsigned

theorem ofString?_chars (n : Numeral) : ofString? (String.ofList n.chars) = some n := by
  have hscan := scan_chars n ends_nil
  rw [List.append_nil] at hscan
  unfold ofString?
  rw [String.toList_ofList, hscan]

end MetadataDump.Numeral
