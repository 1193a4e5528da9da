import MetadataDump.Json.Printer
import MetadataDump.Json.Token
import MetadataDump.Proofs.Json.Numerals
import MetadataDump.Proofs.Text.Hex

namespace MetadataDump.Json

section Strings

/-- The pieces that a written character may be read as. -/
inductive Spelled (c : Char) : Piece → Prop
  | plain : needsEscape c = false → Spelled c (.plain c)
  | escape : needsEscape c = true → Spelled c (.escape c)
  | unit : c < ' ' → Spelled c (.unit c.toNat)

theorem hexUnit?_fixedHex {n : Nat} (h : n < 0x10000) :
    ∃ a b c d, Text.fixedHex 4 n = [a, b, c, d] ∧ hexUnit? a b c d = some n := by
  refine ⟨_, _, _, _, rfl, ?_⟩
  have hdigit : ∀ k, Text.hexValue? (k % 16).digitChar = some (k % 16) :=
    fun k ↦ Text.hexValue?_digitChar ⟨k % 16, Nat.mod_lt k (by decide)⟩
  unfold hexUnit?
  simp only [hdigit, Option.bind_eq_bind, Option.bind_some, Option.pure_def, Option.some_inj]
  omega

theorem scanString_escapeChar (c : Char) : ∃ p, Spelled c p ∧ ∀ done rest,
    scanString done (escapeChar c ++ rest) = scanString (p :: done) rest := by
  unfold escapeChar
  split
  case h_8 hquote hslash _ _ _ _ _ =>
    by_cases hc : c < ' '
    · have hlt : c.toNat < 0x10000 := Nat.lt_trans (Char.lt_def.1 hc) (by decide)
      obtain ⟨x, y, z, w, hhex, hunit⟩ := hexUnit?_fixedHex hlt
      refine ⟨.unit c.toNat, .unit hc, fun done rest ↦ ?_⟩
      rw [if_pos hc, hhex]
      simp only [List.cons_append, List.nil_append, scanString, hunit]
    · have hplain : needsEscape c = false := by
        simpa [needsEscape, hc] using ⟨hquote, hslash⟩
      refine ⟨.plain c, .plain hplain, fun done rest ↦ ?_⟩
      rw [if_neg hc, List.cons_append, List.nil_append, scanString.eq_def]
      split <;> simp_all
  all_goals exact ⟨.escape _, .escape (by decide), fun _ _ ↦ rfl⟩

theorem scanString_flatMap (cs : List Char) : ∃ ps, List.Forall₂ Spelled cs ps ∧ ∀ done rest,
    scanString done (cs.flatMap escapeChar ++ '"' :: rest) = some (ps.reverse ++ done, rest) := by
  induction cs with
  | nil => exact ⟨[], .nil, fun _ _ ↦ rfl⟩
  | cons c cs ih =>
    obtain ⟨p, hp, hc⟩ := scanString_escapeChar c
    obtain ⟨ps, hps, hcs⟩ := ih
    refine ⟨p :: ps, .cons hp hps, fun done rest ↦ ?_⟩
    rw [List.flatMap_cons, List.append_assoc, hc, hcs, List.reverse_cons, List.append_assoc]
    rfl

theorem toNat_lt_of_lt_blank {c : Char} (h : c < ' ') : c.toNat < 0x20 := Char.lt_def.1 h

/-- Control characters are no halves of surrogate pairs, so they stand for themselves whatever comes
next. -/
theorem joinPieces_unit {c : Char} (h : c < ' ') (ps : List Piece) :
    joinPieces (.unit c.toNat :: ps) = (c :: ·) <$> joinPieces ps := by
  have hlt := toNat_lt_of_lt_blank h
  have hlow : ¬ (0xD800 ≤ c.toNat ∧ c.toNat < 0xDC00) := by omega
  have hhigh : ¬ (0xDC00 ≤ c.toNat ∧ c.toNat < 0xE000) := by omega
  have hany : ¬ (0xD800 ≤ c.toNat ∧ c.toNat < 0xE000) := by omega
  cases ps with
  | nil => simp only [joinPieces, hany, if_false, Char.ofNat_toNat]
  | cons p ps =>
    cases p with
    | unit low => simp only [joinPieces, hlow, hhigh, if_false, Char.ofNat_toNat]
    | plain d => simp only [joinPieces, hany, if_false, Char.ofNat_toNat]
    | escape d => simp only [joinPieces, hany, if_false, Char.ofNat_toNat]

theorem joinPieces_of_spelled {cs : List Char} {ps : List Piece} (h : List.Forall₂ Spelled cs ps) :
    joinPieces ps = some cs := by
  induction h with
  | nil => rfl
  | @cons c p cs ps hp hps ih =>
    cases hp with
    | plain hc => simp [joinPieces, ih]
    | escape hc => simp [joinPieces, ih]
    | unit hc => rw [joinPieces_unit hc, ih]; rfl

theorem all_isPlain_of_spelled {cs : List Char} {ps : List Piece}
    (h : List.Forall₂ Spelled cs ps) : ps.all Piece.isPlain = !cs.any needsEscape := by
  induction h with
  | nil => rfl
  | @cons c p cs ps hp hps ih =>
    rw [List.all_cons, List.any_cons, ih]
    cases hp with
    | plain hc => simp [Piece.isPlain, hc]
    | escape hc => simp [Piece.isPlain, hc]
    | unit hc => simp [Piece.isPlain, needsEscape, hc]

def stringToken (pieces : List Piece) : Token :=
  .string ((String.ofList <$> joinPieces pieces.reverse).map (⟨·, !pieces.all Piece.isPlain⟩))

theorem scanToken_of_scanString {cs rest : List Char} {pieces : List Piece}
    (h : scanString [] cs = some (pieces, rest)) :
    scanToken ('"' :: cs) = some (stringToken pieces, rest) := by
  show (scanString [] cs).bind (fun found ↦ some (stringToken found.1, found.2)) = _
  rw [h]
  rfl

theorem scanToken_quote (s : String) (rest : List Char) :
    scanToken (quote s ++ rest) = some (.string (some (.ofString s)), rest) := by
  obtain ⟨ps, hps, hscan⟩ := scanString_flatMap s.toList
  have hpieces := hscan [] rest
  rw [List.append_nil] at hpieces
  unfold quote
  rw [List.append_assoc, List.cons_append, List.cons_append, List.nil_append,
    scanToken_of_scanString hpieces]
  simp [stringToken, joinPieces_of_spelled hps, all_isPlain_of_spelled hps, Name.ofString]

theorem scanToken_unreadableText (rest : List Char) :
    scanToken (unreadableText ++ rest) = some (.string none, rest) := by
  have hunit : hexUnit? 'd' '8' '0' '0' = some 0xD800 := by decide
  have hscan : scanString [] ('\\' :: 'u' :: 'd' :: '8' :: '0' :: '0' :: '"' :: rest) =
      some ([.unit 0xD800], rest) := by
    simp only [scanString, hunit]
  have hjoin : joinPieces [.unit 0xD800] = none := by simp [joinPieces]
  refine (scanToken_of_scanString hscan).trans ?_
  simp [stringToken, hjoin]

end Strings

section Splitting

open Numeral (Ends)

variable {cs rest : List Char} {t : Token} {ts : List Token}

/-- A text splits into tokens, however many further steps could be made. -/
def Splits (cs : List Char) (ts : List Token) : Prop :=
  ∀ steps done, cs.length ≤ steps → scanTokens steps done cs = some (done.reverse ++ ts)

theorem Splits.tokens? (h : Splits cs ts) : tokens? cs = some ts := h cs.length [] le_rfl

theorem splits_nil : Splits [] [] := by
  intro steps done _
  rw [List.append_nil]
  cases steps <;> rfl

theorem Splits.blank {c : Char} (h : Splits cs ts) (hc : isBlank c = true) :
    Splits (c :: cs) ts := by
  intro steps done hsteps
  cases steps with
  | zero => cases hsteps
  | succ steps =>
    rw [scanTokens, if_pos hc]
    exact h steps done (Nat.le_of_succ_le_succ hsteps)

theorem Splits.blanks {bs : List Char} (h : Splits cs ts) (hbs : ∀ c ∈ bs, isBlank c = true) :
    Splits (bs ++ cs) ts := by
  induction bs with
  | nil => exact h
  | cons c bs ih =>
    obtain ⟨hc, hbs⟩ := List.forall_mem_cons.1 hbs
    exact (ih hbs).blank hc

theorem Splits.token {c : Char} (h : Splits rest ts) (cs : List Char) (hblank : isBlank c = false)
    (htoken : scanToken (c :: (cs ++ rest)) = some (t, rest)) :
    Splits (c :: (cs ++ rest)) (t :: ts) := by
  intro steps done hsteps
  cases steps with
  | zero => cases hsteps
  | succ steps =>
    have hlength : rest.length ≤ steps := by
      rw [List.length_cons, List.length_append] at hsteps
      omega
    rw [scanTokens, if_neg (by simp [hblank]), htoken]
    exact (h steps (t :: done) hlength).trans (by simp)

inductive IsMark : Char → Token → Prop
  | openObject : IsMark '{' .openObject
  | closeObject : IsMark '}' .closeObject
  | openArray : IsMark '[' .openArray
  | closeArray : IsMark ']' .closeArray
  | comma : IsMark ',' .comma
  | colon : IsMark ':' .colon

theorem Splits.mark {c : Char} (h : Splits rest ts) (hc : IsMark c t) :
    Splits (c :: rest) (t :: ts) := by
  cases hc <;> exact h.token [] rfl rfl

theorem ends_of_isMark {c : Char} (hc : IsMark c t) : Ends (c :: rest) := by
  cases hc <;> exact Numeral.ends_cons (by decide) (by decide)

theorem splits_null (h : Splits rest ts) : Splits ("null".toList ++ rest) (.null :: ts) :=
  h.token ['u', 'l', 'l'] rfl rfl

theorem splits_true (h : Splits rest ts) : Splits ("true".toList ++ rest) (.bool true :: ts) :=
  h.token ['r', 'u', 'e'] rfl rfl

theorem splits_false (h : Splits rest ts) : Splits ("false".toList ++ rest) (.bool false :: ts) :=
  h.token ['a', 'l', 's', 'e'] rfl rfl

theorem splits_quote (h : Splits rest ts) (s : String) :
    Splits (quote s ++ rest) (.string (some (.ofString s)) :: ts) := by
  have htoken := scanToken_quote s rest
  unfold Json.quote at htoken ⊢
  exact h.token _ rfl htoken

theorem splits_unreadable (h : Splits rest ts) :
    Splits (unreadableText ++ rest) (.string none :: ts) :=
  h.token unreadableText.tail rfl (scanToken_unreadableText rest)

/-- Numerals start with a digit or a sign, as no other token does. -/
theorem scanToken_eq_scan {c : Char} (hc : c = '-' ∨ ∃ d, c = Numeral.digitChar d)
    (cs : List Char) : scanToken (c :: cs) = (Numeral.scan (c :: cs)).map fun (n, rest) ↦
      (.number n, rest) := by
  have hdigit : ∀ d, Numeral.digitChar d ∉ ['{', '}', '[', ']', ',', ':', 'n', 't', 'f', '"'] := by
    decide
  have hmark : c ∉ ['{', '}', '[', ']', ',', ':', 'n', 't', 'f', '"'] := by
    rcases hc with rfl | ⟨d, rfl⟩
    · decide
    · exact hdigit d
  have hscan : ∀ x : Option (Numeral × List Char), (do
      let (n, rest) ← x
      return (Token.number n, rest)) = x.map fun (n, rest) ↦ (Token.number n, rest) := by
    intro x
    cases x <;> rfl
  unfold scanToken
  split
  case h_11 => exact hscan _
  all_goals
    rename_i heq
    obtain ⟨rfl, -⟩ := List.cons.inj heq
    exact absurd hmark (by decide)

theorem exists_chars_eq (n : Numeral) :
    ∃ c cs, n.chars = c :: cs ∧ (c = '-' ∨ ∃ d, c = Numeral.digitChar d) := by
  obtain ⟨d, ds, hds⟩ := Numeral.exists_toDigits_eq n.whole
  rw [Numeral.chars_eq, hds]
  cases n.negative with
  | true => exact ⟨_, _, rfl, .inl rfl⟩
  | false => exact ⟨_, _, rfl, .inr ⟨d, rfl⟩⟩

theorem splits_number (h : Splits rest ts) (hrest : Ends rest) (n : Numeral) :
    Splits (n.chars ++ rest) (.number n :: ts) := by
  have hscan := Numeral.scan_chars n hrest
  obtain ⟨c, cs, hcs, hc⟩ := exists_chars_eq n
  have hdigit : ∀ d, isBlank (Numeral.digitChar d) = false := by decide
  have hblank : isBlank c = false := by
    rcases hc with rfl | ⟨d, rfl⟩
    · rfl
    · exact hdigit d
  rw [hcs] at hscan ⊢
  refine h.token _ hblank ?_
  have htoken := scanToken_eq_scan hc (cs ++ rest)
  rw [List.cons_append] at hscan
  rw [htoken, hscan]
  rfl

end Splitting

end MetadataDump.Json
