import Mathlib

namespace MetadataDump.Text

def Stops (p : Char → Bool) (rest : List Char) : Prop := ∀ c ∈ rest.head?, p c = false

theorem stops_nil (p : Char → Bool) : Stops p [] := by
  intro c hc
  cases hc

theorem takeWhile_append_of_stops {p : Char → Bool} {cs rest : List Char} (hcs : ∀ c ∈ cs, p c)
    (h : Stops p rest) : (cs ++ rest).takeWhile p = cs := by
  rw [List.takeWhile_append_of_pos hcs]
  cases rest with
  | nil => simp
  | cons c rest => simp [h c rfl]

theorem append_inj_of_stops {p : Char → Bool} {cs ds r s : List Char} (hcs : ∀ c ∈ cs, p c)
    (hds : ∀ c ∈ ds, p c) (hr : Stops p r) (hs : Stops p s) (h : cs ++ r = ds ++ s) :
    cs = ds ∧ r = s := by
  have hstart := congrArg (List.takeWhile p) h
  rw [takeWhile_append_of_stops hcs hr, takeWhile_append_of_stops hds hs] at hstart
  subst hstart
  exact ⟨rfl, List.append_cancel_left h⟩

theorem append_cons_inj {c : Char} {cs ds r s : List Char} (hcs : c ∉ cs) (hds : c ∉ ds)
    (h : cs ++ c :: r = ds ++ c :: s) : cs = ds ∧ r = s := by
  have hother {es : List Char} (hes : c ∉ es) : ∀ e ∈ es, (e != c) = true :=
    fun e he ↦ bne_iff_ne.2 fun hec ↦ hes (hec ▸ he)
  have hstops (rest : List Char) : Stops (· != c) (c :: rest) := by
    intro e he
    obtain rfl := Option.some.inj he
    exact bne_self_eq_false _
  obtain ⟨hfront, hrest⟩ := append_inj_of_stops (hother hcs) (hother hds) (hstops r) (hstops s) h
  exact ⟨hfront, (List.cons.inj hrest).2⟩

def isNumeric (c : Char) : Bool := c.isDigit || c = '-'

theorem isNumeric_of_mem_toString {n : Int} : ∀ c ∈ (toString n).toList, isNumeric c := by
  have hnat (k : Nat) : ∀ c ∈ k.repr.toList, isNumeric c := by
    intro c hc
    rw [Nat.toList_repr] at hc
    simp [isNumeric, Nat.isDigit_of_mem_toDigits (by decide) (by decide) hc]
  rw [Int.toString_eq_repr, Int.repr_eq_if]
  split
  · exact hnat _
  · rw [String.toList_append]
    exact List.forall_mem_append.2 ⟨by simp [isNumeric], hnat _⟩

theorem exists_toString_eq (n : Int) : ∃ c cs, (toString n).toList = c :: cs ∧ isNumeric c := by
  have hne : (toString n).toList ≠ [] := by
    rw [Int.toString_eq_repr, Int.repr_eq_if]
    split
    · rw [Nat.toList_repr]
      exact Nat.toDigits_ne_nil
    · rw [String.toList_append]
      exact List.cons_ne_nil _ _
  obtain ⟨c, cs, hcs⟩ := List.exists_cons_of_ne_nil hne
  exact ⟨c, cs, hcs, isNumeric_of_mem_toString c (hcs ▸ List.mem_cons_self)⟩

theorem toString_append_inj {m n : Int} {r s : List Char} (hr : Stops isNumeric r)
    (hs : Stops isNumeric s) (h : (toString m).toList ++ r = (toString n).toList ++ s) :
    m = n ∧ r = s := by
  obtain ⟨hdigits, hrest⟩ := append_inj_of_stops isNumeric_of_mem_toString
    isNumeric_of_mem_toString hr hs h
  exact ⟨Int.repr_inj.1 (String.toList_injective hdigits), hrest⟩

section Lists

variable {α : Type} {spell : α → List Char}

def others (spell : α → List Char) (xs : List α) : List Char :=
  xs.flatMap fun x ↦ ',' :: ' ' :: spell x

def commaList (spell : α → List Char) (xs : List α) : List Char :=
  [',', ' '].intercalate (xs.map spell)

theorem commaList_cons (x : α) (xs : List α) :
    commaList spell (x :: xs) = spell x ++ others spell xs := by
  induction xs generalizing x with
  | nil => exact List.intercalate_singleton.trans (List.append_nil _).symm
  | cons y ys ih =>
    have hrest := ih y
    rw [commaList, List.map_cons] at hrest
    rw [commaList, List.map_cons, List.map_cons, List.intercalate_cons_cons, hrest]
    simp [others]

def Follows (close : Char) (rest : List Char) : Prop :=
  rest.head? = some ',' ∨ rest.head? = some close

theorem Follows.stops_isNumeric {close : Char} {rest : List Char} (h : Follows close rest)
    (hclose : isNumeric close = false) : Stops isNumeric rest := by
  intro c hc
  rcases h with h | h
  · cases h.symm.trans hc
    rfl
  · cases h.symm.trans hc
    exact hclose

variable {close : Char} {xs ys : List α} {r s : List Char}

theorem follows_others (rest : List Char) : Follows close (others spell xs ++ close :: rest) := by
  cases xs with
  | nil => exact .inr rfl
  | cons x xs => exact .inl rfl

section Items

variable (hclose : close ≠ ',')
  (hitems : ∀ x ∈ xs, ∀ y ∈ ys, ∀ r s, Follows close r → Follows close s →
    spell x ++ r = spell y ++ s → x = y ∧ r = s)

include hclose hitems

theorem others_append_inj (h : others spell xs ++ close :: r = others spell ys ++ close :: s) :
    xs = ys ∧ r = s := by
  induction xs generalizing ys with
  | nil =>
    cases ys with
    | nil => exact ⟨rfl, (List.cons.inj h).2⟩
    | cons y ys => exact absurd (List.cons.inj h).1 hclose
  | cons x xs ih =>
    cases ys with
    | nil => exact absurd (List.cons.inj h).1.symm hclose
    | cons y ys =>
      simp only [others, List.flatMap_cons, List.cons_append, List.append_assoc, List.cons.injEq,
        true_and] at h
      obtain ⟨rfl, hrest⟩ := hitems x List.mem_cons_self y List.mem_cons_self _ _
        (follows_others r) (follows_others s) h
      obtain ⟨rfl, hr⟩ := ih (fun x hx y hy ↦ hitems x (List.mem_cons_of_mem _ hx) y
        (List.mem_cons_of_mem _ hy)) hrest
      exact ⟨rfl, hr⟩

theorem commaList_append_inj (hempty : xs = [] ↔ ys = [])
    (h : commaList spell xs ++ close :: r = commaList spell ys ++ close :: s) :
    xs = ys ∧ r = s := by
  refine others_append_inj hclose hitems ?_
  cases xs with
  | nil =>
    obtain rfl := hempty.1 rfl
    exact h
  | cons x xs =>
    cases ys with
    | nil => cases hempty.2 rfl
    | cons y ys =>
      rw [commaList_cons, commaList_cons] at h
      exact congrArg (',' :: ' ' :: ·) h

end Items

end Lists

end MetadataDump.Text
