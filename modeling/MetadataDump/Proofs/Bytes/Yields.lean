import MetadataDump.Proofs.Snapshot.Lookup
import MetadataDump.Proofs.Text.Lines

namespace MetadataDump

section Questions

variable {α β : Type} {p : α → Prop} {q : β → Prop} {r : Error → Prop} {x : Except Error α}

/-- A value of one property or an error of another. -/
def Answers (p : α → Prop) (r : Error → Prop) : Except Error α → Prop
  | .ok a => p a
  | .error e => r e

abbrev Yields (p : α → Prop) (x : Except Error α) : Prop := Answers p Error.OneLine x

theorem Answers.of_ok {a : α} (h : Answers p r x) (ha : x = .ok a) : p a := by
  subst ha
  exact h

theorem Answers.of_error {e : Error} (h : Answers p r x) (he : x = .error e) : r e := by
  subst he
  exact h

theorem Answers.mono {p' : α → Prop} (h : Answers p r x) (hp : ∀ a, p a → p' a) :
    Answers p' r x := by
  cases x with
  | ok a => exact hp a h
  | error e => exact h

theorem Answers.values (h : Answers p r x) : Answers p (fun _ ↦ True) x := by
  cases x with
  | ok a => exact h
  | error e => trivial

theorem Answers.bind {f : α → Except Error β} (h : Answers p r x)
    (hf : ∀ a, p a → Answers q r (f a)) : Answers q r (x >>= f) := by
  cases x with
  | ok a => exact hf a h
  | error e => exact h

theorem Answers.map {f : α → β} (h : Answers p r x) (hf : ∀ a, p a → q (f a)) :
    Answers q r (f <$> x) := by
  cases x with
  | ok a => exact hf a h
  | error e => exact h

theorem answers_ite {c : Prop} [Decidable c] {y : Except Error α} (hx : c → Answers p r x)
    (hy : ¬ c → Answers p r y) : Answers p r (if c then x else y) := by
  split
  · exact hx ‹_›
  · exact hy ‹_›

theorem answers_mapM {t : α → β → Prop} {f : α → Except Error β} {as : List α}
    (hf : ∀ a ∈ as, Answers (t a) r (f a)) : Answers (List.Forall₂ t as) r (as.mapM f) := by
  induction as with
  | nil => exact List.Forall₂.nil
  | cons a as ih =>
    obtain ⟨ha, has⟩ := List.forall_mem_cons.1 hf
    rw [List.mapM_cons]
    exact ha.bind fun b hb ↦ (ih has).bind fun bs hbs ↦ List.Forall₂.cons hb hbs

theorem forall_mem_of_forall₂ {as : List α} {bs : List β} (h : List.Forall₂ (fun _ ↦ q) as bs) :
    ∀ b ∈ bs, q b := by
  induction h with
  | nil => exact List.forall_mem_nil _
  | cons hb _ ih => exact List.forall_mem_cons.2 ⟨hb, ih⟩

/-- A reference to a row that is not there only tells the table and the position. -/
theorem answers_lookup {table : Table} (hr : ∀ index, r (.dangling table index)) (rows : Array α)
    (i : Int) : Answers (RowAt rows i) r (lookup table rows i) := by
  cases hrow : lookup table rows i with
  | error e =>
    unfold lookup at hrow
    dsimp only at hrow
    split at hrow
    · cases hrow
    · obtain rfl := Except.error.inj hrow
      exact hr _
  | ok a => exact lookup_eq_ok_iff.1 hrow

theorem yields_rowAt (table : Table) (rows : Array α) (i : Int) :
    Yields (RowAt rows i) (lookup table rows i) :=
  answers_lookup (fun _ _ h ↦ nomatch h) rows i

theorem yields_lookup {table : Table} {rows : Array α} (h : ∀ a ∈ rows, p a) (i : Int) :
    Yields p (lookup table rows i) :=
  (yields_rowAt table rows i).mono fun a ha ↦ h a (Array.mem_of_getElem? ha.2)

end Questions

section Reads

variable {σ α β : Type} {p : α → Prop} {q : β → Prop} {r : Error → Prop} {x : EStateM Error σ α}

/-- Whatever state it starts in, the computation ends with a value of one property or with an error
of another. -/
def Ends (p : α → Prop) (r : Error → Prop) (x : EStateM Error σ α) : Prop :=
  ∀ s, match x s with
    | .ok a _ => p a
    | .error e _ => r e

abbrev Gives (p : α → Prop) (x : EStateM Error σ α) : Prop := Ends p (fun _ ↦ True) x

abbrev FailsWith (r : Error → Prop) (x : EStateM Error σ α) : Prop := Ends (fun _ ↦ True) r x

theorem Ends.of_ok (h : Ends p r x) {s t : σ} {a : α} (ha : x s = .ok a t) : p a := by
  have hs := h s
  rw [ha] at hs
  exact hs

theorem Ends.of_error (h : Ends p r x) {s t : σ} {e : Error} (he : x s = .error e t) : r e := by
  have hs := h s
  rw [he] at hs
  exact hs

theorem ends_any (x : EStateM Error σ α) : Ends (fun _ ↦ True) (fun _ ↦ True) x := by
  intro s
  split <;> trivial

theorem ends_pure {a : α} (h : p a) : Ends p r (pure a : EStateM Error σ α) := fun _ ↦ h

theorem ends_throw {e : Error} (h : r e) : Ends p r (throw e : EStateM Error σ α) := fun _ ↦ h

theorem ends_get : Ends (fun _ ↦ True) r (get : EStateM Error σ σ) := fun _ ↦ trivial

theorem ends_modify (f : σ → σ) : Ends (fun _ ↦ True) r (modify f : EStateM Error σ PUnit) :=
  fun _ ↦ trivial

theorem Ends.bind {f : α → EStateM Error σ β} (h : Ends p r x) (hf : ∀ a, p a → Ends q r (f a)) :
    Ends q r (x >>= f) := by
  intro s
  cases hx : x s with
  | ok a t =>
    have hrest := hf a (h.of_ok hx) t
    simpa only [Bind.bind, EStateM.bind, hx] using hrest
  | error e t =>
    have he := h.of_error hx
    simpa only [Bind.bind, EStateM.bind, hx] using he

theorem Ends.map {f : α → β} (h : Ends p r x) (hf : ∀ a, p a → q (f a)) : Ends q r (f <$> x) := by
  rw [← bind_pure_comp]
  exact h.bind fun a ha ↦ ends_pure (hf a ha)

theorem ends_ite {c : Prop} [Decidable c] {y : EStateM Error σ α} (hx : c → Ends p r x)
    (hy : ¬ c → Ends p r y) : Ends p r (if c then x else y) := by
  split
  · exact hx ‹_›
  · exact hy ‹_›

theorem FailsWith.map (f : α → β) (h : FailsWith r x) : FailsWith r (f <$> x) :=
  Ends.map h fun _ _ ↦ trivial

theorem FailsWith.bind {f : α → EStateM Error σ β} (h : FailsWith r x)
    (hf : ∀ a, FailsWith r (f a)) : FailsWith r (x >>= f) :=
  Ends.bind h fun a _ ↦ hf a

theorem gives_bind {f : α → EStateM Error σ β} (hf : ∀ a, Gives q (f a)) : Gives q (x >>= f) :=
  (ends_any x).bind fun a _ ↦ hf a

theorem gives_map {f : α → β} (hf : ∀ a, q (f a)) : Gives q (f <$> x) :=
  (ends_any x).map fun a _ ↦ hf a

end Reads

end MetadataDump
