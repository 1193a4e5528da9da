import MetadataDump.Proofs.Assembly.Memo

namespace MetadataDump

/-- Both fail, with the same error, or both succeed, with results that `f` does not tell apart. -/
def SameUpTo {ε α β : Type} (f : α → β) : Except ε α → Except ε α → Prop
  | .ok a, .ok b => f a = f b
  | .error e, .error e' => e = e'
  | _, _ => False

theorem sameUpTo_of_map_eq {ε α β : Type} {f : α → β} {x y : Except ε α} (h : f <$> x = f <$> y) :
    SameUpTo f x y := by
  cases x with
  | ok a =>
    cases y with
    | ok b => exact Except.ok.inj h
    | error e => cases h
  | error e =>
    cases y with
    | ok b => cases h
    | error e' => exact Except.error.inj h

namespace Assembly

variable {α β γ δ : Type}

theorem run_map (f : α → β) (x : Assembly α) (cache : ModifierCache) :
    (f <$> x).run cache = (f <$> (x.run cache).1, (x.run cache).2) := by
  induction x generalizing cache with
  | done r => cases r <;> rfl
  | ask method flags resume ih => exact ih _ _

/-- Computations that are equal up to `f` use a memo in the same way. -/
theorem run_of_map_eq {f : α → γ} {x y : Assembly α} (h : f <$> x = f <$> y)
    (cache : ModifierCache) :
    SameUpTo f (x.run cache).1 (y.run cache).1 ∧ (x.run cache).2 = (y.run cache).2 := by
  have hrun := congrArg (run · cache) h
  simp only [run_map, Prod.mk.injEq] at hrun
  exact ⟨sameUpTo_of_map_eq hrun.1, hrun.2⟩

theorem map_pure_congr {g : β → δ} {a b : β} (h : g a = g b) :
    g <$> (pure a : Assembly β) = g <$> pure b :=
  congrArg (fun d ↦ done (.ok d)) h

theorem map_bind_same {g : β → δ} (x : Assembly α) {k l : α → Assembly β}
    (h : ∀ a, g <$> k a = g <$> l a) : g <$> (x >>= k) = g <$> (x >>= l) := by
  rw [map_bind, map_bind]
  exact bind_congr h

/-- What follows two steps that are equal up to `f` only has to be compared where `f` does not tell
the results of the steps apart. -/
theorem map_bind_congr {f : α → γ} {g : β → δ} {x y : Assembly α} {k l : α → Assembly β}
    (h : f <$> x = f <$> y) (hkl : ∀ a b, f a = f b → g <$> k a = g <$> l b) :
    g <$> (x >>= k) = g <$> (y >>= l) := by
  induction x generalizing y with
  | done r =>
    cases y with
    | done r' =>
      cases r with
      | ok a =>
        cases r' with
        | ok b => exact hkl a b (Except.ok.inj (done.inj h))
        | error e => cases h
      | error e =>
        cases r' with
        | ok b => cases h
        | error e' => rw [Except.error.inj (done.inj h)]; rfl
    | ask method flags resume => cases r <;> cases h
  | ask method flags resume ih =>
    cases y with
    | done r' => cases r' <;> cases h
    | ask method' flags' resume' =>
      obtain ⟨rfl, rfl, hresume⟩ := ask.inj h
      refine congrArg (ask method flags) (funext fun answer ↦ ?_)
      exact ih answer (congrFun hresume answer)

theorem map_bind_of_succeeds {g : β → δ} {x y : Except Error α} {k l : α → Assembly β}
    (hx : Succeeds x) (hy : Succeeds y) (hkl : ∀ a b, g <$> k a = g <$> l b) :
    g <$> (liftM x >>= k : Assembly β) = g <$> (liftM y >>= l : Assembly β) := by
  obtain ⟨a, rfl⟩ := hx
  obtain ⟨b, rfl⟩ := hy
  exact hkl a b

theorem lift_bind_congr {x : Except Error α} {k l : α → Assembly β}
    (h : ∀ a, x = .ok a → k a = l a) : (liftM x >>= k : Assembly β) = liftM x >>= l := by
  cases x with
  | ok a => exact h a rfl
  | error e => rfl

theorem lift_bind (x : Except Error α) (k : α → Except Error β) :
    (liftM (x >>= k) : Assembly β) = liftM x >>= fun a ↦ liftM (k a) := by
  cases x <;> rfl

theorem map_mapM (g : β → γ) (f : α → Assembly β) (as : List α) :
    List.map g <$> as.mapM f = as.mapM fun a ↦ g <$> f a := by
  induction as with
  | nil => rfl
  | cons a as ih =>
    simp only [List.mapM_cons, ← ih, map_bind, map_pure, bind_map_left, List.map_cons]

theorem mapM_congr {f f' : α → Assembly β} {as : List α} (h : ∀ a ∈ as, f a = f' a) :
    as.mapM f = as.mapM f' := by
  induction as with
  | nil => rfl
  | cons a as ih =>
    rw [List.forall_mem_cons] at h
    rw [List.mapM_cons, List.mapM_cons, h.1, ih h.2]

theorem map_mapM_congr {g : β → γ} {f f' : α → Assembly β} {as : List α}
    (h : ∀ a ∈ as, g <$> f a = g <$> f' a) :
    List.map g <$> as.mapM f = List.map g <$> as.mapM f' := by
  rw [map_mapM, map_mapM]
  exact mapM_congr h

end Assembly

namespace Metadata

theorem members_congr {α : Type} (isShown : Bool) {range : RowRange} {f f' : Int → Assembly α}
    (h : ∀ position ∈ range.positions, f position = f' position) :
    members isShown range f = members isShown range f' := by
  cases isShown with
  | true => exact Assembly.mapM_congr h
  | false => rfl

theorem map_members_congr {α β : Type} {g : α → β} (isShown : Bool) {range : RowRange}
    {f f' : Int → Assembly α}
    (h : ∀ position ∈ range.positions, g <$> f position = g <$> f' position) :
    List.map g <$> members isShown range f = List.map g <$> members isShown range f' := by
  cases isShown with
  | true => exact Assembly.map_mapM_congr h
  | false => rfl

end Metadata

end MetadataDump
