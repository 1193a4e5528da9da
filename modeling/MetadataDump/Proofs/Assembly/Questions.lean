import Mathlib
import MetadataDump.Declaration.Assemble

namespace MetadataDump

namespace Assembly

variable {α β : Type}

theorem bind_pure_right (x : Assembly α) : x >>= pure = x := by
  induction x with
  | done r => cases r <;> rfl
  | ask method flags resume ih => exact congrArg _ (funext ih)

theorem bind_assoc_left {γ : Type} (x : Assembly α) (f : α → Assembly β) (g : β → Assembly γ) :
    x >>= f >>= g = x >>= fun a ↦ f a >>= g := by
  induction x with
  | done r => cases r <;> rfl
  | ask method flags resume ih => exact congrArg _ (funext ih)

instance : LawfulMonad Assembly :=
  .mk' Assembly bind_pure_right (fun _ _ ↦ rfl) bind_assoc_left

@[simp] theorem direct_lift (e : Except Error α) : (liftM e : Assembly α).direct = e := rfl

@[simp] theorem direct_pure (a : α) : (pure a : Assembly α).direct = .ok a := rfl

@[simp] theorem direct_bind (x : Assembly α) (f : α → Assembly β) :
    (x >>= f).direct = x.direct >>= fun a ↦ (f a).direct := by
  induction x with
  | done r => cases r <;> rfl
  | ask method flags resume ih => exact ih _

@[simp] theorem direct_mapM (f : α → Assembly β) (as : List α) :
    (as.mapM f).direct = as.mapM fun a ↦ (f a).direct := by
  induction as with
  | nil => rfl
  | cons a as ih => simp only [List.mapM_cons, direct_bind, direct_pure, ih]; rfl

/-- Every question satisfies `p`, whatever the answers to the earlier ones. -/
def Asks (p : Nat → UInt32 → Prop) : Assembly α → Prop
  | .done _ => True
  | .ask method flags resume => p method flags ∧ ∀ answer, Asks p (resume answer)

section Asks

variable {p : Nat → UInt32 → Prop}

theorem asks_lift (e : Except Error α) : (liftM e : Assembly α).Asks p := trivial

theorem asks_pure (a : α) : (pure a : Assembly α).Asks p := trivial

theorem asks_modifiers {method : Nat} {flags : UInt32} (h : p method flags) :
    (modifiers method flags).Asks p := ⟨h, fun _ ↦ trivial⟩

theorem Asks.bind {x : Assembly α} {f : α → Assembly β} (hx : x.Asks p)
    (hf : ∀ a, (f a).Asks p) : (x >>= f).Asks p := by
  induction x with
  | done r =>
    cases r with
    | ok a => exact hf a
    | error e => trivial
  | ask method flags resume ih => exact ⟨hx.1, fun answer ↦ ih answer (hx.2 answer)⟩

theorem asks_lift_bind {e : Except Error α} {f : α → Assembly β}
    (hf : ∀ a, e = .ok a → (f a).Asks p) : (liftM e >>= f : Assembly β).Asks p := by
  cases e with
  | ok a => exact hf a rfl
  | error e => trivial

theorem asks_mapM {f : α → Assembly β} (hf : ∀ a, (f a).Asks p) (as : List α) :
    (as.mapM f).Asks p := by
  induction as with
  | nil => trivial
  | cons a as ih =>
    rw [List.mapM_cons]
    exact (hf a).bind fun _ ↦ ih.bind fun _ ↦ asks_pure _

end Asks

end Assembly

end MetadataDump
