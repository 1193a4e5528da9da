import MetadataDump.Proofs.Assembly.Memo

namespace MetadataDump

namespace ModifierCache

variable {s : Snapshot}

/-- The modifiers that a memo tells of a method: those that it holds, or else the decoded flags. -/
def answer (cache : ModifierCache) (method : Nat) (flags : UInt32) : List Modifier :=
  (cache.getOrDecode method flags).1

theorem Sound.answer_eq {cache : ModifierCache} (hc : cache.Sound s) {method : Nat} {flags : UInt32}
    (hq : s.IsMethodQuestion method flags) :
    cache.answer method flags = Flags.methodModifiers flags :=
  hc.getOrDecode_fst hq

theorem answer_of_getElem? {cache : ModifierCache} {method : Nat} {flags : UInt32}
    {found : List Modifier} (h : cache.entries[method]? = some found) :
    cache.answer method flags = found := by
  simp only [answer, getOrDecode, h]

theorem answer_of_eq_none {cache : ModifierCache} {method : Nat} {flags : UInt32}
    (h : cache.entries[method]? = none) :
    cache.answer method flags = Flags.methodModifiers flags := by
  simp only [answer, getOrDecode, h]

/-- A question leaves an entry for its own method and does not touch the others. -/
theorem entries_getOrDecode (cache : ModifierCache) (method : Nat) (flags : UInt32)
    (other : Nat) : (cache.getOrDecode method flags).2.entries[other]? =
      if method = other then some (cache.answer method flags) else cache.entries[other]? := by
  cases hfound : cache.entries[method]? with
  | some found =>
    rw [answer_of_getElem? hfound]
    simp only [getOrDecode, hfound]
    split
    · next he => exact he ▸ hfound
    · rfl
  | none =>
    rw [answer_of_eq_none hfound]
    simp only [getOrDecode, hfound, Std.ExtTreeMap.getElem?_insert,
      Std.LawfulEqCmp.compare_eq_iff_eq]

theorem answer_getOrDecode (cache : ModifierCache) {method other : Nat} {flags otherFlags : UInt32}
    (hq : s.IsMethodQuestion method flags) (ho : s.IsMethodQuestion other otherFlags) :
    (cache.getOrDecode method flags).2.answer other otherFlags = cache.answer other otherFlags := by
  have hentry := cache.entries_getOrDecode method flags other
  by_cases he : method = other
  · subst he
    obtain ⟨row, hrow, rfl⟩ := hq
    obtain ⟨row', hrow', rfl⟩ := ho
    obtain rfl := Option.some.inj (hrow.symm.trans hrow')
    rw [if_pos rfl] at hentry
    exact answer_of_getElem? hentry
  · rw [if_neg he] at hentry
    cases hfound : cache.entries[other]? with
    | some found => rw [answer_of_getElem? hfound, answer_of_getElem? (hentry.trans hfound)]
    | none => rw [answer_of_eq_none hfound, answer_of_eq_none (hentry.trans hfound)]

end ModifierCache

namespace Assembly

variable {α β : Type} {answer : Nat → UInt32 → List Modifier}

def answered (answer : Nat → UInt32 → List Modifier) : Assembly α → Except Error α
  | .done result => result
  | .ask method flags resume => answered answer (resume (answer method flags))

@[simp] theorem answered_lift (e : Except Error α) :
    (liftM e : Assembly α).answered answer = e := rfl

@[simp] theorem answered_pure (a : α) : (pure a : Assembly α).answered answer = .ok a := rfl

@[simp] theorem answered_modifiers (method : Nat) (flags : UInt32) :
    (modifiers method flags).answered answer = .ok (answer method flags) := rfl

@[simp] theorem answered_bind (x : Assembly α) (f : α → Assembly β) :
    (x >>= f).answered answer = x.answered answer >>= fun a ↦ (f a).answered answer := by
  induction x with
  | done r => cases r <;> rfl
  | ask method flags resume ih => exact ih _

@[simp] theorem answered_mapM (f : α → Assembly β) (as : List α) :
    (as.mapM f).answered answer = as.mapM fun a ↦ (f a).answered answer := by
  induction as with
  | nil => rfl
  | cons a as ih => simp only [List.mapM_cons, answered_bind, answered_pure, ih]; rfl

theorem answered_congr {p : Nat → UInt32 → Prop} {answer' : Nat → UInt32 → List Modifier}
    {x : Assembly α} (hx : x.Asks p)
    (h : ∀ method flags, p method flags → answer method flags = answer' method flags) :
    x.answered answer = x.answered answer' := by
  induction x with
  | done r => rfl
  | ask method flags resume ih =>
    rw [answered, answered, ← h method flags hx.1]
    exact ih _ (hx.2 _)

theorem run_eq_answered {s : Snapshot} {x : Assembly α} (hx : x.Asks s.IsMethodQuestion)
    (cache : ModifierCache) : (x.run cache).1 = x.answered cache.answer := by
  induction x generalizing cache with
  | done r => rfl
  | ask method flags resume ih =>
    calc (run (.ask method flags resume) cache).1
      _ = ((resume (cache.answer method flags)).run (cache.getOrDecode method flags).2).1 := rfl
      _ = (resume (cache.answer method flags)).answered (cache.getOrDecode method flags).2.answer :=
        ih _ (hx.2 _) _
      _ = (resume (cache.answer method flags)).answered cache.answer :=
        answered_congr (hx.2 _) fun _ _ ho ↦ cache.answer_getOrDecode hx.1 ho

end Assembly

end MetadataDump
