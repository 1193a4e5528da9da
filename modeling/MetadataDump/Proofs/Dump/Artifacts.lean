import MetadataDump.Dump.Run
import MetadataDump.Proofs.Files.Tree

namespace MetadataDump

/-- Both artifacts can be made in a directory: the text at `p` and the document at `q`. -/
structure FileTree.Takes (t : FileTree) (directory : String) (p q : Path) : Prop where
  text : t.resolve? (Files.inDirectory directory Dump.textFile) = some p
  json : t.resolve? (Files.inDirectory directory Dump.jsonFile) = some q
  acceptsText : t.accepts p = true
  acceptsJson : t.accepts q = true

namespace FileTree.Takes

variable {t u : FileTree} {directory : String} {p q : Path}

theorem ne (h : t.Takes directory p q) : p ≠ q :=
  ne_of_resolve?_inDirectory (by decide) (by decide) (by decide) h.text h.json
    (accepts_iff.1 h.acceptsText).1 (accepts_iff.1 h.acceptsJson).1

theorem congr (h : t.Takes directory p q) (hu : u.SameDirectories t) :
    u.Takes directory p q where
  text := (hu.resolve? _).trans h.text
  json := (hu.resolve? _).trans h.json
  acceptsText := (hu.accepts _).trans h.acceptsText
  acceptsJson := (hu.accepts _).trans h.acceptsJson

end FileTree.Takes

namespace Dump

open FileTree (fileSystem)

variable {t u : FileTree} {directory : String} {p q : Path} {c : Config} {outcomes : List Outcome}

/-- The tree `u` is `t` with the artifacts that `c` asks for. -/
structure Artifacts [Places] (c : Config) (outcomes : List Outcome) (t u : FileTree) (p q : Path) :
    Prop where
  text : u.get? p = if c.text then some (Text.render c outcomes).toUTF8 else t.get? p
  json : u.get? q = if c.json then some (Document.render c outcomes).toUTF8 else t.get? q
  others : ∀ r, r ≠ p → r ≠ q → u.get? r = t.get? r
  directories : u.SameDirectories t

section Steps

variable {α β : Type} {x : ExceptT Error (StateM FileTree) α}
  {f : α → ExceptT Error (StateM FileTree) β}

theorem run_bind_of_ok {a : α} (h : x.run.run t = (.ok a, u)) :
    (x >>= f).run.run t = (f a).run.run u := by
  rw [ExceptT.run_bind, StateT.run_bind, h]
  rfl

theorem run_bind_of_error {e : Error} (h : x.run.run t = (.error e, u)) :
    (x >>= f).run.run t = (.error e, u) := by
  rw [ExceptT.run_bind, StateT.run_bind, h]
  rfl

theorem run_liftM {step : StateM FileTree α} {a : α} (h : step.run t = (a, u)) :
    (liftM step : ExceptT Error (StateM FileTree) α).run.run t = (.ok a, u) := by
  have hlift : (liftM step : ExceptT Error (StateM FileTree) α).run.run t =
      (.ok (step.run t).1, (step.run t).2) := rfl
  rw [hlift, h]

theorem run_orFail {step : StateM FileTree Bool} (h : step.run t = (true, u)) :
    (orFail step).run.run t = (.ok (), u) := by
  unfold orFail
  exact run_bind_of_ok (run_liftM h)

theorem run_stage {on : Bool} {step : StateM FileTree Bool} {content : ByteArray}
    {rest : Unit → ExceptT Error (StateM FileTree) α}
    (h : on = true → step.run t = (true, t.put p content)) :
    (if on = true then orFail step >>= rest else rest ()).run.run t =
      (rest ()).run.run (t.putIf on p content) := by
  cases on with
  | true =>
    rw [if_pos rfl]
    exact run_bind_of_ok (run_orFail (h rfl))
  | false => rfl

end Steps

theorem run_fileSystem [Places] (md : Metadata) (c : Config) (h : t.Takes directory p q) :
    ∃ u, (run fileSystem md c directory).run.run t = (.ok (.ofOutcomes (md.assemble c)), u) ∧
      Artifacts c (md.assemble c) t u p q := by
  let outcomes := md.assemble c
  let t₁ := t.putIf c.text p .empty
  let t₂ := t₁.putIf c.json q .empty
  let t₃ := t₂.putIf c.text p (Text.render c outcomes).toUTF8
  let t₄ := t₃.putIf c.json q (Document.render c outcomes).toUTF8
  have hdir₁ : t₁.SameDirectories t := FileTree.sameDirectories_putIf h.acceptsText _
  have h₁ := h.congr hdir₁
  have hdir₂ : t₂.SameDirectories t₁ := FileTree.sameDirectories_putIf h₁.acceptsJson _
  have h₂ := h₁.congr hdir₂
  have hdir₃ : t₃.SameDirectories t₂ := FileTree.sameDirectories_putIf h₂.acceptsText _
  have h₃ := h₂.congr hdir₃
  have hdir₄ : t₄.SameDirectories t₃ := FileTree.sameDirectories_putIf h₃.acceptsJson _
  refine ⟨t₄, ?_, ?_⟩
  · have hempty₃ (htext : c.text = true) : t₂.get? p = some .empty := by
      rw [FileTree.get?_putIf_of_ne _ _ h.ne, FileTree.get?_putIf_self, if_pos htext]
    have hempty₄ (hjson : c.json = true) : t₃.get? q = some .empty := by
      rw [FileTree.get?_putIf_of_ne _ _ h.ne.symm, FileTree.get?_putIf_self, if_pos hjson]
    unfold run
    refine (run_stage fun _ ↦ FileTree.run_create h.text h.acceptsText).trans ?_
    refine (run_stage fun _ ↦ FileTree.run_create h₁.json h₁.acceptsJson).trans ?_
    refine (run_stage fun htext ↦ FileTree.run_write h₂.text (hempty₃ htext) _).trans ?_
    exact run_stage fun hjson ↦ FileTree.run_write h₃.json (hempty₄ hjson) _
  · refine ⟨?_, ?_, ?_, ?_⟩
    · rw [FileTree.get?_putIf_of_ne _ _ h.ne, FileTree.get?_putIf_self,
        FileTree.get?_putIf_of_ne _ _ h.ne, FileTree.get?_putIf_self]
      cases c.text <;> rfl
    · rw [FileTree.get?_putIf_self, FileTree.get?_putIf_of_ne _ _ h.ne.symm,
        FileTree.get?_putIf_self, FileTree.get?_putIf_of_ne _ _ h.ne.symm]
      cases c.json <;> rfl
    · intro r hp hq
      rw [FileTree.get?_putIf_of_ne _ _ hq, FileTree.get?_putIf_of_ne _ _ hp,
        FileTree.get?_putIf_of_ne _ _ hq, FileTree.get?_putIf_of_ne _ _ hp]
    · exact ((hdir₄.trans hdir₃).trans hdir₂).trans hdir₁

end Dump

end MetadataDump
