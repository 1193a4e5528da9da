import MetadataDump.Files.Tree
import Mathlib.Data.List.Infix

namespace MetadataDump

namespace Path

variable {s t : String}

theorem names_slash (s t : String) : names (s ++ "/" ++ t) = names s ++ names t := by
  have hlist : (s ++ "/" ++ t).toList = s.toList ++ '/' :: t.toList := by
    rw [String.toList_append, String.toList_append, List.append_assoc]
    rfl
  unfold names
  rw [hlist, List.splitOn_append_cons_self, List.map_append]

theorem names_of_slash_not_mem (h : '/' ∉ t.toList) : names t = [t] := by
  unfold names
  rw [List.splitOn_eq_singleton h, List.map_singleton, String.ofList_toList]

theorem endsWith_iff : s.endsWith t = true ↔ t.toList <:+ s.toList := by
  rw [String.endsWith_eq_endsWith_toSlice, String.Slice.endsWith_string_iff, String.copy_toSlice]

theorem exists_names_inDirectory (directory : String) {name : String} (h : '/' ∉ name.toList) :
    ∃ before, names (Files.inDirectory directory name) = before ++ [name] := by
  unfold Files.inDirectory
  split
  · rename_i hslash
    rcases hslash with rfl | hslash
    · exact ⟨[], by rw [String.empty_append, names_of_slash_not_mem h, List.nil_append]⟩
    obtain ⟨parent, hparent⟩ := endsWith_iff.1 hslash
    have hdirectory : directory = String.ofList parent ++ "/" := by
      apply String.toList_injective
      rw [String.toList_append, String.toList_ofList]
      exact hparent.symm
    exact ⟨names (String.ofList parent), by
      rw [hdirectory, names_slash, names_of_slash_not_mem h]⟩
  · exact ⟨names directory, by rw [names_slash, names_of_slash_not_mem h]⟩

end Path

namespace FileTree

variable {t u : FileTree} {p q : Path}

section Contents

theorem files_put (t : FileTree) (p : Path) (content : ByteArray) :
    (t.put p content).files = t.files.filter (fun f ↦ f.1 != p) ++ [(p, content)] := rfl

theorem get?_put_self (t : FileTree) (p : Path) (content : ByteArray) :
    (t.put p content).get? p = some content := by
  have hnone : (t.files.filter fun f ↦ f.1 != p).lookup p = none := by
    rw [List.lookup_eq_none_iff]
    intro f hf
    have hne : f.1 ≠ p := by simpa using (List.mem_filter.1 hf).2
    simpa using hne.symm
  unfold get?
  rw [files_put, List.lookup_append, hnone, List.lookup_cons_self]
  rfl

theorem get?_put_of_ne (t : FileTree) (content : ByteArray) (h : q ≠ p) :
    (t.put p content).get? q = t.get? q := by
  have hkept : (t.files.filter fun f ↦ f.1 != p).lookup q = t.files.lookup q := by
    induction t.files with
    | nil => rfl
    | cons f files ih =>
      by_cases hf : f.1 = p
      · have hne : ¬ (q == f.1) = true := by
          rw [hf, beq_iff_eq]
          exact h
        rw [List.filter_cons_of_neg (by simpa using hf), List.lookup_cons, ih]
        simp only [hne]
      · rw [List.filter_cons_of_pos (by simpa using hf), List.lookup_cons, List.lookup_cons, ih]
  have hlast : [(p, content)].lookup q = none := by
    rw [List.lookup_eq_none_iff]
    simpa using h
  unfold get?
  rw [files_put, List.lookup_append, hkept, hlast, Option.or_none]

end Contents

section Directories

theorem isDirectory_iff : t.isDirectory p = true ↔
    p = [] ∨ (∃ d ∈ t.directories, p <+: d) ∨ ∃ f ∈ t.files, f.1 ≠ p ∧ p <+: f.1 := by
  unfold isDirectory
  simp only [Bool.or_eq_true, List.isEmpty_iff, List.any_eq_true, List.isPrefixOf_iff_prefix,
    Bool.and_eq_true, bne_iff_ne, or_assoc, ne_comm]

theorem isDirectory_above (h : t.isDirectory p = true) (hq : q <+: p) :
    t.isDirectory q = true := by
  rw [isDirectory_iff] at h ⊢
  rcases h with rfl | ⟨d, hd, hp⟩ | ⟨f, hf, hne, hp⟩
  · exact .inl (List.prefix_nil.1 hq)
  · exact .inr (.inl ⟨d, hd, hq.trans hp⟩)
  · refine .inr (.inr ⟨f, hf, ?_, hq.trans hp⟩)
    intro heq
    subst heq
    exact hne (hp.eq_of_length_le hq.length_le).symm

theorem accepts_iff : t.accepts p = true ↔
    t.isDirectory p = false ∧ t.isDirectory p.dropLast = true := by
  unfold accepts
  rw [Bool.and_eq_true, Bool.not_eq_true']

theorem isDirectory_put (h : t.accepts p = true) (content : ByteArray) (q : Path) :
    (t.put p content).isDirectory q = t.isDirectory q := by
  obtain ⟨-, hparent⟩ := accepts_iff.1 h
  rw [Bool.eq_iff_iff]
  constructor
  · intro hq
    rcases isDirectory_iff.1 hq with rfl | hd | ⟨f, hf, hne, hprefix⟩
    · exact isDirectory_iff.2 (.inl rfl)
    · exact isDirectory_iff.2 (.inr (.inl hd))
    · rcases List.mem_append.1 hf with hold | hnew
      · exact isDirectory_iff.2 (.inr (.inr ⟨f, List.mem_of_mem_filter hold, hne, hprefix⟩))
      · obtain rfl := List.mem_singleton.1 hnew
        apply isDirectory_above hparent
        obtain ⟨rest, hrest⟩ := hprefix
        have hrest_ne : rest ≠ [] := by
          rintro rfl
          exact hne (by simpa using hrest.symm)
        have hp : p = q ++ rest := hrest.symm
        rw [hp, List.dropLast_append_of_ne_nil hrest_ne]
        exact List.prefix_append _ _
  · intro hq
    rcases isDirectory_iff.1 hq with rfl | hd | ⟨f, hf, hne, hprefix⟩
    · exact isDirectory_iff.2 (.inl rfl)
    · exact isDirectory_iff.2 (.inr (.inl hd))
    · by_cases hfp : f.1 = p
      · refine isDirectory_iff.2 (.inr (.inr ⟨(p, content), ?_, hfp ▸ hne, hfp ▸ hprefix⟩))
        exact List.mem_append_right _ (List.mem_singleton_self _)
      · refine isDirectory_iff.2 (.inr (.inr ⟨f, ?_, hne, hprefix⟩))
        exact List.mem_append_left _ (List.mem_filter.2 ⟨hf, by simpa using hfp⟩)

/-- The trees have the same directories, and the same one to start from. -/
structure SameDirectories (u t : FileTree) : Prop where
  working : u.workingDirectory = t.workingDirectory
  isDirectory : ∀ q, u.isDirectory q = t.isDirectory q

theorem SameDirectories.trans {v : FileTree} (h : v.SameDirectories u)
    (h' : u.SameDirectories t) : v.SameDirectories t where
  working := h.working.trans h'.working
  isDirectory q := (h.isDirectory q).trans (h'.isDirectory q)

theorem SameDirectories.accepts (h : u.SameDirectories t) (p : Path) :
    u.accepts p = t.accepts p := by
  unfold FileTree.accepts
  rw [h.isDirectory, h.isDirectory]

end Directories

section Paths

theorem resolve?_of_relative {path : String} (hroot : ¬ "/".toList <+: path.toList)
    (hlength : path.utf8ByteSize ≤ longestPath) :
    t.resolve? path = (Path.names path).foldlM t.follow t.workingDirectory := by
  have hstart : ¬ path.startsWith "/" = true := by
    rw [String.startsWith_string_iff]
    exact hroot
  unfold resolve? start
  rw [if_neg (Nat.not_lt.2 hlength), if_neg hstart]

theorem resolve?_of_absolute {path : String} (hroot : "/".toList <+: path.toList)
    (hlength : path.utf8ByteSize ≤ longestPath) :
    t.resolve? path = (Path.names path).foldlM t.follow [] := by
  have hstart : path.startsWith "/" = true := by
    rw [String.startsWith_string_iff]
    exact hroot
  unfold resolve? start
  rw [if_neg (Nat.not_lt.2 hlength), if_pos hstart]

theorem SameDirectories.resolve? (h : u.SameDirectories t) (path : String) :
    u.resolve? path = t.resolve? path := by
  have hfollow : u.follow = t.follow := by
    funext q name
    unfold follow
    rw [h.isDirectory q]
  unfold FileTree.resolve? start
  rw [hfollow, h.working]

theorem exists_of_follow {name : String} (h : t.follow q name = some p)
    (hp : t.isDirectory p = false) : p = q ++ [name] := by
  unfold follow at h
  split at h
  · cases h
  · rename_i hq
    rw [Bool.not_eq_true', Bool.not_eq_false] at hq
    split at h
    · obtain rfl := Option.some.inj h
      rw [hq] at hp
      cases hp
    · split at h
      · obtain rfl := Option.some.inj h
        rw [isDirectory_above hq (List.dropLast_prefix q)] at hp
        cases hp
      · exact (Option.some.inj h).symm

theorem getLast?_of_resolve? {path name : String} {before : List String}
    (hnames : Path.names path = before ++ [name]) (h : t.resolve? path = some p)
    (hp : t.isDirectory p = false) : p.getLast? = some name := by
  unfold resolve? at h
  split at h
  · cases h
  · rw [hnames, List.foldlM_append] at h
    obtain ⟨q, -, hlast⟩ := Option.bind_eq_some_iff.1 h
    rw [List.foldlM_cons] at hlast
    obtain ⟨r, hfollow, hr⟩ := Option.bind_eq_some_iff.1 hlast
    obtain rfl := Option.some.inj hr
    rw [exists_of_follow hfollow hp, List.getLast?_concat]

theorem ne_of_resolve?_inDirectory {directory name other : String} (hne : name ≠ other)
    (hname : '/' ∉ name.toList) (hother : '/' ∉ other.toList)
    (hp : t.resolve? (Files.inDirectory directory name) = some p)
    (hq : t.resolve? (Files.inDirectory directory other) = some q)
    (hpfile : t.isDirectory p = false) (hqfile : t.isDirectory q = false) : p ≠ q := by
  obtain ⟨_, hnames⟩ := Path.exists_names_inDirectory directory hname
  obtain ⟨_, hothers⟩ := Path.exists_names_inDirectory directory hother
  have hlast := getLast?_of_resolve? hnames hp hpfile
  have hlast' := getLast?_of_resolve? hothers hq hqfile
  rintro rfl
  exact hne (Option.some.inj (hlast.symm.trans hlast'))

end Paths

section Steps

def content? (t : FileTree) (path : String) : Option ByteArray := t.resolve? path >>= t.get?

theorem run_read (t : FileTree) (path : String) :
    (fileSystem.read path).run t = (t.content? path, t) := rfl

theorem run_create {path : String} (hpath : t.resolve? path = some p) (hp : t.accepts p = true) :
    (fileSystem.create path).run t = (true, t.put p .empty) := by
  have hcreate : t.create p = (true, t.put p .empty) := if_pos hp
  simp only [fileSystem, StateT.run_modifyGet, hpath, hcreate]
  rfl

theorem run_write {path : String} {old : ByteArray} (hpath : t.resolve? path = some p)
    (hp : t.get? p = some old) (content : String) :
    (fileSystem.write path content).run t = (true, t.put p content.toUTF8) := by
  have hwrite : t.write p content = (true, t.put p content.toUTF8) := by
    unfold write
    rw [hp]
  simp only [fileSystem, StateT.run_modifyGet, hpath, hwrite]
  rfl

def putIf (t : FileTree) (on : Bool) (p : Path) (content : ByteArray) : FileTree :=
  if on then t.put p content else t

variable {on : Bool}

theorem sameDirectories_putIf (h : t.accepts p = true) (content : ByteArray) :
    (t.putIf on p content).SameDirectories t := by
  cases on with
  | true => exact ⟨rfl, isDirectory_put h content⟩
  | false => exact ⟨rfl, fun _ ↦ rfl⟩

theorem get?_putIf_self (t : FileTree) (p : Path) (content : ByteArray) :
    (t.putIf on p content).get? p = if on then some content else t.get? p := by
  cases on with
  | true => exact get?_put_self t p content
  | false => rfl

theorem get?_putIf_of_ne (t : FileTree) (content : ByteArray) (h : q ≠ p) :
    (t.putIf on p content).get? q = t.get? q := by
  cases on with
  | true => exact get?_put_of_ne t content h
  | false => rfl

end Steps

end FileTree

end MetadataDump
