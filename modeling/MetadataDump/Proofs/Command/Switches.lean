import MetadataDump.Command.Arguments
import MetadataDump.Proofs.Snapshot.Lookup

namespace MetadataDump.Command

def Switch.longName : Switch → String
  | .json => "json"
  | .verbose => "verbose"
  | .noMethods => "no-methods"
  | .noFields => "no-fields"
  | .noProperties => "no-properties"
  | .noAttributes => "no-attributes"
  | .noFieldOffsets => "no-field-offsets"
  | .noMethodOffsets => "no-method-offsets"
  | .noTypeIndex => "no-typedef-index"
  | .noText => "no-cs"
  | .noJson => "no-json"
  | .parallel => "parallel"

def Switch.flag (s : Switch) : String := "--" ++ s.longName

def optionWords (args : List String) : List String := args.takeWhile (· ≠ "--")

section Words

variable {arg name : String} {value : Option String} {s : Switch} {verb : Option Verb}
  {p q : Parsed} {waiting : Option Setting}

theorem ofString_flag (s : Switch) : Word.ofString s.flag = .long s.longName none := by
  cases s <;> decide

theorem eq_separator_of_ofString (h : Word.ofString arg = .separator) : arg = "--" := by
  unfold Word.ofString at h
  split at h
  · rename_i harg
    exact String.toList_injective harg
  all_goals cases h

theorem eq_of_splitValue {cs : List Char} (h : splitValue cs = (name, none)) :
    name.toList = cs := by
  unfold splitValue at h
  split at h
  · obtain ⟨rfl, -⟩ := Prod.mk.inj h
    exact String.toList_ofList
  · cases (Prod.mk.inj h).2

theorem eq_append_of_ofString (h : Word.ofString arg = .long name none) : arg = "--" ++ name := by
  unfold Word.ofString at h
  split at h
  · cases h
  · rename_i cs _ harg
    obtain ⟨hname, hvalue⟩ := Word.long.inj h
    have hcs := eq_of_splitValue (Prod.ext hname hvalue)
    apply String.toList_injective
    rw [harg, String.toList_append, hcs]
    rfl
  all_goals cases h

theorem mem_of_lookup {α β : Type} [BEq α] [LawfulBEq α] {table : List (α × β)} {a : α} {b : β}
    (h : table.lookup a = some b) : (a, b) ∈ table := by
  obtain ⟨before, after, rfl, -⟩ := List.lookup_eq_some_iff.1 h
  exact List.mem_append_right _ (List.mem_cons_self ..)

theorem longName_of_lookup (h : (longOptions verb).lookup name = some (.switch s)) :
    name = s.longName := by
  have hall : (longOptions verb).all (fun o ↦ o.2 != .switch s || o.1 == s.longName) = true := by
    rcases verb with _ | _ | _ <;> cases s <;> decide
  simpa using List.all_eq_true.1 hall _ (mem_of_lookup h)

theorem verbose_of_lookup {c : Char} (h : (shortOptions verb).lookup c = some (.switch s)) :
    s = .verbose := by
  have hall : (shortOptions verb).all (fun o ↦ o.2 != .switch s || s == .verbose) = true := by
    rcases verb with _ | _ | _ <;> cases s <;> decide
  simpa using List.all_eq_true.1 hall _ (mem_of_lookup h)

theorem lookup_longName (verb : Option Verb) (s : Switch) :
    (longOptions verb).lookup s.longName = none ∨
      (longOptions verb).lookup s.longName = some (.switch s) := by
  rcases verb with _ | _ | _ <;> cases s <;> decide

theorem switches_of_addSwitch (h : p.addSwitch s = .ok q) : q.switches = s :: p.switches := by
  unfold Parsed.addSwitch at h
  split at h
  · cases h
  · obtain rfl := Except.ok.inj h
    rfl

theorem switches_of_addSetting {setting : Setting} {v : String}
    (h : p.addSetting setting v = .ok q) : q.switches = p.switches := by
  unfold Parsed.addSetting at h
  split at h
  · cases h
  · obtain rfl := Except.ok.inj h
    rfl

theorem switches_of_addOperand {v : String} (h : p.addOperand v = .ok q) :
    q.switches = p.switches := by
  unfold Parsed.addOperand at h
  split at h
  · cases h
  · obtain rfl := Except.ok.inj h
    rfl

theorem switches_of_foldlM_addOperand {args : List String}
    (h : args.foldlM Parsed.addOperand p = .ok q) : q.switches = p.switches := by
  induction args generalizing p with
  | nil =>
    obtain rfl := Except.ok.inj h
    rfl
  | cons arg args ih =>
    rw [List.foldlM_cons] at h
    obtain ⟨r, hr, hq⟩ := bind_eq_ok_iff.1 h
    rw [ih hq, switches_of_addOperand hr]

theorem mem_of_takeLong (h : takeLong verb p name value = .ok (q, waiting)) :
    s ∈ q.switches ↔
      s ∈ p.switches ∨ value = none ∧ (longOptions verb).lookup name = some (.switch s) := by
  unfold takeLong at h
  split at h
  · cases h
  · rename_i hlookup
    obtain ⟨r, hr, hq⟩ := map_eq_ok_iff.1 h
    obtain ⟨rfl, -⟩ := Prod.mk.inj hq
    rw [switches_of_addSetting hr]
    simp
  · rename_i hlookup
    obtain ⟨rfl, -⟩ := Prod.mk.inj (Except.ok.inj h)
    simp [hlookup]
  · cases h
  · rename_i kind hkind hlookup
    obtain ⟨r, hr, hq⟩ := map_eq_ok_iff.1 h
    obtain ⟨rfl, -⟩ := Prod.mk.inj hq
    cases kind with
    | switch t =>
      rw [switches_of_addSwitch hr, List.mem_cons, hlookup]
      simp [or_comm, eq_comm]
    | setting t => exact absurd rfl (hkind t)
    | help => cases hr
    | version => cases hr

theorem mem_of_long (hword : Word.ofString arg = .long name value)
    (h : takeLong verb p name value = .ok (q, waiting)) :
    s ∈ q.switches ↔ s ∈ p.switches ∨ arg = s.flag := by
  rw [mem_of_takeLong h]
  refine or_congr_right ⟨?_, ?_⟩
  · rintro ⟨rfl, hlookup⟩
    rw [eq_append_of_ofString hword, longName_of_lookup hlookup]
    rfl
  · rintro rfl
    obtain ⟨rfl, rfl⟩ := Word.long.inj (hword.symm.trans (ofString_flag s))
    refine ⟨rfl, ?_⟩
    rcases lookup_longName verb s with hnone | hsome
    · unfold takeLong at h
      rw [hnone] at h
      cases h
    · exact hsome

theorem mem_of_takeShort {letters : List Char} (hs : s ≠ .verbose)
    (h : takeShort verb p letters = .ok (q, waiting)) : s ∈ q.switches ↔ s ∈ p.switches := by
  induction letters generalizing p with
  | nil =>
    obtain ⟨rfl, -⟩ := Prod.mk.inj (Except.ok.inj h)
    rfl
  | cons c cs ih =>
    unfold takeShort at h
    split at h
    · cases h
    · split at h
      · obtain ⟨rfl, -⟩ := Prod.mk.inj (Except.ok.inj h)
        rfl
      all_goals
        obtain ⟨r, hr, hq⟩ := map_eq_ok_iff.1 h
        obtain ⟨rfl, -⟩ := Prod.mk.inj hq
        rw [switches_of_addSetting hr]
    · rename_i kind hkind hlookup
      obtain ⟨r, hr, hq⟩ := bind_eq_ok_iff.1 h
      rw [ih hq]
      cases kind with
      | switch t =>
        obtain rfl := verbose_of_lookup hlookup
        rw [switches_of_addSwitch hr, List.mem_cons, or_iff_right hs]
      | setting t => exact absurd rfl (hkind t)
      | help => cases hr
      | version => cases hr

theorem flag_mem_optionWords_cons {args : List String} (h : Word.ofString arg ≠ .separator) :
    s.flag ∈ optionWords (arg :: args) ↔ arg = s.flag ∨ s.flag ∈ optionWords args := by
  have harg : arg ≠ "--" := by
    rintro rfl
    exact h (by decide)
  unfold optionWords
  rw [List.takeWhile_cons_of_pos (by simpa using harg), List.mem_cons, eq_comm]

theorem flag_mem_optionWords_skip {args : List String} (hsep : Word.ofString arg ≠ .separator)
    (hlong : ∀ name value, Word.ofString arg ≠ .long name value) :
    s.flag ∈ optionWords (arg :: args) ↔ s.flag ∈ optionWords args := by
  have hne : arg ≠ s.flag := by
    rintro rfl
    exact hlong _ _ (ofString_flag s)
  rw [flag_mem_optionWords_cons hsep, or_iff_right hne]

theorem optionWords_separator (args : List String) : optionWords ("--" :: args) = [] :=
  List.takeWhile_cons_of_neg (by decide)

end Words

section Lines

variable {args : List String} {s : Switch} {verb : Verb} {p q : Parsed}

theorem mem_of_parseVerb (hs : s ≠ .verbose) {waiting : Option Setting}
    (h : parseVerb verb p waiting args = .ok q) :
    s ∈ q.switches ↔ s ∈ p.switches ∨ s.flag ∈ optionWords args := by
  induction args generalizing p waiting with
  | nil =>
    unfold parseVerb at h
    split at h
    · cases h
    · obtain rfl := Except.ok.inj h
      simp [optionWords]
  | cons arg args ih =>
    unfold parseVerb at h
    split at h
    · rename_i hword
      obtain ⟨r, hr, hq⟩ := bind_eq_ok_iff.1 h
      rw [ih hq, switches_of_addSetting hr, flag_mem_optionWords_skip] <;> simp [hword]
    · cases h
    · rename_i hword
      obtain ⟨r, hr, hq⟩ := bind_eq_ok_iff.1 h
      rw [ih hq, switches_of_addOperand hr, flag_mem_optionWords_skip] <;> simp [hword]
    · rename_i hword
      obtain rfl := eq_separator_of_ofString hword
      rw [switches_of_foldlM_addOperand h, optionWords_separator]
      simp
    · rename_i hword
      obtain ⟨⟨r, waiting⟩, hr, hq⟩ := bind_eq_ok_iff.1 h
      rw [ih hq, mem_of_long hword hr, flag_mem_optionWords_cons (by simp [hword]), or_assoc]
    · rename_i hword
      obtain ⟨⟨r, waiting⟩, hr, hq⟩ := bind_eq_ok_iff.1 h
      rw [ih hq, mem_of_takeShort hs hr, flag_mem_optionWords_skip] <;> simp [hword]

theorem mem_of_ofVerb (hs : s ≠ .verbose) {i : Invocation}
    (h : Invocation.ofVerb verb p args = .ok i) :
    s ∈ i.switches ↔ s ∈ p.switches ∨ s.flag ∈ optionWords args := by
  unfold Invocation.ofVerb at h
  obtain ⟨q, hq, hi⟩ := bind_eq_ok_iff.1 h
  split at hi
  · obtain rfl := Except.ok.inj hi
    rw [List.mem_append, mem_of_parseVerb hs hq]
    simp [Parsed.empty]
  · cases hi

theorem mem_of_parseFrom (hs : s ≠ .verbose) {i : Invocation}
    (h : Invocation.parseFrom p args = .ok i) :
    s ∈ i.switches ↔ s ∈ p.switches ∨ s.flag ∈ optionWords args := by
  induction args generalizing p with
  | nil => cases h
  | cons arg args ih =>
    unfold Invocation.parseFrom at h
    split at h
    · cases h
    · rename_i hword
      obtain ⟨⟨r, waiting⟩, hr, hq⟩ := bind_eq_ok_iff.1 h
      rw [ih hq, mem_of_long hword hr, flag_mem_optionWords_cons (by simp [hword]), or_assoc]
    · rename_i hword
      obtain ⟨⟨r, waiting⟩, hr, hq⟩ := bind_eq_ok_iff.1 h
      rw [ih hq, mem_of_takeShort hs hr, flag_mem_optionWords_skip] <;> simp [hword]
    · cases h
    · rename_i hword
      split at h
      · rw [mem_of_ofVerb hs h, flag_mem_optionWords_skip] <;> simp [hword]
      · cases h

/-- A command line has a switch if the flag of the switch stands among its options. -/
theorem Invocation.has_iff {i : Invocation} (h : parse args = .ok i) (hs : s ≠ .verbose) :
    i.has s = true ↔ s.flag ∈ optionWords args := by
  unfold has
  rw [List.contains_iff_mem, mem_of_parseFrom hs h]
  exact or_iff_right List.not_mem_nil

end Lines

end MetadataDump.Command
