import MetadataDump.Json.Parser
import MetadataDump.Proofs.Json.Tokens

namespace MetadataDump.Json

open Numeral (Ends)

/-- The values whose names are all written with no more escapes than they need. -/
inductive Written : Json → Prop
  | null : Written .null
  | bool (b : Bool) : Written (.bool b)
  | number (n : Numeral) : Written (.number n)
  | string (s : String) : Written (.string s)
  | unreadable : Written .unreadable
  | array {items : List Json} : (∀ v ∈ items, Written v) → Written (.array items)
  | object {members : List (Name × Json)} : (∀ m ∈ members, m.1 = .ofString m.1.text) →
      (∀ m ∈ members, Written m.2) → Written (.object members)

mutual

def spelling : Json → List Token
  | .null => [.null]
  | .bool b => [.bool b]
  | .number n => [.number n]
  | .string s => [.string (some (.ofString s))]
  | .unreadable => [.string none]
  | .array items => .openArray :: (itemTokens true items ++ [.closeArray])
  | .object members => .openObject :: (memberTokens true members ++ [.closeObject])

def itemTokens (first : Bool) : List Json → List Token
  | [] => []
  | v :: vs => (if first then [] else [.comma]) ++ (spelling v ++ itemTokens false vs)

def memberTokens (first : Bool) : List (Name × Json) → List Token
  | [] => []
  | (name, v) :: rest => (if first then [] else [.comma]) ++
      .string (some (.ofString name.text)) :: .colon :: (spelling v ++ memberTokens false rest)

end

section Machine

open Machine

/-- From where a value is expected, the machine takes the tokens of `v` as the value `v`. -/
def Runs (v : Json) : Prop :=
  ∀ stack ts, run ⟨stack, .value⟩ (spelling v ++ ts) = run (deliver v stack) ts

theorem run_firstItem (v : Json) (stack : List Frame) (ts : List Token) :
    run ⟨.items [] :: stack, .firstItem⟩ (spelling v ++ ts) =
      run ⟨.items [] :: stack, .value⟩ (spelling v ++ ts) := by
  cases v <;> rfl

theorem run_itemTokens {vs : List Json} (h : ∀ v ∈ vs, Runs v) (done : List Json)
    (stack : List Frame) (ts : List Token) :
    run ⟨.items done :: stack, .separator⟩ (itemTokens false vs ++ .closeArray :: ts) =
      run (deliver (.array (done.reverse ++ vs)) stack) ts := by
  induction vs generalizing done with
  | nil =>
    rw [List.append_nil]
    rfl
  | cons v vs ih =>
    obtain ⟨hv, hvs⟩ := List.forall_mem_cons.1 h
    have hrun := hv (.items done :: stack) (itemTokens false vs ++ .closeArray :: ts)
    have hrest := ih hvs (v :: done)
    rw [List.reverse_cons, List.append_assoc] at hrest
    rw [itemTokens, List.append_assoc, List.append_assoc]
    exact hrun.trans hrest

theorem runs_array {items : List Json} (h : ∀ v ∈ items, Runs v) : Runs (.array items) := by
  intro stack ts
  rw [spelling, List.cons_append, List.append_assoc]
  cases items with
  | nil => rfl
  | cons v vs =>
    obtain ⟨hv, hvs⟩ := List.forall_mem_cons.1 h
    have hrun := hv (.items [] :: stack) (itemTokens false vs ++ .closeArray :: ts)
    have hrest := run_itemTokens hvs [v] stack ts
    rw [← run_firstItem] at hrun
    rw [itemTokens, List.append_assoc, List.append_assoc]
    exact hrun.trans hrest

theorem run_memberTokens {ms : List (Name × Json)} (hnames : ∀ m ∈ ms, m.1 = .ofString m.1.text)
    (h : ∀ m ∈ ms, Runs m.2) (done : List (Name × Json)) (name : Name) (stack : List Frame)
    (ts : List Token) :
    run ⟨.members done true name :: stack, .separator⟩
        (memberTokens false ms ++ .closeObject :: ts) =
      run (deliver (.object (done.reverse ++ ms)) stack) ts := by
  induction ms generalizing done name with
  | nil =>
    rw [List.append_nil]
    rfl
  | cons m ms ih =>
    obtain ⟨hm, hms⟩ := List.forall_mem_cons.1 h
    obtain ⟨hname, hnames⟩ := List.forall_mem_cons.1 hnames
    have hrun := hm (.members done true (.ofString m.1.text) :: stack)
      (memberTokens false ms ++ .closeObject :: ts)
    have hrest := ih hnames hms (m :: done) m.1
    rw [List.reverse_cons, List.append_assoc] at hrest
    rw [← hname] at hrun
    rw [memberTokens, ← hname]
    simp only [List.append_assoc, List.cons_append]
    exact hrun.trans hrest

theorem runs_object {ms : List (Name × Json)} (hnames : ∀ m ∈ ms, m.1 = .ofString m.1.text)
    (h : ∀ m ∈ ms, Runs m.2) : Runs (.object ms) := by
  intro stack ts
  rw [spelling, List.cons_append, List.append_assoc]
  cases ms with
  | nil => rfl
  | cons m ms =>
    obtain ⟨hm, hms⟩ := List.forall_mem_cons.1 h
    obtain ⟨hname, hnames⟩ := List.forall_mem_cons.1 hnames
    have hrun := hm (.members [] true (.ofString m.1.text) :: stack)
      (memberTokens false ms ++ .closeObject :: ts)
    have hrest := run_memberTokens hnames hms [m] m.1 stack ts
    rw [← hname] at hrun
    rw [memberTokens, ← hname]
    simp only [List.append_assoc, List.cons_append]
    exact hrun.trans hrest

theorem Written.runs {v : Json} (h : Written v) : Runs v := by
  induction h with
  | array _ ih => exact runs_array ih
  | object hnames _ ih => exact runs_object hnames ih
  | _ => exact fun _ _ ↦ rfl

theorem Written.ofTokens?_spelling {v : Json} (h : Written v) :
    ofTokens? (spelling v) = some v := by
  have hrun := h.runs [] []
  rw [List.append_nil] at hrun
  have hstart : start.run (spelling v) = some (deliver v []) := hrun
  unfold ofTokens?
  rw [hstart]
  rfl

end Machine

section Compact

variable {rest : List Char} {ts : List Token}

theorem splits_bool (b : Bool) (h : Splits rest ts) :
    Splits (compactChars (.bool b) ++ rest) (.bool b :: ts) := by
  cases b with
  | true => exact splits_true h
  | false => exact splits_false h

theorem ends_compactItems (vs : List Json) (h : Ends rest) :
    Ends (compactItems false vs ++ rest) := by
  cases vs with
  | nil => exact h
  | cons v vs => exact ends_of_isMark .comma

theorem ends_compactMembers (ms : List (Name × Json)) (h : Ends rest) :
    Ends (compactMembers false ms ++ rest) := by
  cases ms with
  | nil => exact h
  | cons m ms => exact ends_of_isMark .comma

theorem splits_comma (first : Bool) (h : Splits rest ts) :
    Splits ((if first then [] else [',']) ++ rest) ((if first then [] else [.comma]) ++ ts) := by
  cases first with
  | true => exact h
  | false => exact h.mark .comma

mutual

/-- The text of a value splits into the tokens of the value. -/
theorem splits_compactChars (v : Json) {rest : List Char} {ts : List Token} (hrest : Ends rest)
    (h : Splits rest ts) : Splits (compactChars v ++ rest) (spelling v ++ ts) := by
  cases v with
  | null => exact splits_null h
  | bool b => exact splits_bool b h
  | number n => exact splits_number h hrest n
  | string s => exact splits_quote h s
  | unreadable => exact splits_unreadable h
  | array items =>
    have hitems := splits_compactItems items true (ends_of_isMark .closeArray)
      (h.mark .closeArray)
    rw [compactChars, spelling]
    simpa only [List.cons_append, List.append_assoc, List.nil_append] using
      hitems.mark .openArray
  | object members =>
    have hmembers := splits_compactMembers members true (ends_of_isMark .closeObject)
      (h.mark .closeObject)
    rw [compactChars, spelling]
    simpa only [List.cons_append, List.append_assoc, List.nil_append] using
      hmembers.mark .openObject

theorem splits_compactItems (vs : List Json) (first : Bool) {rest : List Char} {ts : List Token}
    (hrest : Ends rest) (h : Splits rest ts) :
    Splits (compactItems first vs ++ rest) (itemTokens first vs ++ ts) := by
  cases vs with
  | nil => exact h
  | cons v vs =>
    have hv := splits_compactChars v (ends_compactItems vs hrest)
      (splits_compactItems vs false hrest h)
    rw [compactItems, itemTokens]
    simpa only [List.append_assoc] using splits_comma first hv

theorem splits_compactMembers (ms : List (Name × Json)) (first : Bool) {rest : List Char}
    {ts : List Token} (hrest : Ends rest) (h : Splits rest ts) :
    Splits (compactMembers first ms ++ rest) (memberTokens first ms ++ ts) := by
  cases ms with
  | nil => exact h
  | cons m ms =>
    have hv := splits_compactChars m.2 (ends_compactMembers ms hrest)
      (splits_compactMembers ms false hrest h)
    have hname := splits_quote (hv.mark .colon) m.1.text
    rw [compactMembers, memberTokens]
    simpa only [List.append_assoc, List.cons_append] using splits_comma first hname

end

end Compact

section Pretty

variable {rest : List Char} {ts : List Token}

theorem isBlank_of_mem_newline {level : Nat} {c : Char} (h : c ∈ newline level) :
    isBlank c = true := by
  rcases List.mem_cons.1 h with rfl | h
  · rfl
  · obtain rfl := List.eq_of_mem_replicate h
    rfl

theorem splits_newline (level : Nat) (h : Splits rest ts) : Splits (newline level ++ rest) ts :=
  h.blanks fun _ ↦ isBlank_of_mem_newline

theorem ends_of_isBlank {c : Char} (h : isBlank c = true) : Ends (c :: rest) := by
  have hc : c = ' ' ∨ c = '\t' ∨ c = '\n' ∨ c = '\r' := by simpa [isBlank] using h
  rcases hc with rfl | rfl | rfl | rfl <;> exact Numeral.ends_cons (by decide) (by decide)

theorem ends_newline (level : Nat) (rest : List Char) : Ends (newline level ++ rest) :=
  ends_of_isBlank (c := '\n') rfl

theorem ends_prettyItems (level : Nat) (vs : List Json) (h : Ends rest) :
    Ends (prettyItems level false vs ++ rest) := by
  cases vs with
  | nil => exact h
  | cons v vs => exact ends_of_isMark .comma

theorem ends_prettyMembers (level : Nat) (ms : List (Name × Json)) (h : Ends rest) :
    Ends (prettyMembers level false ms ++ rest) := by
  cases ms with
  | nil => exact h
  | cons m ms => exact ends_of_isMark .comma

mutual

theorem splits_prettyChars (level : Nat) (v : Json) {rest : List Char} {ts : List Token}
    (hrest : Ends rest) (h : Splits rest ts) :
    Splits (prettyChars level v ++ rest) (spelling v ++ ts) := by
  cases v with
  | null => exact splits_null h
  | bool b =>
    cases b with
    | true => exact splits_true h
    | false => exact splits_false h
  | number n => exact splits_number h hrest n
  | string s => exact splits_quote h s
  | unreadable => exact splits_unreadable h
  | array items =>
    cases items with
    | nil => exact (h.mark .closeArray).mark .openArray
    | cons v vs =>
      have hitems := splits_prettyItems (level + 1) (v :: vs) true (ends_newline level _)
        (splits_newline level (h.mark .closeArray))
      rw [prettyChars, spelling]
      simpa only [List.cons_append, List.append_assoc, List.nil_append] using
        hitems.mark .openArray
  | object members =>
    cases members with
    | nil => exact (h.mark .closeObject).mark .openObject
    | cons m ms =>
      have hmembers := splits_prettyMembers (level + 1) (m :: ms) true (ends_newline level _)
        (splits_newline level (h.mark .closeObject))
      rw [prettyChars, spelling]
      simpa only [List.cons_append, List.append_assoc, List.nil_append] using
        hmembers.mark .openObject

theorem splits_prettyItems (level : Nat) (vs : List Json) (first : Bool) {rest : List Char}
    {ts : List Token} (hrest : Ends rest) (h : Splits rest ts) :
    Splits (prettyItems level first vs ++ rest) (itemTokens first vs ++ ts) := by
  cases vs with
  | nil => exact h
  | cons v vs =>
    have hv := splits_prettyChars level v (ends_prettyItems level vs hrest)
      (splits_prettyItems level vs false hrest h)
    rw [prettyItems, itemTokens]
    simpa only [List.append_assoc] using splits_comma first (splits_newline level hv)

theorem splits_prettyMembers (level : Nat) (ms : List (Name × Json)) (first : Bool)
    {rest : List Char} {ts : List Token} (hrest : Ends rest) (h : Splits rest ts) :
    Splits (prettyMembers level first ms ++ rest) (memberTokens first ms ++ ts) := by
  cases ms with
  | nil => exact h
  | cons m ms =>
    have hv := splits_prettyChars level m.2 (ends_prettyMembers level ms hrest)
      (splits_prettyMembers level ms false hrest h)
    have hname := splits_quote ((hv.blank (c := ' ') rfl).mark .colon) m.1.text
    rw [prettyMembers, memberTokens]
    simpa only [List.append_assoc, List.cons_append] using
      splits_comma first (splits_newline level hname)

end

end Pretty

theorem parse?_of_splits {v : Json} {cs : List Char} (hv : Written v)
    (h : Splits cs (spelling v ++ [])) : parse? (String.ofList cs) = some v := by
  rw [List.append_nil] at h
  unfold parse?
  rw [String.toList_ofList, h.tokens?]
  exact hv.ofTokens?_spelling

theorem parse?_compact {v : Json} (hv : Written v) : parse? (compact v) = some v := by
  have hsplits := splits_compactChars v Numeral.ends_nil splits_nil
  rw [List.append_nil] at hsplits
  exact parse?_of_splits hv hsplits

/-- Indented text is read as its value, also if a line feed follows it. -/
theorem parse?_pretty {v : Json} (hv : Written v) :
    parse? (pretty v) = some v ∧ parse? (pretty v ++ "\n") = some v := by
  constructor
  · have hsplits := splits_prettyChars 0 v Numeral.ends_nil splits_nil
    rw [List.append_nil] at hsplits
    exact parse?_of_splits hv hsplits
  · have hsplits := splits_prettyChars 0 v (ends_of_isBlank (c := '\n') rfl)
      (splits_nil.blank rfl)
    have htext : pretty v ++ "\n" = String.ofList (prettyChars 0 v ++ ['\n']) :=
      String.ofList_append.symm
    rw [htext]
    exact parse?_of_splits hv hsplits

end MetadataDump.Json
