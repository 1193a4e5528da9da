import MetadataDump.Command.Run
import MetadataDump.Proofs.Command.Switches
import MetadataDump.Proofs.Dump.Artifacts
import MetadataDump.Proofs.Dump.Counts
import MetadataDump.Proofs.Snapshot.Exchange

namespace MetadataDump

def FileTree.Loads {α : Type} [Json.Codec α] (t : FileTree) (path : String) (a : α) : Prop :=
  ∃ bytes, t.content? path = some bytes ∧ Json.readBytes bytes = .ok a

theorem FileTree.Loads.unique {α : Type} [Json.Codec α] {t : FileTree} {path : String} {a b : α}
    (ha : t.Loads path a) (hb : t.Loads path b) : a = b := by
  obtain ⟨bytes, hbytes, ha⟩ := ha
  obtain ⟨bytes', hbytes', hb⟩ := hb
  obtain rfl := Option.some.inj (hbytes.symm.trans hbytes')
  exact Except.ok.inj (ha.symm.trans hb)

namespace Command

open Dump (Summary TextCounts DocumentCounts run_bind_of_ok run_bind_of_error)
open FileTree (fileSystem)

structure Invocation.Given (i : Invocation) (t : FileTree) (s : Snapshot) (base : Config) :
    Prop where
  snapshot : t.Loads i.snapshot s
  config : ∀ path, i.settings.lookup .configFile = some path → t.Loads path base
  default : i.settings.lookup .configFile = none → base = .full

/-- What the options of a command line leave of a configuration. -/
structure Effective (args : List String) (base c : Config) : Prop where
  methods : c.methods = true ↔ base.methods = true ∧ "--no-methods" ∉ optionWords args
  fields : c.fields = true ↔ base.fields = true ∧ "--no-fields" ∉ optionWords args
  properties : c.properties = true ↔ base.properties = true ∧ "--no-properties" ∉ optionWords args
  attributes : c.attributes = true ↔ base.attributes = true ∧ "--no-attributes" ∉ optionWords args
  fieldOffsets :
    c.fieldOffsets = true ↔ base.fieldOffsets = true ∧ "--no-field-offsets" ∉ optionWords args
  methodOffsets :
    c.methodOffsets = true ↔ base.methodOffsets = true ∧ "--no-method-offsets" ∉ optionWords args
  typeIndex :
    c.typeIndex = true ↔ base.typeIndex = true ∧ "--no-typedef-index" ∉ optionWords args
  text : c.text = true ↔ base.text = true ∧ "--no-cs" ∉ optionWords args
  json : c.json = true ↔ base.json = true ∧ "--no-json" ∉ optionWords args
  parallel : c.parallel = true ↔ base.parallel = true ∨ "--parallel" ∈ optionWords args

structure Reports (args : List String) (directory : String) (c : Config) (s : Summary)
    (output : String) : Prop where
  json : "--json" ∈ optionWords args → ∃ report, Json.parse? output = some report ∧
    report.get? "output_dir" = some (.string directory) ∧
    report.get? "images" = some (.ofNat s.images) ∧
    report.get? "failed" = some (.ofNat s.failed) ∧
    report.get? "text" = some (.bool c.text) ∧ report.get? "json" = some (.bool c.json)
  text : "--json" ∉ optionWords args → output = "Output:  " ++ directory ++
    "\nImages:  " ++ toString s.images ++ "\n" ++
    (if s.failed = 0 then "" else "Failed:  " ++ toString s.failed ++ "\n") ++
    (if c.text = false ∧ c.json = false then "Nothing written, both artifacts are disabled\n"
      else "")

/-- A dump of the outcomes from the tree `t` ends in the tree `u` and with a result that agrees
with it. -/
structure Verdict [Places] (args : List String) (directory : String) (c : Config)
    (outcomes : List Outcome) (t u : FileTree) (result : Result) : Prop where
  text : u.content? (Files.inDirectory directory Dump.textFile) =
    if c.text then some (Dump.Text.render c outcomes).toUTF8
    else t.content? (Files.inDirectory directory Dump.textFile)
  json : u.content? (Files.inDirectory directory Dump.jsonFile) =
    if c.json then some (Dump.Document.render c outcomes).toUTF8
    else t.content? (Files.inDirectory directory Dump.jsonFile)
  others : ∀ path, t.resolve? (Files.inDirectory directory Dump.textFile) ≠ some path →
    t.resolve? (Files.inDirectory directory Dump.jsonFile) ≠ some path → u.get? path = t.get? path
  incomplete : (∃ o ∈ outcomes, o.isFailed = true) → result.exitCode = 2
  complete : (∀ o ∈ outcomes, o.isFailed = false) → result.exitCode = 0
  report : ∃ s : Summary, Reports args directory c s result.output ∧
    TextCounts c outcomes (Dump.Text.render c outcomes) s ∧
    DocumentCounts (Dump.Document.render c outcomes) s

variable {args : List String} {i : Invocation} {t u : FileTree}

theorem toggle_iff (hargs : Invocation.parse args = .ok i) {s : Switch} (hs : s ≠ .verbose)
    (b : Bool) : (b && !i.has s) = true ↔ b = true ∧ s.flag ∉ optionWords args := by
  rw [Bool.and_eq_true, Bool.not_eq_true', ← Bool.not_eq_true, Invocation.has_iff hargs hs]

theorem effective_restrict (hargs : Invocation.parse args = .ok i) (base : Config) :
    Effective args base (i.restrict base) where
  methods := toggle_iff hargs (s := .noMethods) (by decide) _
  fields := toggle_iff hargs (s := .noFields) (by decide) _
  properties := toggle_iff hargs (s := .noProperties) (by decide) _
  attributes := toggle_iff hargs (s := .noAttributes) (by decide) _
  fieldOffsets := toggle_iff hargs (s := .noFieldOffsets) (by decide) _
  methodOffsets := toggle_iff hargs (s := .noMethodOffsets) (by decide) _
  typeIndex := toggle_iff hargs (s := .noTypeIndex) (by decide) _
  text := toggle_iff hargs (s := .noText) (by decide) _
  json := toggle_iff hargs (s := .noJson) (by decide) _
  parallel := by
    have hhas := Invocation.has_iff hargs (s := .parallel) (by decide)
    show (base.parallel || i.has .parallel) = true ↔ _
    rw [Bool.or_eq_true, hhas]
    rfl

section Loading

variable {α : Type} [Json.Codec α] {path : String}

theorem run_load {a : α} (h : t.Loads path a) :
    (Dump.load fileSystem path : ExceptT Error (StateM FileTree) α).run.run t = (.ok a, t) := by
  obtain ⟨bytes, hbytes, ha⟩ := h
  unfold Dump.load
  refine (run_bind_of_ok (Dump.run_liftM (t.run_read path))).trans ?_
  rw [hbytes]
  simp only [ha]
  rfl

theorem run_load_of_not_loads (h : ∀ a : α, ¬ t.Loads path a) : ∃ e,
    (Dump.load fileSystem path : ExceptT Error (StateM FileTree) α).run.run t = (.error e, t) := by
  have hread : (Dump.load fileSystem path : ExceptT Error (StateM FileTree) α).run.run t = _ :=
    run_bind_of_ok (Dump.run_liftM (t.run_read path))
  cases hbytes : t.content? path with
  | none =>
    rw [hbytes] at hread
    exact ⟨.file, hread⟩
  | some bytes =>
    rw [hbytes] at hread
    cases ha : (Json.readBytes bytes : Except Error α) with
    | ok a => exact absurd ⟨bytes, hbytes, ha⟩ (h a)
    | error e =>
      simp only [ha] at hread
      exact ⟨e, hread⟩

end Loading

section Running

variable {s : Snapshot} {base : Config}

theorem run_loadConfig (h : i.Given t s base) :
    (loadConfig fileSystem i).run.run t = (.ok (i.restrict base), t) := by
  unfold loadConfig
  split
  · rename_i path hpath
    exact run_bind_of_ok (run_load (h.config path hpath))
  · rename_i hnone
    rw [h.default hnone]
    rfl

theorem run_loadConfig_of_not_given (hs : t.Loads i.snapshot s)
    (h : ∀ base, ¬ i.Given t s base) :
    ∃ e, (loadConfig fileSystem i).run.run t = (.error e, t) := by
  unfold loadConfig
  split
  · rename_i path hpath
    have hconfig : ∀ base : Config, ¬ t.Loads path base := by
      intro base hbase
      apply h base
      refine ⟨hs, ?_, ?_⟩
      · intro path' hpath'
        obtain rfl := Option.some.inj (hpath.symm.trans hpath')
        exact hbase
      · intro hnone
        rw [hpath] at hnone
        cases hnone
    obtain ⟨e, he⟩ := run_load_of_not_loads hconfig
    exact ⟨e, run_bind_of_error he⟩
  · rename_i hnone
    refine absurd ⟨hs, ?_, fun _ ↦ rfl⟩ (h .full)
    intro path hpath
    rw [hnone] at hpath
    cases hpath

theorem run_dump_of_not_given [Places] (h : ∀ s base, ¬ i.Given t s base) :
    ∃ e, (dump fileSystem i).run.run t = (.error e, t) := by
  unfold dump
  by_cases hs : ∃ s : Snapshot, t.Loads i.snapshot s
  · obtain ⟨s, hs⟩ := hs
    obtain ⟨e, he⟩ := run_loadConfig_of_not_given hs (h s)
    exact ⟨e, (run_bind_of_ok (run_load hs)).trans (run_bind_of_error he)⟩
  · obtain ⟨e, he⟩ := run_load_of_not_loads (not_exists.1 hs)
    exact ⟨e, run_bind_of_error he⟩

def answer (i : Invocation) (c : Config) (s : Summary) : Result where
  exitCode := if s.isComplete then 0 else 2
  output :=
    if i.has .json then (reportJson i.outputDirectory s c).pretty ++ "\n"
    else reportText i.outputDirectory s c

theorem run_dump [Places] {p q : Path} (h : i.Given t s base)
    (hdir : t.Takes i.outputDirectory p q) :
    ∃ u, (dump fileSystem i).run.run t =
        (.ok (answer i (i.restrict base)
          (.ofOutcomes ((Metadata.ofSnapshot s).assemble (i.restrict base)))), u) ∧
      Dump.Artifacts (i.restrict base) ((Metadata.ofSnapshot s).assemble (i.restrict base)) t u
        p q := by
  obtain ⟨u, hu, hartifacts⟩ :=
    Dump.run_fileSystem (.ofSnapshot s) (i.restrict base) hdir
  refine ⟨u, ?_, hartifacts⟩
  unfold dump
  refine (run_bind_of_ok (run_load h.snapshot)).trans ?_
  refine (run_bind_of_ok (run_loadConfig h)).trans ?_
  exact run_bind_of_ok hu

theorem run_of_dump [Places] {r : Except Error Result} (hargs : Invocation.parse args = .ok i)
    (hverb : i.verb = .dump) (h : (dump fileSystem i).run.run t = (r, u)) :
    (run fileSystem args).run t = (r.toOption.getD failure, u) := by
  have hrun : (i.run fileSystem).run t = (r.toOption.getD failure, u) := by
    unfold Invocation.run
    rw [hverb, StateT.run_bind, h]
    cases r <;> rfl
  unfold run
  rw [hargs]
  exact hrun

theorem reports_answer (hargs : Invocation.parse args = .ok i) (c : Config) (s : Summary) :
    Reports args i.outputDirectory c s (answer i c s).output := by
  have hhas : i.has .json = true ↔ "--json" ∈ optionWords args :=
    Invocation.has_iff hargs (by decide)
  unfold answer
  constructor
  · intro hjson
    have hwritten : (reportJson i.outputDirectory s c).Written := by
      apply Json.PlainMembers.object
      simp
    refine ⟨reportJson i.outputDirectory s c, ?_, rfl, rfl, rfl, rfl, rfl⟩
    rw [if_pos (hhas.2 hjson)]
    exact (Json.parse?_pretty hwritten).2
  · intro htext
    rw [if_neg (mt hhas.1 htext)]
    have hfailed : (0 < s.failed) = ¬ s.failed = 0 := propext Nat.pos_iff_ne_zero
    have hnothing : ((!c.text && !c.json) = true) = (c.text = false ∧ c.json = false) := by
      rw [Bool.and_eq_true, Bool.not_eq_true', Bool.not_eq_true']
    unfold reportText
    simp only [hfailed, hnothing, ite_not, String.append_assoc]

theorem verdict_answer [Places] {p q : Path} {c : Config} (hargs : Invocation.parse args = .ok i)
    (m : Metadata) (hdir : t.Takes i.outputDirectory p q)
    (h : Dump.Artifacts c (m.assemble c) t u p q) :
    Verdict args i.outputDirectory c (m.assemble c) t u
      (answer i c (.ofOutcomes (m.assemble c))) := by
  have hcontent {path : String} {r : Path} (hr : t.resolve? path = some r) :
      u.content? path = u.get? r ∧ t.content? path = t.get? r := by
    unfold FileTree.content?
    rw [h.directories.resolve?, hr]
    exact ⟨rfl, rfl⟩
  obtain ⟨htext, htext'⟩ := hcontent hdir.text
  obtain ⟨hjson, hjson'⟩ := hcontent hdir.json
  have hfailed : (Summary.ofOutcomes (m.assemble c)).isComplete = true ↔
      ∀ o ∈ m.assemble c, ¬ o.isFailed = true := by
    rw [Summary.isComplete, decide_eq_true_eq]
    exact List.countP_eq_zero
  refine ⟨?_, ?_, ?_, ?_, ?_, ?_⟩
  · rw [htext, htext', h.text]
  · rw [hjson, hjson', h.json]
  · intro path hp hq
    apply h.others
    · rintro rfl
      exact hp hdir.text
    · rintro rfl
      exact hq hdir.json
  · rintro ⟨o, ho, hfail⟩
    have hincomplete : ¬ (Summary.ofOutcomes (m.assemble c)).isComplete = true :=
      fun hcomplete ↦ hfailed.1 hcomplete o ho hfail
    exact if_neg hincomplete
  · intro hall
    have hcomplete : (Summary.ofOutcomes (m.assemble c)).isComplete = true :=
      hfailed.2 fun o ho ↦ by rw [hall o ho]; decide
    exact if_pos hcomplete
  · exact ⟨.ofOutcomes (m.assemble c), reports_answer hargs c _, Dump.textCounts_render m c,
      Dump.documentCounts_render c _⟩

/-- The verdict of a dump. If its snapshot or its configuration cannot be read, it fails and leaves
all files as they are; otherwise, in a directory where both artifacts can be made, it writes those
that are switched on, and its exit code and report agree with them. -/
theorem run_dump_verdict [Places] (args : List String) (i : Invocation)
    (hargs : Invocation.parse args = .ok i) (hverb : i.verb = .dump) (t : FileTree) :
    ((∀ s base, ¬ i.Given t s base) → (run fileSystem args).run t = (⟨1, ""⟩, t)) ∧
    ∀ s base, i.Given t s base → (∃ p q, t.Takes i.outputDirectory p q) →
      ∃ c result u, Effective args base c ∧ (run fileSystem args).run t = (result, u) ∧
        Verdict args i.outputDirectory c ((Metadata.ofSnapshot s).assemble c) t u result := by
  refine ⟨?_, ?_⟩
  · intro hnone
    obtain ⟨e, he⟩ := run_dump_of_not_given hnone
    exact run_of_dump hargs hverb he
  · rintro s base hgiven ⟨p, q, hdir⟩
    obtain ⟨u, hu, hartifacts⟩ := run_dump hgiven hdir
    exact ⟨i.restrict base, _, u, effective_restrict hargs base, run_of_dump hargs hverb hu,
      verdict_answer hargs (.ofSnapshot s) hdir hartifacts⟩

/-- A snapshot in the working directory, and a directory beside that one. -/
def shapesTree : FileTree where
  files := [(["work", "shapes.json"], (Json.write (Snapshot.shapes ⟨24, 0⟩)).toUTF8)]
  directories := [["out"]]
  workingDirectory := ["work"]

theorem loads_shapesTree : shapesTree.Loads "shapes.json" (Snapshot.shapes ⟨24, 0⟩) := by
  have hpath : shapesTree.resolve? "shapes.json" = some ["work", "shapes.json"] := by
    rw [FileTree.resolve?_of_relative (by decide) (by decide)]
    rfl
  refine ⟨(Json.write (Snapshot.shapes ⟨24, 0⟩)).toUTF8, ?_, ?_⟩
  · unfold FileTree.content?
    rw [hpath]
    rfl
  · have hround := Snapshot.roundTrips_of_not_float (Snapshot.literals_shapes_ne_float ⟨24, 0⟩)
    rw [Json.readBytes_toUTF8]
    exact Snapshot.read_layout hround (List.mem_cons_self ..)

theorem takes_shapesTree :
    shapesTree.Takes "/work/../out" ["out", "dump.cs"] ["out", "dump.json"] := by
  have hdirectory (name : String) :
      Files.inDirectory "/work/../out" name = "/work/../out" ++ "/" ++ name := by
    apply if_neg
    rw [Path.endsWith_iff]
    decide
  refine ⟨?_, ?_, by decide, by decide⟩
  · rw [hdirectory, FileTree.resolve?_of_absolute (by decide) (by decide)]
    rfl
  · rw [hdirectory, FileTree.resolve?_of_absolute (by decide) (by decide)]
    rfl

def shapesCommand : List String := ["dump", "shapes.json", "-o", "/work/../out", "--no-cs"]

open scoped Places in
theorem run_dump_shapes :
    (∃ c result u, Effective shapesCommand .full c ∧
      (run fileSystem shapesCommand).run shapesTree = (result, u) ∧
      Verdict shapesCommand "/work/../out" c
        ((Metadata.ofSnapshot (.shapes ⟨24, 0⟩)).assemble c) shapesTree u result) ∧
    (run fileSystem ["dump", "../shapes.json"]).run .empty = (⟨1, ""⟩, .empty) := by
  have hgiven : Invocation.Given
      ⟨.dump, [.noText], [(.outputDirectory, "/work/../out")], "shapes.json"⟩ shapesTree
      (.shapes ⟨24, 0⟩) .full := by
    refine ⟨loads_shapesTree, ?_, fun _ ↦ rfl⟩
    intro path hpath
    cases hpath
  have hmissing : FileTree.empty.content? "../shapes.json" = none := by
    unfold FileTree.content?
    rw [FileTree.resolve?_of_relative (by decide) (by decide)]
    rfl
  refine ⟨?_, ?_⟩
  · exact (run_dump_verdict _
      ⟨.dump, [.noText], [(.outputDirectory, "/work/../out")], "shapes.json"⟩
      (by decide) rfl shapesTree).2 _ _ hgiven ⟨_, _, takes_shapesTree⟩
  · refine (run_dump_verdict _ ⟨.dump, [], [], "../shapes.json"⟩ (by decide) rfl .empty).1 ?_
    rintro s base ⟨⟨bytes, hbytes, -⟩, -, -⟩
    rw [hmissing] at hbytes
    cases hbytes

end Running

end Command

end MetadataDump
