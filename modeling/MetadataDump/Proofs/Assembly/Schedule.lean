import MetadataDump.Proofs.Assembly.Memo

namespace MetadataDump

namespace Assembly

variable {α : Type} {s : Snapshot} {cache : ModifierCache}

def result? : Assembly α → Option (Except Error α)
  | .done result => some result
  | .ask .. => none

def advance : Assembly α → ModifierCache → Assembly α × ModifierCache
  | .done result, cache => (.done result, cache)
  | .ask method flags resume, cache =>
    let (answer, cache) := cache.getOrDecode method flags
    (resume answer, cache)

/-- How many questions there still are if each is answered by decoding. -/
def remaining : Assembly α → Nat
  | .done _ => 0
  | .ask _ flags resume => remaining (resume (Flags.methodModifiers flags)) + 1

theorem direct_of_result? {x : Assembly α} {r : Except Error α} (h : x.result? = some r) :
    x.direct = r := by
  cases x with
  | done r' => exact Option.some.inj h
  | ask method flags resume => cases h

/-- One answer of a sound memo changes neither the result nor the soundness of the memo. -/
theorem advance_of_sound {x : Assembly α} (hx : x.Asks s.IsMethodQuestion) (hc : cache.Sound s) :
    (x.advance cache).1.direct = x.direct ∧ (x.advance cache).1.Asks s.IsMethodQuestion ∧
      (x.advance cache).2.Sound s := by
  cases x with
  | done r => exact ⟨rfl, trivial, hc⟩
  | ask method flags resume =>
    refine ⟨?_, hx.2 _, hc.getOrDecode_snd hx.1⟩
    simp only [advance, direct, hc.getOrDecode_fst hx.1]

theorem remaining_advance_lt {x : Assembly α} (hx : x.Asks s.IsMethodQuestion)
    (hc : cache.Sound s) (hr : x.result? = none) :
    (x.advance cache).1.remaining < x.remaining := by
  cases x with
  | done r => cases hr
  | ask method flags resume =>
    simp only [advance, remaining, hc.getOrDecode_fst hx.1]
    exact Nat.lt_succ_self _

end Assembly

namespace Metadata

variable (m : Metadata) (c : Config) [Places]

def imageTasks : List (Assembly ImageDecl) :=
  m.images.zipIdx.map fun (image, index) ↦ m.assembleImage c index image

/-- What becomes of all images if each is assembled alone and all flags are decoded directly. -/
def soloOutcomes : List Outcome :=
  m.images.zipIdx.map fun (image, index) ↦
    m.outcome index image (m.assembleImage c index image).direct

def outcomesOf (results : List (Except Error ImageDecl)) : List Outcome :=
  List.zipWith (fun (image, index) result ↦ m.outcome index image result) m.images.zipIdx results

theorem outcomesOf_direct :
    m.outcomesOf ((m.imageTasks c).map Assembly.direct) = m.soloOutcomes c := by
  simp only [outcomesOf, imageTasks, soloOutcomes, List.map_map, List.zipWith_map_right,
    List.zipWith_self]
  rfl

theorem assembleFrom_of_sound {cache : ModifierCache} (hc : cache.Sound m.toSnapshot)
    (index : Nat) (images : List ImageRow) :
    (m.assembleFrom c index images cache).1 = (images.zipIdx index).map fun (image, index) ↦
      m.outcome index image (m.assembleImage c index image).direct := by
  induction images generalizing index cache with
  | nil => rfl
  | cons image images ih =>
    have h := Assembly.run_of_sound (m.asks_assembleImage c index image) hc
    simp only [assembleFrom, List.zipIdx_cons, List.map_cons, h.1, ih h.2]

theorem assemble_eq_soloOutcomes : m.assemble c = m.soloOutcomes c :=
  m.assembleFrom_of_sound c (ModifierCache.sound_empty _) 0 m.images

end Metadata

/-- The runs over all images that have begun, each with what is left of the computation of every
image, and the memo that they share. -/
structure Session where
  runs : List (List (Assembly ImageDecl))
  cache : ModifierCache

namespace Session

inductive Event
  /-- A further run over all images begins. -/
  | start
  /-- In one of the runs the memo answers the next question about an image. -/
  | answer (run image : Nat)

variable (m : Metadata) (c : Config) [Places]

def step (s : Session) : Event → Session
  | .start => { s with runs := s.runs ++ [m.imageTasks c] }
  | .answer run image =>
    match s.runs[run]? with
    | none => s
    | some tasks =>
      match tasks[image]? with
      | none => s
      | some task =>
        let (task, cache) := task.advance s.cache
        ⟨s.runs.set run (tasks.set image task), cache⟩

def after (events : List Event) : Session := events.foldl (step m c) ⟨[], .empty⟩

/-- What became of all images in a run, if nothing of it is left to do. -/
def outcomes? (s : Session) (run : Nat) : Option (List Outcome) := do
  let results ← (← s.runs[run]?).mapM Assembly.result?
  return m.outcomesOf results

/-- The memo is sound, and whatever is left of a run leads to the results of the images alone. -/
structure Sound (s : Session) : Prop where
  cache : s.cache.Sound m.toSnapshot
  direct : ∀ tasks ∈ s.runs, tasks.map Assembly.direct = (m.imageTasks c).map Assembly.direct
  asks : ∀ tasks ∈ s.runs, ∀ task ∈ tasks, task.Asks m.IsMethodQuestion

variable {m c} {s : Session}

theorem Sound.start (hs : s.Sound m c) : (s.step m c .start).Sound m c where
  cache := hs.cache
  direct tasks h := by
    rcases List.mem_append.1 h with h | h
    · exact hs.direct tasks h
    · rw [List.mem_singleton.1 h]
  asks tasks h := by
    rcases List.mem_append.1 h with h | h
    · exact hs.asks tasks h
    · rw [List.mem_singleton.1 h]
      intro task htask
      obtain ⟨⟨image, index⟩, -, rfl⟩ := List.mem_map.1 htask
      exact m.asks_assembleImage c index image

theorem Sound.set {run image : Nat} {tasks : List (Assembly ImageDecl)} {task : Assembly ImageDecl}
    (hs : s.Sound m c) (hrun : s.runs[run]? = some tasks) (himage : tasks[image]? = some task) :
    Sound m c ⟨s.runs.set run (tasks.set image (task.advance s.cache).1),
      (task.advance s.cache).2⟩ := by
  have htasks := List.mem_of_getElem? hrun
  have htask := hs.asks tasks htasks task (List.mem_of_getElem? himage)
  obtain ⟨hdirect, hasks, hcache⟩ := Assembly.advance_of_sound htask hs.cache
  have hset : (tasks.set image (task.advance s.cache).1).map Assembly.direct =
      tasks.map Assembly.direct := by
    obtain ⟨h, rfl⟩ := List.getElem?_eq_some_iff.1 himage
    rw [List.map_set, hdirect, ← List.getElem_map Assembly.direct (h := by simpa using h),
      List.set_getElem_self]
  refine ⟨hcache, fun tasks' h ↦ ?_, fun tasks' h ↦ ?_⟩
  · rcases List.mem_or_eq_of_mem_set h with h | rfl
    · exact hs.direct tasks' h
    · exact hset.trans (hs.direct tasks htasks)
  · rcases List.mem_or_eq_of_mem_set h with h | rfl
    · exact hs.asks tasks' h
    · intro task' h'
      rcases List.mem_or_eq_of_mem_set h' with h' | rfl
      · exact hs.asks tasks htasks task' h'
      · exact hasks

theorem Sound.step (hs : s.Sound m c) (event : Event) : (s.step m c event).Sound m c := by
  cases event with
  | start => exact hs.start
  | answer run image =>
    cases hrun : s.runs[run]? with
    | none => simpa only [Session.step, hrun] using hs
    | some tasks =>
      cases himage : tasks[image]? with
      | none => simpa only [Session.step, hrun, himage] using hs
      | some task => simpa only [Session.step, hrun, himage] using hs.set hrun himage

theorem sound_after (events : List Event) : (after m c events).Sound m c := by
  suffices h : ∀ s : Session, s.Sound m c → (events.foldl (Session.step m c) s).Sound m c from
    h _ ⟨ModifierCache.sound_empty _, by simp, by simp⟩
  induction events with
  | nil => exact fun s hs ↦ hs
  | cons event events ih => exact fun s hs ↦ ih _ (hs.step event)

omit [Places] in
theorem results_eq_direct {tasks : List (Assembly ImageDecl)}
    {results : List (Except Error ImageDecl)}
    (h : tasks.mapM Assembly.result? = some results) : results = tasks.map Assembly.direct := by
  induction tasks generalizing results with
  | nil => exact (Option.some.inj h).symm
  | cons task tasks ih =>
    simp only [List.mapM_cons, Option.bind_eq_bind, Option.bind_eq_some_iff] at h
    obtain ⟨result, hresult, results', hresults', he⟩ := h
    rw [List.map_cons, Assembly.direct_of_result? hresult, ← ih hresults']
    exact (Option.some.inj he).symm

theorem Sound.outcomes?_eq (hs : s.Sound m c) (run : Nat) :
    s.outcomes? m run = none ∨ s.outcomes? m run = some (m.soloOutcomes c) := by
  cases h : s.outcomes? m run with
  | none => exact .inl rfl
  | some outcomes =>
    simp only [outcomes?, Option.bind_eq_bind, Option.bind_eq_some_iff] at h
    obtain ⟨tasks, hrun, results, hresults, he⟩ := h
    rw [results_eq_direct hresults, hs.direct tasks (List.mem_of_getElem? hrun),
      m.outcomesOf_direct c] at he
    exact .inr (congrArg some (Option.some.inj he).symm)

def remaining (s : Session) : Nat :=
  (s.runs.map fun tasks ↦ (tasks.map Assembly.remaining).sum).sum

omit [Places] in
theorem sum_map_set_lt {α : Type} (f : α → Nat) {as : List α} {i : Nat} {a b : α}
    (ha : as[i]? = some a) (hb : f b < f a) : ((as.set i b).map f).sum < (as.map f).sum := by
  induction as generalizing i with
  | nil => cases ha
  | cons a' as ih =>
    cases i with
    | zero =>
      obtain rfl : a' = a := by simpa using ha
      simpa using hb
    | succ i => simpa using ih (by simpa using ha)

theorem Sound.remaining_step_lt (hs : s.Sound m c) {run image : Nat}
    {tasks : List (Assembly ImageDecl)} {task : Assembly ImageDecl}
    (hrun : s.runs[run]? = some tasks) (himage : tasks[image]? = some task)
    (hr : task.result? = none) : (s.step m c (.answer run image)).remaining < s.remaining := by
  have htask := hs.asks tasks (List.mem_of_getElem? hrun) task (List.mem_of_getElem? himage)
  simp only [Session.step, hrun, himage, remaining]
  exact sum_map_set_lt _ hrun
    (sum_map_set_lt _ himage (Assembly.remaining_advance_lt htask hs.cache hr))

omit [Places] in
theorem exists_unfinished {tasks : List (Assembly ImageDecl)}
    (h : tasks.mapM Assembly.result? = none) :
    ∃ (image : Nat) (task : Assembly ImageDecl),
      tasks[image]? = some task ∧ task.result? = none := by
  induction tasks with
  | nil => cases h
  | cons task tasks ih =>
    cases hr : task.result? with
    | none => exact ⟨0, task, rfl, hr⟩
    | some result =>
      cases hrs : tasks.mapM Assembly.result? with
      | none =>
        obtain ⟨image, task', himage, hr'⟩ := ih hrs
        exact ⟨image + 1, task', himage, hr'⟩
      | some results => simp [List.mapM_cons, hr, hrs] at h

theorem length_runs_answer (s : Session) (run image : Nat) :
    (s.step m c (.answer run image)).runs.length = s.runs.length := by
  simp only [Session.step]
  split
  · rfl
  · split
    · rfl
    · exact List.length_set

theorem Sound.exists_end (hs : s.Sound m c) : ∃ more : List Event, .start ∉ more ∧
    ∀ run < s.runs.length,
      (more.foldl (Session.step m c) s).outcomes? m run = some (m.soloOutcomes c) := by
  induction hn : s.remaining using Nat.strongRecOn generalizing s with
  | ind n ih =>
    by_cases h : ∃ run < s.runs.length, s.outcomes? m run = none
    · obtain ⟨run, hlt, hrun⟩ := h
      have htasks : s.runs[run]? = some s.runs[run] := List.getElem?_eq_getElem hlt
      have hresults : s.runs[run].mapM Assembly.result? = none :=
        Option.eq_none_iff_forall_ne_some.2 (by simpa [outcomes?, htasks] using hrun)
      obtain ⟨image, task, himage, hr⟩ := exists_unfinished hresults
      obtain ⟨more, hmore, hend⟩ := ih _ (hn ▸ hs.remaining_step_lt htasks himage hr)
        (hs.step (.answer run image)) rfl
      refine ⟨.answer run image :: more, by simpa using hmore, fun run' hrun' ↦ hend run' ?_⟩
      rwa [length_runs_answer]
    · exact ⟨[], by simp, fun run hrun ↦
        (hs.outcomes?_eq run).resolve_left fun hnone ↦ h ⟨run, hrun, hnone⟩⟩

/-- Sharing a memo and running at the same time cannot be seen in the outcomes. Whatever has
happened in a session, with runs that ended, failed half-way or are still under way, a run that
ends has one outcome for every image in order, which is that of the image alone; every run under
way can end; and a further run or a single image on the memo as it is gives the same as alone. -/
theorem outcomes_of_schedule (m : Metadata) (c : Config) (events : List Event) :
    (∀ run, (after m c events).outcomes? m run = none ∨
      (after m c events).outcomes? m run = some (m.soloOutcomes c)) ∧
    (∃ more : List Event, .start ∉ more ∧ ∀ run < (after m c events).runs.length,
      (after m c (events ++ more)).outcomes? m run = some (m.soloOutcomes c)) ∧
    m.assemble c = m.soloOutcomes c ∧
    (m.assembleFrom c 0 m.images (after m c events).cache).1 = m.soloOutcomes c ∧
    ∀ index image, ((m.assembleImage c index image).run (after m c events).cache).1 =
      (m.assembleImage c index image).direct := by
  have hs := sound_after (m := m) (c := c) events
  refine ⟨hs.outcomes?_eq, ?_, m.assemble_eq_soloOutcomes c,
    m.assembleFrom_of_sound c hs.cache 0 m.images,
    fun index image ↦ (Assembly.run_of_sound (m.asks_assembleImage c index image) hs.cache).1⟩
  obtain ⟨more, hmore, hend⟩ := hs.exists_end
  exact ⟨more, hmore, by simpa only [after, List.foldl_append] using hend⟩

end Session

end MetadataDump
