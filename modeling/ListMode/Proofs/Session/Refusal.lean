import ListMode.Proofs.Session.Ownership
import ListMode.Proofs.Session.Time

/-!
# Calls that do not start

What a call sees by its own steps before it sets a worker going decides whether it fails, and how: it
is let in or not, there are producers that can run or not, and each of them accepts or refuses to
start. A call that fails so far has no worker and leaves nothing behind, whoever does what in the
meantime.
-/

namespace ListMode

/-- What a call sees by a step. -/
inductive Sight where
  /-- The phase of the session when the call begins. -/
  | phase (p : Phase)
  /-- Places of the producers that can run. -/
  | runnable (places : List Nat)
  /-- The producer at a place has been asked to start. -/
  | answer (i : Nat) (accepted : Bool)
  /-- Every producer that can run has been asked. -/
  | tried

namespace Sight

/-- What is seen by a call that is let in and asks producers, as long as `todo` are left. -/
def tries (answers : List (Nat × Bool)) (todo : List Nat) : List Sight :=
  .phase .idle :: .runnable (answers.map (·.1) ++ todo) :: answers.map fun a => .answer a.1 a.2

theorem answer_mem_tries {answers : List (Nat × Bool)} {i : Nat} (h : (i, true) ∈ answers)
    (todo : List Nat) : .answer i true ∈ tries answers todo :=
  List.mem_cons_of_mem _ (List.mem_cons_of_mem _ (List.mem_map.mpr ⟨(i, true), h, rfl⟩))

/-- What is seen by a call that every producer refuses. -/
def refusals (places : List Nat) : List Sight :=
  [.phase .idle, .runnable places] ++ places.map (.answer · false) ++ [.tried]

end Sight

namespace Run.Stage

/-- The call has not got its worker going, and has not failed. -/
def isUndecided : Run.Stage → Bool
  | .called | .opening | .starting .. => true
  | _ => false

/-- The call has set its worker going, and goes on or has ended by itself. -/
def isLaunched : Run.Stage → Bool
  | .called | .opening | .starting .. | .dropped => false
  | .returned (.error .sessionBusy) | .returned (.error .noRunnableProducer)
  | .returned (.error .noProducerStarted) => false
  | _ => true

/-- How far a call comes by what it has seen. -/
inductive Story : List Sight → Run.Stage → Prop where
  | called : Story [] .called
  | busy {p : Phase} (hbusy : p ≠ .idle) : Story [.phase p] (.returned (.error .sessionBusy))
  | opening : Story [.phase .idle] .opening
  | nobody : Story [.phase .idle, .runnable []] (.returned (.error .noRunnableProducer))
  | starting {o : Opened} {answers : List (Nat × Bool)} {todo : List Nat}
      (hsome : answers.map (·.1) ++ todo ≠ []) :
      Story (Sight.tries answers todo) (.starting o todo ((answers.filter (·.2)).map (·.1)))
  | refused {places : List Nat} (hsome : places ≠ []) :
      Story (Sight.refusals places) (.returned (.error .noProducerStarted))
  | launched {answers : List (Nat × Bool)} {stage : Run.Stage} (hsome : ∃ i, (i, true) ∈ answers)
      (hstage : stage.isLaunched = true) : Story (Sight.tries answers [] ++ [.tried]) stage
  | dropped {seen : List Sight} {stage : Run.Stage} (h : Story seen stage)
      (hover : stage.isOver = false) : Story seen .dropped

end Run.Stage

namespace Session

/-- What a call at this stage sees by its next step. -/
def sightsAt (s : Session) : Run.Stage → List Sight
  | .called => [.phase s.phase]
  | .opening => [.runnable s.runnable]
  | .starting o (i :: _) _ => [.answer i (s.startProducer i o.queue).1]
  | .starting _ [] _ => [.tried]
  | _ => []

/-- What call `r` sees by an action. -/
def sights (r : Nat) (m : Session × Act) : List Sight :=
  match m.2 with
  | .run r' => if r' = r then ((m.1.runs[r]?).map fun run => m.1.sightsAt run.stage).getD [] else []
  | _ => []

/-- What call `r` has seen by what has been done. -/
def seen (r : Nat) (past : List (Session × Act)) : List Sight := past.flatMap (sights r)

/-- A step of call `r` leaves the producers, the other calls and all queues but its own alone. -/
structure Spares (r : Nat) (s s' : Session) : Prop where
  producers_eq : s'.producers = s.producers
  detectors_eq : s'.detectors = s.detectors
  timing_eq : s'.timing = s.timing
  time_eq : s'.time = s.time
  runs_eq : ∀ j ≠ r, s'.runs[j]? = s.runs[j]?
  queue_eq : ∀ n < s.queues.length, (∀ run, s.runs[r]? = some run → ¬run.Owns n) →
    s'.queue n = s.queue n

end Session

namespace Session

section

variable {s s' t : Session} {a : Act} {r : Nat} {run : Run} {acts : List Act}

/-! ## Steps that spare the session -/

theorem spares_setStage (hrun : s.runs[r]? = some run) {t : Session} (stage : Run.Stage)
    (hproducers : t.producers = s.producers) (hdetectors : t.detectors = s.detectors)
    (hclock : t.time = s.time ∧ t.timing = s.timing) (hruns : t.runs = s.runs)
    (hqueue : ∀ n < s.queues.length, ¬run.Owns n → t.queue n = s.queue n) :
    s.Spares r (t.setStage r stage) := by
  refine ⟨hproducers, hdetectors, hclock.2, hclock.1, fun j hj => ?_, fun n hn hown => ?_⟩
  · rw [runs_setStage (hruns ▸ hrun), if_neg (Ne.symm hj), hruns]
  · exact hqueue n hn (hown run hrun)

/-- A start that is refused leaves the producers and the queues alone. -/
theorem startProducer_refused {i n : Nat} (h : (s.startProducer i n).1 = false) :
    (s.startProducer i n).2.producers = s.producers ∧
      (s.startProducer i n).2.detectors = s.detectors ∧
      (s.startProducer i n).2.queues = s.queues := by
  unfold startProducer at h ⊢
  cases hp : s.producers[i]? with
  | none => exact ⟨rfl, rfl, rfl⟩
  | some p =>
    rw [hp] at h
    have hrefused := Producer.start_refused h
    obtain ⟨hi, rfl⟩ := List.getElem?_eq_some_iff.mp hp
    dsimp only
    rw [hrefused]
    exact ⟨List.set_getElem_self hi, rfl, rfl⟩

/-- A step of a call that has no worker, is undecided, and is not accepted by a producer spares the
rest of the session. -/
theorem spares_of_steps (hrun : s.runs[r]? = some run) (hs : s.Steps r run s')
    (hundecided : run.stage.isUndecided = true)
    (hrefused : ∀ i, .answer i true ∉ s.sightsAt run.stage)
    (hnone : ∀ o started, run.stage = .starting o [] started → started = []) :
    s.Spares r s' := by
  cases hs with
  | turn hturn => exact spares_setStage hrun _ rfl rfl ⟨rfl, rfl⟩ rfl fun _ _ _ => rfl
  | openRun hst =>
    unfold openRun
    split
    · exact spares_setStage hrun _ rfl rfl ⟨rfl, rfl⟩ rfl fun _ _ _ => rfl
    · refine spares_setStage hrun _ rfl rfl ⟨rfl, rfl⟩ rfl fun n hn _ => ?_
      have hlen : n < (s.queues ++ [Handoff.new]).length := by
        rw [List.length_append]
        omega
      unfold put
      rw [queue_setQueue _ _ _ hlen, if_neg (by show s.queues.length ≠ n; omega)]
      show (s.queues ++ [Handoff.new]).getD n .new = s.queues.getD n .new
      rw [List.getD_eq_getElem?_getD, List.getD_eq_getElem?_getD, List.getElem?_append_left hn]
  | @start o i todo started hst =>
    have hanswer : (s.startProducer i o.queue).1 = false := by
      refine Bool.eq_false_iff.mpr fun haccepted => hrefused i ?_
      rw [hst, sightsAt, haccepted]
      exact List.mem_singleton.mpr rfl
    obtain ⟨hproducers, hdetectors, hqueues⟩ := startProducer_refused hanswer
    refine spares_setStage hrun _ hproducers hdetectors (clock_startProducer s i o.queue)
      (rests_startProducer s i o.queue).2 fun n _ _ => ?_
    unfold queue
    rw [hqueues]
  | @launchRun o started hst =>
    obtain rfl := hnone o started hst
    refine spares_setStage hrun _ rfl rfl ⟨rfl, rfl⟩ rfl fun n hn hown => ?_
    refine (queue_setQueue s o.queue _ hn).trans (if_neg fun he => hown (.inl ?_))
    rw [hst, ← he]
    rfl
  | ask hst | await hst | closeRun hst | stopQueue hst | sealRun hst =>
    rw [hst] at hundecided
    nomatch hundecided

/-! ## The story of a call -/

theorem seen_append (past past' : List (Session × Act)) :
    seen r (past ++ past') = seen r past ++ seen r past' := List.flatMap_append

theorem sights_own (hrun : s.runs[r]? = some run) :
    sights r (s, .run r) = s.sightsAt run.stage := by
  show (if r = r then ((s.runs[r]?).map fun run => s.sightsAt run.stage).getD [] else []) = _
  rw [if_pos rfl, hrun]
  rfl

theorem sights_other (ha : a ≠ .run r) : sights r (s, a) = [] := by
  cases a with
  | run r' => exact if_neg fun he => ha (congrArg Act.run he)
  | _ => rfl

theorem stage_setStage (hrun : s.runs[r]? = some run) {t : Session} (hruns : t.runs = s.runs)
    (stage : Run.Stage) :
    ∃ run', (t.setStage r stage).runs[r]? = some run' ∧ run'.stage = stage ∧
      run'.worker = run.worker :=
  ⟨{ run with stage }, (runs_setStage (hruns ▸ hrun) stage r).trans (if_pos rfl), rfl, rfl⟩

/-- A launched call goes on as one, and sees nothing more. -/
theorem launched_of_steps (hrun : s.runs[r]? = some run) (hs : s.Steps r run s')
    (hlaunched : run.stage.isLaunched = true) :
    ∃ run', s'.runs[r]? = some run' ∧ run'.stage.isLaunched = true := by
  have hstage : ∀ {t : Session} {stage : Run.Stage}, t.runs = s.runs → stage.isLaunched = true →
      ∃ run', (t.setStage r stage).runs[r]? = some run' ∧ run'.stage.isLaunched = true := by
    intro t stage hruns hstage
    obtain ⟨run', hrun', hst, -⟩ := stage_setStage hrun hruns stage
    exact ⟨run', hrun', hst ▸ hstage⟩
  cases hs with
  | turn hturn =>
    refine hstage rfl ?_
    cases hturn with
    | letIn hst | refuse hst =>
      rw [hst] at hlaunched
      nomatch hlaunched
    | _ => rfl
  | openRun hst | start hst | launchRun hst =>
    rw [hst] at hlaunched
    nomatch hlaunched
  | @ask e i => exact hstage (rests_askProducer s i).2 rfl
  | await hst hawait => exact hstage (rests_awaitProducer hawait).2 rfl
  | closeRun => exact hstage rfl rfl
  | stopQueue => exact hstage rfl rfl
  | sealRun =>
    exact ⟨_, (runs_setRun (s := { s with phase := .idle }) hrun _ r).trans (if_pos rfl), rfl⟩

theorem sightsAt_launched {stage : Run.Stage} (h : stage.isUndecided = false) :
    s.sightsAt stage = [] := by
  cases stage with
  | called | opening | starting => nomatch h
  | _ => rfl

/-- What a step of a call, which is `run`, makes of it when it has seen `seen` with that step. Without
an acceptance it sets no worker going, and when it fails the phase is the one that it found. -/
structure Continues (r : Nat) (run : Run) (seen : List Sight) (s' : Session) : Prop where
  story : ∃ run', s'.runs[r]? = some run' ∧ run'.stage.Story seen ∧
    ((∀ i, .answer i true ∉ seen) → run.worker = none → run'.worker = none)
  phase : ∀ run' fault, s'.runs[r]? = some run' → run'.stage = .returned (.error fault) →
    run'.stage.isLaunched = false → ∃ rest, seen = .phase s'.phase :: rest

theorem continues_setStage (hrun : s.runs[r]? = some run) {t : Session} {stage : Run.Stage}
    {seen : List Sight} (hruns : t.runs = s.runs) (h : stage.Story seen)
    (hphase : ∀ fault, stage = .returned (.error fault) → ∃ rest, seen = .phase t.phase :: rest) :
    Continues r run seen (t.setStage r stage) := by
  obtain ⟨run', hrun', hst, hworker⟩ := stage_setStage hrun hruns stage
  refine ⟨⟨run', hrun', hst ▸ h, fun _ hnone => hworker.trans hnone⟩,
    fun x fault hx hfault _ => ?_⟩
  obtain rfl := Option.some.inj (hrun'.symm.trans hx)
  exact hphase fault (hst ▸ hfault)

theorem continues_begin (hrun : s.runs[r]? = some run) :
    Continues r run [.phase s.phase] (s.begin r) := by
  unfold begin
  split
  · rename_i hidle
    rw [hidle]
    exact continues_setStage hrun (t := { s with phase := .starting }) rfl .opening fun _ => nofun
  · rename_i hbusy
    exact continues_setStage hrun rfl (.busy hbusy) fun _ _ => ⟨[], rfl⟩

theorem continues_openRun (hrun : s.runs[r]? = some run) :
    Continues r run [.phase .idle, .runnable s.runnable] (s.openRun r run) := by
  unfold openRun
  split
  · rename_i hnone
    rw [List.isEmpty_iff.mp hnone]
    exact continues_setStage hrun (t := { s with phase := .idle }) rfl .nobody fun _ _ => ⟨_, rfl⟩
  · rename_i hsome
    have hsome : s.runnable ≠ [] := fun he => hsome (List.isEmpty_iff.mpr he)
    have hstory : (Run.Stage.starting ⟨RunInfo.opening run.id s.now s.detectors s.snapshot,
        s.queues.length⟩ s.runnable []).Story (Sight.tries [] s.runnable) := .starting hsome
    exact continues_setStage hrun rfl hstory fun _ => nofun

theorem continues_start (hrun : s.runs[r]? = some run) {o : Opened} {i : Nat} {todo : List Nat}
    {answers : List (Nat × Bool)} {accepted : Bool} {t : Session} (hruns : t.runs = s.runs) :
    Continues r run (Sight.tries answers (i :: todo) ++ [.answer i accepted])
      (t.setStage r (.starting o todo (if accepted then (answers.filter (·.2)).map (·.1) ++ [i]
        else (answers.filter (·.2)).map (·.1)))) := by
  have hseen : Sight.tries answers (i :: todo) ++ [.answer i accepted] =
      Sight.tries (answers ++ [(i, accepted)]) todo := by
    simp [Sight.tries]
  have hstarted : (if accepted then (answers.filter (·.2)).map (·.1) ++ [i]
      else (answers.filter (·.2)).map (·.1)) =
      ((answers ++ [(i, accepted)]).filter (·.2)).map (·.1) := by
    cases accepted with
    | true => simp
    | false => simp
  have hsome : (answers ++ [(i, accepted)]).map (·.1) ++ todo ≠ [] := by simp
  rw [hseen, hstarted]
  exact continues_setStage hrun hruns (.starting hsome) fun _ => nofun

theorem continues_launchRun (hrun : s.runs[r]? = some run) {o : Opened}
    {answers : List (Nat × Bool)} (hsome : answers.map (·.1) ++ [] ≠ []) :
    Continues r run (Sight.tries answers [] ++ [.tried])
      (s.launchRun r run o ((answers.filter (·.2)).map (·.1))) := by
  rw [List.append_nil] at hsome
  unfold launchRun
  split
  · rename_i hnone
    have hfalse : ∀ e ∈ answers, e.2 = false := by
      have hfilter := List.map_eq_nil_iff.mp (List.isEmpty_iff.mp hnone)
      exact fun e he => Bool.eq_false_iff.mpr (List.filter_eq_nil_iff.mp hfilter e he)
    have hanswers : answers.map (fun a => Sight.answer a.1 a.2) =
        (answers.map (·.1)).map (Sight.answer · false) := by
      rw [List.map_map]
      exact List.map_congr_left fun e he => congrArg (Sight.answer e.1) (hfalse e he)
    have hseen : Sight.tries answers [] ++ [.tried] = Sight.refusals (answers.map (·.1)) := by
      rw [Sight.tries, hanswers, List.append_nil]
      rfl
    rw [hseen]
    exact continues_setStage hrun (t := { s.setQueue o.queue (s.queue o.queue).stop with
      phase := .idle }) rfl (.refused hsome) fun _ _ => ⟨_, rfl⟩
  · rename_i hstarted
    obtain ⟨i, hi⟩ : ∃ i, (i, true) ∈ answers := by
      obtain ⟨i, hi⟩ := List.exists_mem_of_ne_nil _ fun he => hstarted (List.isEmpty_iff.mpr he)
      obtain ⟨⟨j, accepted⟩, he, rfl⟩ := List.mem_map.mp hi
      obtain ⟨hmem, haccepted⟩ := List.mem_filter.mp he
      obtain rfl : accepted = true := haccepted
      exact ⟨j, hmem⟩
    have hrun' := fun run' => (runs_setRun (s := { s with phase := .running }) hrun run' r).trans
      (if_pos rfl)
    refine ⟨⟨_, hrun' _, .launched ⟨i, hi⟩ rfl, fun hno => absurd ?_ (hno i)⟩,
      fun x fault hx hst _ => ?_⟩
    · exact List.mem_append_left _ (Sight.answer_mem_tries hi [])
    · obtain rfl := Option.some.inj ((hrun' _).symm.trans hx)
      nomatch hst

/-- A step of a call takes its story one step further. -/
theorem continues_of_step {seen : List Sight} (h : run.stage.Story seen)
    (hrun : s.runs[r]? = some run) (hs : s.step? r = some s') :
    Continues r run (seen ++ s.sightsAt run.stage) s' := by
  obtain ⟨x, hx, hsteps⟩ := steps_of_step? hs
  obtain rfl := Option.some.inj (hrun.symm.trans hx)
  unfold step? at hs
  rw [hrun, Option.bind_eq_bind, Option.bind_some] at hs
  cases hst : run.stage with
  | called =>
    rw [hst] at hs h
    obtain rfl := Option.some.inj hs
    cases h with
    | called => exact continues_begin hrun
    | launched _ hstage => nomatch hstage
  | opening =>
    rw [hst] at hs h
    obtain rfl := Option.some.inj hs
    cases h with
    | opening => exact continues_openRun hrun
    | launched _ hstage => nomatch hstage
  | starting o todo started =>
    rw [hst] at hs h
    cases h with
    | starting hsome =>
      cases todo with
      | nil =>
        obtain rfl := Option.some.inj hs
        exact continues_launchRun hrun hsome
      | cons i todo =>
        obtain rfl := Option.some.inj hs
        exact continues_start hrun (rests_startProducer s i o.queue).2
    | launched _ hstage => nomatch hstage
  | returned result =>
    rw [hst] at hs
    nomatch hs
  | dropped =>
    rw [hst] at hs
    nomatch hs
  | crashed =>
    rw [hst] at hs
    nomatch hs
  | _ =>
    -- Any other call has been launched.
    have hlaunched : run.stage.isLaunched = true := hst ▸ rfl
    obtain ⟨run', hrun', hlaunched'⟩ := launched_of_steps hrun hsteps hlaunched
    rw [hst] at h
    cases h with
    | launched hsome =>
      refine ⟨⟨run', hrun', ?_, fun hno => ?_⟩, fun x fault hx _ hno => ?_⟩
      · rw [sightsAt_launched rfl, List.append_nil]
        exact .launched hsome hlaunched'
      · obtain ⟨i, hi⟩ := hsome
        have hmem := Sight.answer_mem_tries hi []
        exact absurd (List.mem_append_left _ (List.mem_append_left _ hmem)) (hno i)
      · obtain rfl := Option.some.inj (hrun'.symm.trans hx)
        nomatch hlaunched'.symm.trans hno

theorem map_modify_eq {α β : Type} {f : α → β} {g : α → α} (h : ∀ x, f (g x) = f x) (l : List α)
    (i : Nat) : (l.modify i g).map f = l.map f := by
  refine List.ext_getElem? fun j => ?_
  rw [List.getElem?_map, List.getElem?_map, List.getElem?_modify, Option.map_eq_map, Option.map_map]
  refine congrArg (Option.map · l[j]?) (funext fun x => ?_)
  rw [Function.comp]
  split
  · exact h x
  · rfl

/-- Nobody else sets a worker going for a call. -/
theorem worker_of_act (hrun : s.runs[r]? = some run) (hnone : run.worker = none)
    (ha : s.act? a = some s') (hother : a ≠ .run r) :
    ∀ run', s'.runs[r]? = some run' → run'.worker = none := by
  have hsame : s'.runs[r]? = s.runs[r]? → ∀ run', s'.runs[r]? = some run' → run'.worker = none := by
    intro hsame run' hrun'
    obtain rfl := Option.some.inj (hrun.symm.trans (hsame.symm.trans hrun'))
    exact hnone
  have hworkers : s'.runs.map (·.worker) = s.runs.map (·.worker) →
      ∀ run', s'.runs[r]? = some run' → run'.worker = none := by
    intro hworkers run' hrun'
    have hat := congrArg (fun l : List (Option Worker) => l[r]?) hworkers
    simp only [List.getElem?_map, hrun, hrun', Option.map_some, Option.some_inj] at hat
    exact hat.trans hnone
  cases a with
  | run r' =>
    obtain ⟨x, hx, hs⟩ := steps_of_step? ha
    exact hsame (runs_of_steps hx hs fun he => hother (congrArg Act.run he))
  | work r' =>
    refine hsame (runs_of_work ha fun he => ?_)
    subst he
    obtain ⟨x, hx, hs⟩ := Option.bind_eq_some_iff.mp (show s.work? r' = some s' from ha)
    obtain rfl := Option.some.inj (hrun.symm.trans hx)
    obtain ⟨w, hw, -⟩ := Option.bind_eq_some_iff.mp hs
    nomatch hnone.symm.trans hw
  | cancel r' =>
    obtain rfl := Option.some.inj ha
    exact hworkers (map_modify_eq (g := fun run => { run with cancelled := true }) (fun _ => rfl)
      s.runs r')
  | drop r' =>
    obtain rfl := Option.some.inj ha
    have hdropped : (s.runs.modify r' fun run => { run with stage := .dropped }).map (·.worker) =
        s.runs.map (·.worker) :=
      map_modify_eq (g := fun run => { run with stage := .dropped }) (fun _ => rfl) s.runs r'
    refine hworkers ?_
    unfold drop
    split
    · rfl
    · split
      · rfl
      · rfl
      · rfl
      · exact hdropped
      · exact hdropped
  | call id timeout faulty =>
    obtain rfl := Option.some.inj ha
    exact hsame (List.getElem?_append_left (List.getElem?_eq_some_iff.mp hrun).1)
  | tick | notice | wait | boot | write | start | ask | await | shutdown =>
    exact hsame (congrArg (·[r]?) (rests_of_act ha rfl fun _ _ _ => nofun).2)

/-- As long as nobody has accepted, the steps of a call spare the rest of the session. -/
theorem spares_of_story {seen : List Sight} (h : run.stage.Story seen)
    (hrun : s.runs[r]? = some run) (hs : s.step? r = some s')
    (hno : ∀ i, .answer i true ∉ seen ++ s.sightsAt run.stage) : s.Spares r s' := by
  obtain ⟨x, hx, hsteps⟩ := steps_of_step? hs
  obtain rfl := Option.some.inj (hrun.symm.trans hx)
  have hsights : ∀ i, .answer i true ∉ s.sightsAt run.stage := fun i hi =>
    hno i (List.mem_append_right _ hi)
  have hgoes : run.stage.isOver = false := by
    refine Bool.eq_false_iff.mpr fun hover => ?_
    nomatch (step?_eq_none hrun hover).symm.trans hs
  generalize hst : run.stage = stage at h
  cases h with
  | called | opening =>
    refine spares_of_steps hrun hsteps (hst ▸ rfl) hsights fun o started he => ?_
    nomatch hst.symm.trans he
  | @starting o answers todo =>
    refine spares_of_steps hrun hsteps (hst ▸ rfl) hsights fun o' started he => ?_
    obtain ⟨-, rfl, rfl⟩ := Run.Stage.starting.inj (hst.symm.trans he)
    refine List.map_eq_nil_iff.mpr (List.filter_eq_nil_iff.mpr fun e hmem haccepted => ?_)
    obtain ⟨i, accepted⟩ := e
    obtain rfl : accepted = true := haccepted
    exact hno i (List.mem_append_left _ (Sight.answer_mem_tries hmem _))
  | launched hsome =>
    obtain ⟨i, hi⟩ := hsome
    have hmem := Sight.answer_mem_tries hi []
    exact absurd (List.mem_append_left _ (List.mem_append_left _ hmem)) (hno i)
  | busy | nobody | refused | dropped =>
    rw [hst] at hgoes
    nomatch hgoes

/-- What holds of call `r` after what has been done. -/
structure Told (r : Nat) (past : List (Session × Act)) (s : Session) : Prop where
  story : ∃ run, s.runs[r]? = some run ∧ run.stage.Story (seen r past) ∧
    ((∀ i, .answer i true ∉ seen r past) → run.worker = none)
  spared : (∀ i, .answer i true ∉ seen r past) → ∀ m ∈ past, m.2 = .run r →
    ∀ y, m.1.act? m.2 = some y → m.1.Spares r y
  phase : ∀ m ∈ past, m.2 = .run r → ∀ y run' fault, m.1.act? m.2 = some y →
    y.runs[r]? = some run' → run'.stage = .returned (.error fault) →
    run'.stage.isLaunched = false → ∃ rest, seen r past = .phase y.phase :: rest

variable {past : List (Session × Act)}

theorem Told.step (h : Told r past s) (hs : s.step? r = some s') :
    Told r (past ++ [(s, .run r)]) s' := by
  obtain ⟨run, hrun, hstory, hworker⟩ := h.story
  have hcontinues := continues_of_step hstory hrun hs
  have hseen : seen r (past ++ [(s, .run r)]) = seen r past ++ s.sightsAt run.stage := by
    rw [seen_append, ← sights_own hrun]
    exact congrArg (seen r past ++ ·) (List.flatMap_singleton _ _)
  refine ⟨?_, fun hno => ?_, ?_⟩
  · obtain ⟨run', hrun', hstory', hworker'⟩ := hcontinues.story
    rw [hseen]
    refine ⟨run', hrun', hstory', fun hno => hworker' hno (hworker fun i hi => hno i ?_)⟩
    exact List.mem_append_left _ hi
  · rw [hseen] at hno
    have hbefore : ∀ i, .answer i true ∉ seen r past := fun i hi => hno i (List.mem_append_left _ hi)
    intro m hm hown y hy
    rcases List.mem_append.mp hm with hm | hm
    · exact h.spared hbefore m hm hown y hy
    · obtain rfl := List.mem_singleton.mp hm
      obtain rfl := Option.some.inj (hs.symm.trans hy)
      exact spares_of_story hstory hrun hs hno
  · intro m hm hown y run' fault hy hrun' hst hlaunched
    rw [hseen]
    rcases List.mem_append.mp hm with hm | hm
    · obtain ⟨rest, hrest⟩ := h.phase m hm hown y run' fault hy hrun' hst hlaunched
      exact ⟨rest ++ s.sightsAt run.stage, by rw [hrest]; rfl⟩
    · obtain rfl := List.mem_singleton.mp hm
      obtain rfl := Option.some.inj (hs.symm.trans hy)
      exact hcontinues.phase run' fault hrun' hst hlaunched

theorem Told.other (h : Told r past s) (ha : s.act? a = some s') (hother : a ≠ .run r) :
    Told r (past ++ [(s, a)]) s' := by
  obtain ⟨run, hrun, hstory, hworker⟩ := h.story
  have hseen : seen r (past ++ [(s, a)]) = seen r past := by
    have hnone : seen r [(s, a)] = [] :=
      (List.flatMap_singleton (sights r) (s, a)).trans (sights_other hother)
    rw [seen_append, hnone, List.append_nil]
  have hnew : ∀ m ∈ past ++ [(s, a)], m.2 = .run r → m ∈ past := by
    intro m hm hown
    refine (List.mem_append.mp hm).resolve_right fun hm => hother ?_
    rw [← hown, List.mem_singleton.mp hm]
  rw [← hseen] at hstory hworker
  refine ⟨?_, fun hno m hm hown => ?_, fun m hm hown => ?_⟩
  · have hkeeps : ∀ run', s'.runs[r]? = some run' →
        (∀ i, .answer i true ∉ seen r (past ++ [(s, a)])) → run'.worker = none :=
      fun run' hrun' hno => worker_of_act hrun (hworker hno) ha hother run' hrun'
    cases meets_act hrun ha with
    | steps => exact absurd rfl hother
    | drops hover hrun' => exact ⟨_, hrun', .dropped hstory hover, hkeeps _ hrun'⟩
    | cancels hrun' => exact ⟨_, hrun', hstory, hkeeps _ hrun'⟩
    | rests _ hrun' => exact ⟨_, hrun', hstory, hkeeps _ hrun'⟩
  · rw [hseen] at hno
    exact h.spared hno m (hnew m hm hown) hown
  · rw [hseen]
    exact h.phase m (hnew m hm hown) hown

theorem told_after {id : RunId} {timeout : Option Nat} {faulty : Bool}
    (hacts : (s.call id timeout faulty).2.after? acts = some t) :
    Told s.runs.length ((s.call id timeout faulty).2.moments acts) t := by
  refine after_induction (P := fun past x => Told s.runs.length past x) ?_ ?_ hacts
  · have hrun : (s.call id timeout faulty).2.runs[s.runs.length]? =
        some ⟨id, timeout, false, faulty, .called, none⟩ := by
      show (s.runs ++ [_])[s.runs.length]? = _
      rw [List.getElem?_append_right (Nat.le_refl _), Nat.sub_self]
      rfl
    exact ⟨⟨_, hrun, .called, fun _ => rfl⟩, fun _ => nofun, nofun⟩
  · intro past x a y h ha
    by_cases hown : a = .run s.runs.length
    · subst hown
      exact h.step ha
    · exact h.other ha hown

/-! ## How a call fails -/

theorem busy_iff {seen : List Sight} {stage : Run.Stage} (h : stage.Story seen) :
    stage = .returned (.error .sessionBusy) ↔ ∃ p, p ≠ .idle ∧ seen = [.phase p] := by
  induction h with
  | busy hbusy => exact iff_of_true rfl ⟨_, hbusy, rfl⟩
  | opening =>
    refine iff_of_false nofun fun ⟨p, hp, he⟩ => hp ?_
    exact (Sight.phase.inj (List.cons.inj he).1).symm
  | called | nobody | starting | refused => exact iff_of_false nofun fun ⟨p, hp, he⟩ => nomatch he
  | launched _ hstage =>
    refine iff_of_false (fun hst => ?_) fun ⟨p, hp, he⟩ => nomatch he
    rw [hst] at hstage
    nomatch hstage
  | dropped _ hover ih =>
    refine iff_of_false nofun fun hseen => ?_
    rw [ih.mpr hseen] at hover
    nomatch hover

theorem nobody_iff {seen : List Sight} {stage : Run.Stage} (h : stage.Story seen) :
    stage = .returned (.error .noRunnableProducer) ↔ seen = [.phase .idle, .runnable []] := by
  induction h with
  | nobody => exact iff_of_true rfl rfl
  | @starting o answers todo hsome =>
    refine iff_of_false nofun fun he => hsome ?_
    exact Sight.runnable.inj (List.cons.inj (List.cons.inj he).2).1
  | called | busy | opening | refused => exact iff_of_false nofun nofun
  | launched _ hstage =>
    refine iff_of_false (fun hst => ?_) fun he => ?_
    · rw [hst] at hstage
      nomatch hstage
    · nomatch (List.append_eq_nil_iff.mp (List.cons.inj (List.cons.inj he).2).2).2
  | dropped _ hover ih =>
    refine iff_of_false nofun fun hseen => ?_
    rw [ih.mpr hseen] at hover
    nomatch hover

theorem refused_iff {seen : List Sight} {stage : Run.Stage} (h : stage.Story seen) :
    stage = .returned (.error .noProducerStarted) ↔
      ∃ places, places ≠ [] ∧ seen = Sight.refusals places := by
  have hlast : ∀ {answers : List (Nat × Bool)} {todo places : List Nat},
      Sight.tries answers todo ≠ Sight.refusals places := by
    intro answers todo places he
    have htried : Sight.tried ∈ Sight.tries answers todo := by
      rw [he]
      exact List.mem_append_right _ (List.mem_singleton.mpr rfl)
    simp [Sight.tries] at htried
  induction h with
  | refused hsome => exact iff_of_true rfl ⟨_, hsome, rfl⟩
  | called | busy | opening | nobody => exact iff_of_false nofun fun ⟨_, _, he⟩ => nomatch he
  | starting => exact iff_of_false nofun fun ⟨_, _, he⟩ => hlast he
  | launched hsome hstage =>
    refine iff_of_false (fun hst => ?_) fun ⟨places, _, he⟩ => ?_
    · rw [hst] at hstage
      nomatch hstage
    · obtain ⟨i, hi⟩ := hsome
      have haccepted : Sight.answer i true ∈ Sight.refusals places := by
        rw [← he]
        exact List.mem_append_left _ (Sight.answer_mem_tries hi [])
      simp [Sight.refusals] at haccepted
  | dropped _ hover ih =>
    refine iff_of_false nofun fun hseen => ?_
    rw [ih.mpr hseen] at hover
    nomatch hover

theorem result?_iff {result : Except Fault Outcome} :
    run.result? = some result ↔ run.stage = .returned result := by
  refine ⟨Run.stage_eq_of_result?, fun hst => ?_⟩
  unfold Run.result?
  rw [hst]

/-- A call that is undecided can go on. -/
theorem step?_isSome (hrun : s.runs[r]? = some run) (h : run.stage.isUndecided = true) :
    (s.step? r).isSome = true := by
  unfold step?
  rw [hrun, Option.bind_eq_bind, Option.bind_some]
  cases hst : run.stage with
  | called | opening => rfl
  | starting o todo started =>
    cases todo with
    | nil | cons => rfl
  | _ =>
    rw [hst] at h
    nomatch h

/-- A call that has ended stays as it has ended. -/
theorem ended_after (hrun : s.runs[r]? = some run) (hover : run.stage.isOver = true)
    (hnone : run.worker = none) (hacts : s.after? acts = some t) :
    ∃ run', t.runs[r]? = some run' ∧ run'.stage = run.stage ∧ run'.worker = none := by
  induction acts generalizing s run with
  | nil =>
    obtain rfl := Option.some.inj hacts
    exact ⟨run, hrun, rfl, hnone⟩
  | cons a rest ih =>
    obtain ⟨s₁, hs₁, hrest⟩ := Option.bind_eq_some_iff.mp hacts
    have hother : a ≠ .run r := by
      rintro rfl
      nomatch (step?_eq_none hrun hover).symm.trans hs₁
    have hworker := worker_of_act hrun hnone hs₁ hother
    obtain ⟨run₁, hrun₁, hst₁⟩ : ∃ run₁, s₁.runs[r]? = some run₁ ∧ run₁.stage = run.stage := by
      cases meets_act hrun hs₁ with
      | steps => exact absurd rfl hother
      | drops hgoes => nomatch hgoes.symm.trans hover
      | cancels hrun' => exact ⟨_, hrun', rfl⟩
      | rests _ hrun' => exact ⟨_, hrun', rfl⟩
    obtain ⟨run', hrun', hst', hnone'⟩ := ih hrun₁ (hst₁ ▸ hover) (hworker run₁ hrun₁) hrest
    exact ⟨run', hrun', hst'.trans hst₁, hnone'⟩

/-- How a call fails before it sets a worker going. -/
def refusals : List Fault := [.sessionBusy, .noRunnableProducer, .noProducerStarted]

theorem isLaunched_of_refusal {fault : Fault} (h : fault ∈ refusals) :
    (Run.Stage.returned (.error fault)).isLaunched = false := by
  simp only [refusals, List.mem_cons, List.not_mem_nil, or_false] at h
  rcases h with rfl | rfl | rfl <;> rfl

/-- A call that fails so has not seen anybody accept. -/
theorem not_accepted {seen : List Sight} {fault : Fault} (hfault : fault ∈ refusals)
    (h : (Run.Stage.returned (.error fault)).Story seen) (i : Nat) : .answer i true ∉ seen := by
  intro hi
  cases h with
  | busy | nobody => simp at hi
  | refused => simp [Sight.refusals] at hi
  | launched _ hstage => nomatch (isLaunched_of_refusal hfault).symm.trans hstage

/-- A call fails as busy exactly when it finds the session in another phase than idle; else for want
of producers exactly when none can run; and else because none has started exactly when each of those
that can run refuses. Until it is decided it can go on. A call that fails so leaves the producers, the
other calls and all queues but its own alone by every step, and in the end the phase that it found.
It has no worker, and its sink receives nothing, at any later time. -/
theorem call_refused {id : RunId} {timeout : Option Nat} {faulty : Bool}
    (hacts : (s.call id timeout faulty).2.after? acts = some t) :
    let r := (s.call id timeout faulty).1
    let moments := (s.call id timeout faulty).2.moments acts
    ∃ run, t.runs[r]? = some run ∧
      (run.result? = some (.error .sessionBusy) ↔ ∃ p, p ≠ .idle ∧ seen r moments = [.phase p]) ∧
      (run.result? = some (.error .noRunnableProducer) ↔
        seen r moments = [.phase .idle, .runnable []]) ∧
      (run.result? = some (.error .noProducerStarted) ↔
        ∃ places, places ≠ [] ∧ seen r moments = Sight.refusals places) ∧
      (run.stage.isUndecided = true → (t.step? r).isSome = true) ∧
      ∀ fault ∈ refusals, run.result? = some (.error fault) →
        (∀ m ∈ moments, m.2 = .run r → ∀ y, m.1.act? m.2 = some y → m.1.Spares r y ∧
          ((y.runs[r]?).bind (·.result?) = some (.error fault) →
            ∃ rest, seen r moments = .phase y.phase :: rest)) ∧
        ∀ more t', t.after? more = some t' → ∃ run', t'.runs[r]? = some run' ∧
          run'.result? = some (.error fault) ∧ run'.worker = none ∧ run'.sink.calls = [] := by
  intro r moments
  have htold : Told r moments t := told_after hacts
  obtain ⟨run, hrun, hstory, hworker⟩ := htold.story
  refine ⟨run, hrun, result?_iff.trans (busy_iff hstory), result?_iff.trans (nobody_iff hstory),
    result?_iff.trans (refused_iff hstory), step?_isSome hrun, fun fault hfault hresult => ?_⟩
  have hst := Run.stage_eq_of_result? hresult
  have hno := not_accepted hfault (hst ▸ hstory)
  refine ⟨fun m hm hown y hy => ⟨htold.spared hno m hm hown y hy, fun hy' => ?_⟩, fun more t' hmore => ?_⟩
  · obtain ⟨run', hrun', hresult'⟩ := Option.bind_eq_some_iff.mp hy'
    refine htold.phase m hm hown y run' fault hy hrun' (Run.stage_eq_of_result? hresult') ?_
    rw [Run.stage_eq_of_result? hresult']
    exact isLaunched_of_refusal hfault
  · have hover : run.stage.isOver = true := by
      rw [hst]
      rfl
    obtain ⟨run', hrun', hst', hnone⟩ := ended_after hrun hover (hworker hno) hmore
    refine ⟨run', hrun', result?_iff.mpr (hst'.trans hst), hnone, ?_⟩
    unfold Run.sink
    rw [hnone]
    rfl

/-- Of two digitizers one is booted, and somebody has started it. It refuses the call, and goes on. -/
theorem call_refused_running : ∃ t, (pairSession.call default none false).2.after?
      [.boot 0, .start 0, .run 0, .run 0, .run 0, .run 0] = some t ∧
    t.phase = .idle ∧ t.producers.map (·.isRunning) = [true, false] ∧
    ∃ run, t.runs[0]? = some run ∧ run.result? = some (.error .noProducerStarted) ∧
      ∀ more t', t.after? more = some t' → ∃ run', t'.runs[0]? = some run' ∧
        run'.result? = some (.error .noProducerStarted) ∧ run'.sink.calls = [] := by
  obtain ⟨t, hacts, hphase, hrunning, hresult⟩ : ∃ t,
      (pairSession.call default none false).2.after?
        [.boot 0, .start 0, .run 0, .run 0, .run 0, .run 0] = some t ∧
      t.phase = .idle ∧ t.producers.map (·.isRunning) = [true, false] ∧
      (t.runs[0]?).bind (·.result?) = some (.error .noProducerStarted) :=
    ⟨_, rfl, by decide +kernel, by decide +kernel, by decide +kernel⟩
  obtain ⟨run, hrun, -, -, -, -, hfails⟩ := call_refused hacts
  have hresult : run.result? = some (.error .noProducerStarted) := by
    rw [← hresult, show t.runs[0]? = some run from hrun]
    rfl
  refine ⟨t, hacts, hphase, hrunning, run, hrun, hresult, fun more t' hmore => ?_⟩
  obtain ⟨run', hrun', hresult', -, hcalls⟩ := (hfails _ (by decide) hresult).2 more t' hmore
  exact ⟨run', hrun', hresult', hcalls⟩

end

end Session

end ListMode
