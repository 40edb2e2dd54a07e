import ListMode.Session.Run

/-!
# The steps of a call

By most of its steps a call only goes to another stage, and the session to another phase. `Turns`
lists these, each with what it depends on. `Steps` lists all steps of a call.
-/

namespace ListMode.Session

/-- Call `run` goes to a stage and the session to a phase, while all else stays. -/
inductive Turns (s : Session) (run : Run) : Phase → Run.Stage → Prop where
  | letIn (hst : run.stage = .called) (hidle : s.phase = .idle) : Turns s run .starting .opening
  | refuse (hst : run.stage = .called) (hbusy : s.phase ≠ .idle) :
      Turns s run s.phase (.returned (.error .sessionBusy))
  | crash {l : Launched} {w : Watch} (hst : run.stage = .running l w)
      (hcrash : w.crashes run.cancelled = true) : Turns s run .idle .crashed
  | leave {l : Launched} {w : Watch} {reason : StopReason} (hst : run.stage = .running l w)
      (hlook : w.look s.time run.cancelled ((s.producersAt l.started).any (·.isRunning)) =
        .error reason) : Turns s run .stopping (.asking ⟨l, reason, s.time⟩ l.started [])
  | watch {l : Launched} {w w' : Watch} (hst : run.stage = .running l w)
      (hlook : w.look s.time run.cancelled ((s.producersAt l.started).any (·.isRunning)) =
        .ok w') (hne : w' ≠ w) : Turns s run s.phase (.running l w')
  | allAsked {e : Ending} {stops : List (Nat × Stopping)} (hst : run.stage = .asking e [] stops) :
      Turns s run s.phase (.awaiting e stops)
  | sleep {e : Ending} (hst : run.stage = .draining e none) (hne : (s.queue e.queue).items ≠ []) :
      Turns s run s.phase (.draining e (some (s.time + s.timing.drain)))
  | wake {e : Ending} {time : Nat} (hst : run.stage = .draining e (some time))
      (hle : time ≤ s.time) : Turns s run s.phase (.draining e none)
  | drained {e : Ending} (hst : run.stage = .draining e none)
      (hempty : (s.queue e.queue).items = []) : Turns s run s.phase (.emptied e)
  | collect {e : Ending} {w : Worker} (hst : run.stage = .finishing e)
      (hw : run.worker = some w) (hended : w.stage = .ended) :
      Turns s run s.phase (.sealing e w.merger.report)
  | lose {e : Ending} {w : Worker} (hst : run.stage = .finishing e) (hw : run.worker = some w)
      (hlost : w.stage = .lost) :
      Turns s run .idle (.returned (.error (.taskLost "flushing the sink failed")))
  | release {outcome : Outcome} (hst : run.stage = .releasing outcome) :
      Turns s run .idle (.returned (.ok outcome))

/-- Call `r`, which is `run`, goes on. -/
inductive Steps (s : Session) (r : Nat) (run : Run) : Session → Prop where
  | turn {phase : Phase} {stage : Run.Stage} (h : Turns s run phase stage) :
      Steps s r run ({ s with phase }.setStage r stage)
  | openRun (hst : run.stage = .opening) : Steps s r run (s.openRun r run)
  | start {o : Opened} {i : Nat} {todo started : List Nat}
      (hst : run.stage = .starting o (i :: todo) started) :
      Steps s r run ((s.startProducer i o.queue).2.setStage r (.starting o todo
        (if (s.startProducer i o.queue).1 then started ++ [i] else started)))
  | launchRun {o : Opened} {started : List Nat} (hst : run.stage = .starting o [] started) :
      Steps s r run (s.launchRun r run o started)
  | ask {e : Ending} {i : Nat} {todo : List Nat} {stops : List (Nat × Stopping)}
      (hst : run.stage = .asking e (i :: todo) stops) :
      Steps s r run ((s.askProducer i).2.setStage r
        (.asking e todo (stops ++ [(i, (s.askProducer i).1)])))
  | await {e : Ending} {stop : Nat × Stopping} {before after : List (Nat × Stopping)} {t : Session}
      (hst : run.stage = .awaiting e (before ++ stop :: after))
      (hawait : s.awaitProducer? stop = some t) :
      Steps s r run (t.setStage r (.awaiting e (before ++ after)))
  | closeRun {e : Ending} (hst : run.stage = .awaiting e []) : Steps s r run (s.closeRun r e)
  | stopQueue {e : Ending} (hst : run.stage = .emptied e) :
      Steps s r run ((s.setQueue e.queue (s.queue e.queue).stop).setStage r (.finishing e))
  | sealRun {e : Ending} {report : Report} (hst : run.stage = .sealing e report) :
      Steps s r run (s.sealRun r run e report)

section

variable {s s' : Session} {r : Nat} {run : Run}

/-- Of several stops one is completed. -/
theorem awaitAny_cases {stops left : List (Nat × Stopping)}
    (h : s.awaitAny? stops = some (left, s')) :
    ∃ before stop after, stops = before ++ stop :: after ∧ left = before ++ after ∧
      s.awaitProducer? stop = some s' := by
  induction stops generalizing left with
  | nil => cases h
  | cons stop rest ih =>
    unfold awaitAny? at h
    split at h
    · rename_i s₁ hs
      obtain ⟨rfl, rfl⟩ := Prod.mk.inj (Option.some.inj h)
      exact ⟨[], stop, rest, rfl, rfl, hs⟩
    · obtain ⟨⟨left', s₁⟩, ha, hl⟩ := Option.map_eq_some_iff.mp h
      obtain ⟨rfl, rfl⟩ := Prod.mk.inj hl
      obtain ⟨before, x, after, rfl, rfl, hx⟩ := ih ha
      exact ⟨stop :: before, x, after, rfl, rfl, hx⟩

theorem steps_begin (hst : run.stage = .called) : s.Steps r run (s.begin r) := by
  unfold begin
  split
  · rename_i hidle
    exact .turn (.letIn hst hidle)
  · rename_i hbusy
    exact .turn (.refuse hst hbusy)

theorem steps_of_watch? {l : Launched} {w : Watch} (hst : run.stage = .running l w)
    (hs : s.watch? r run l w = some s') : s.Steps r run s' := by
  unfold watch? at hs
  split at hs
  · rename_i hcrash
    obtain rfl := Option.some.inj hs
    exact .turn (.crash hst hcrash)
  · split at hs
    · rename_i hlook
      obtain rfl := Option.some.inj hs
      exact .turn (.leave hst hlook)
    · rename_i w' hlook
      split at hs
      · nomatch hs
      · rename_i hne
        obtain rfl := Option.some.inj hs
        exact .turn (.watch hst hlook hne)

theorem steps_of_drain? {e : Ending} {wake : Option Nat} (hst : run.stage = .draining e wake)
    (hs : s.drain? r e wake = some s') : s.Steps r run s' := by
  cases wake with
  | some time =>
    unfold drain? at hs
    dsimp only at hs
    split at hs
    · rename_i hle
      obtain rfl := Option.some.inj hs
      exact .turn (.wake hst hle)
    · nomatch hs
  | none =>
    unfold drain? at hs
    dsimp only at hs
    split at hs
    · rename_i hempty
      obtain rfl := Option.some.inj hs
      exact .turn (.drained hst (List.isEmpty_iff.mp hempty))
    · rename_i hne
      obtain rfl := Option.some.inj hs
      exact .turn (.sleep hst fun hnil => hne (List.isEmpty_iff.mpr hnil))

theorem steps_of_collect? {e : Ending} (hst : run.stage = .finishing e)
    (hs : s.collect? r run e = some s') : s.Steps r run s' := by
  unfold collect? at hs
  split at hs
  · nomatch hs
  · rename_i w hw
    split at hs
    · rename_i hended
      obtain rfl := Option.some.inj hs
      exact .turn (.collect hst hw hended)
    · rename_i hlost
      obtain rfl := Option.some.inj hs
      exact .turn (.lose hst hw hlost)
    · nomatch hs

/-- Whatever call `r` does next is among its steps. -/
theorem steps_of_step? (hs : s.step? r = some s') :
    ∃ run, s.runs[r]? = some run ∧ s.Steps r run s' := by
  unfold step? at hs
  obtain ⟨run, hrun, hs⟩ := Option.bind_eq_some_iff.mp hs
  refine ⟨run, hrun, ?_⟩
  cases hst : run.stage with
  | called =>
    rw [hst] at hs
    obtain rfl := Option.some.inj hs
    exact steps_begin hst
  | opening =>
    rw [hst] at hs
    obtain rfl := Option.some.inj hs
    exact .openRun hst
  | starting o todo started =>
    rw [hst] at hs
    cases todo with
    | nil =>
      obtain rfl := Option.some.inj hs
      exact .launchRun hst
    | cons i todo =>
      obtain rfl := Option.some.inj hs
      exact .start hst
  | running l w =>
    rw [hst] at hs
    exact steps_of_watch? hst hs
  | asking e todo stops =>
    rw [hst] at hs
    cases todo with
    | nil =>
      obtain rfl := Option.some.inj hs
      exact .turn (.allAsked hst)
    | cons i todo =>
      obtain rfl := Option.some.inj hs
      exact .ask hst
  | awaiting e stops =>
    rw [hst] at hs
    cases stops with
    | nil =>
      obtain rfl := Option.some.inj hs
      exact .closeRun hst
    | cons stop stops =>
      obtain ⟨⟨left, t⟩, hany, hs⟩ := Option.bind_eq_some_iff.mp hs
      obtain rfl := Option.some.inj hs
      obtain ⟨before, x, after, hsplit, rfl, hawait⟩ := awaitAny_cases hany
      exact .await (hst.trans (congrArg _ hsplit)) hawait
  | draining e wake =>
    rw [hst] at hs
    exact steps_of_drain? hst hs
  | emptied e =>
    rw [hst] at hs
    obtain rfl := Option.some.inj hs
    exact .stopQueue hst
  | finishing e =>
    rw [hst] at hs
    exact steps_of_collect? hst hs
  | sealing e report =>
    rw [hst] at hs
    obtain rfl := Option.some.inj hs
    exact .sealRun hst
  | releasing outcome =>
    rw [hst] at hs
    obtain rfl := Option.some.inj hs
    exact .turn (.release hst)
  | returned result =>
    rw [hst] at hs
    nomatch hs
  | dropped =>
    rw [hst] at hs
    nomatch hs
  | crashed =>
    rw [hst] at hs
    nomatch hs

end

end ListMode.Session
