import ListMode.Proofs.Session.Effect
import ListMode.Proofs.Session.Pipeline

/-!
# The protocol of a run

`Follows` says how far a call has come with its queue: first the opening boundary, then what the
producers it has started hand over, and the closing boundary once no task feeds the queue any more.
Every action keeps this up, as long as nobody else starts or stops a producer that the call is in
charge of.
-/

namespace ListMode

/-- Metadata of a run of this number that begins. -/
def RunInfo.Opens (id : RunId) (info : RunInfo) : Prop :=
  ∃ now detectors settings, info = .opening id now detectors settings

/-- The boundaries of a run that begins as `info`, around what was handed over. -/
def RunInfo.bracket (info closing : RunInfo) (handed : List Spill) : List Spill :=
  .boundary info :: handed ++ [.boundary closing]

/-- Tasks may still feed the queue of a call at this stage. -/
def Run.Stage.isFed : Run.Stage → Bool
  | .draining .. | .emptied _ | .finishing _ | .sealing .. | .releasing _ | .returned (.ok _) =>
    false
  | _ => true

namespace Session

/-- The mergers that a run may begin with, by the places of the producers that it has started, and
by their names. -/
structure Origin where
  places : List Nat → Merger → Prop
  names : List String → Merger → Prop

/-- The session gives a run a merger that it may begin with. -/
structure Origin.Fits (origin : Origin) (s : Session) : Prop where
  merger : ∀ started, origin.places started (s.merger started)
  names : ∀ started m, origin.places started m →
    origin.names ((s.producersAt started).map (·.id)) m

/-- The worker has pushed a part of `all`, and its queue `n` holds the rest. -/
def Filled (s : Session) (m : Merger → Prop) (run : Run) (n : Nat) (all : List Spill) : Prop :=
  ∃ w, run.worker = some w ∧ w.queue = n ∧ w.Fills m (s.queue n) all

/-- The queue has stopped, and the worker has nothing left to push. -/
def Emptied (s : Session) (m : Merger → Prop) (run : Run) (n : Nat) (all : List Spill) : Prop :=
  ∃ w, run.worker = some w ∧ w.queue = n ∧ w.Ends m (s.queue n) all

/-- The worker of run `id` has ended, its sink is closed, and the outcome tells what it pushed. -/
structure Settled (origin : Origin) (handed : List Delivery) (id : RunId) (outcome : Outcome)
    (w : Worker) (opening closing : RunInfo) : Prop where
  stage_eq : w.stage = .ended
  opens : opening.Opens id
  closes : ∃ now settings, closing = opening.closing now settings
  merger_eq : ∃ m : Merger, origin.names outcome.started m ∧
    w.merger = let m' := (m.pushAll (opening.bracket closing (into w.queue handed))).finish
      { m' with sink := m'.sink.close }
  runId_eq : outcome.runId = id
  report_eq : outcome.report = w.merger.report

/-- What a call that has come to a stage, its queue and its worker have got, when `handed` is all
that was handed over. -/
def Content (s : Session) (origin : Origin) (handed : List Delivery) (run : Run) :
    Run.Stage → Prop
  | .called | .opening => run.worker = none
  | .starting o todo started =>
    run.worker = none ∧ (started ++ todo).Nodup ∧ o.info.Opens run.id ∧
    (s.queue o.queue).stopped = false ∧
    (s.queue o.queue).items = .boundary o.info :: into o.queue handed
  | .running l _ =>
    l.info.Opens run.id ∧
    s.Filled (origin.places l.started) run l.queue (.boundary l.info :: into l.queue handed)
  | .asking e _ _ | .awaiting e _ =>
    e.info.Opens run.id ∧
    s.Filled (origin.places e.started) run e.queue (.boundary e.info :: into e.queue handed)
  | .draining e _ =>
    e.info.Opens run.id ∧ ∃ now settings, s.Filled (origin.places e.started) run e.queue
      (e.info.bracket (e.info.closing now settings) (into e.queue handed))
  | .emptied e =>
    e.info.Opens run.id ∧ (s.queue e.queue).items = [] ∧ ∃ now settings,
      s.Filled (origin.places e.started) run e.queue
        (e.info.bracket (e.info.closing now settings) (into e.queue handed))
  | .finishing e =>
    e.info.Opens run.id ∧ ∃ now settings, s.Emptied (origin.places e.started) run e.queue
      (e.info.bracket (e.info.closing now settings) (into e.queue handed))
  | .sealing e report =>
    e.info.Opens run.id ∧ ∃ now settings w, run.worker = some w ∧ w.queue = e.queue ∧
      w.Finished (origin.places e.started)
        (e.info.bracket (e.info.closing now settings) (into e.queue handed)) ∧
      report = w.merger.report
  | .releasing outcome | .returned (.ok outcome) =>
    ∃ w opening closing, run.worker = some w ∧
      Settled origin handed run.id outcome w opening closing
  | .returned (.error _) | .dropped | .crashed => True

/-- Task `k` of producer `i` may feed the queue of a call at this stage: the call has started the
producer, which holds on to the task, or waits for the task to end. -/
def Accounts (s : Session) (i k : Nat) : Run.Stage → Prop
  | .starting _ _ started => i ∈ started ∧ s.Holds i k
  | .running l _ => i ∈ l.started ∧ s.Holds i k
  | .asking e todo stops =>
    i ∈ e.started ∧ (i ∈ todo ∧ s.Holds i k ∨ ∃ alive, (i, Stopping.task ⟨k, alive⟩) ∈ stops)
  | .awaiting e stops => i ∈ e.started ∧ ∃ alive, (i, Stopping.task ⟨k, alive⟩) ∈ stops
  | .draining .. | .emptied _ | .finishing _ | .sealing .. | .releasing _ | .returned (.ok _) =>
    False
  | .called | .opening | .returned (.error _) | .dropped | .crashed => True

/-- The call keeps to the protocol. -/
structure Follows (s : Session) (origin : Origin) (handed : List Delivery) (run : Run) :
    Prop where
  content : s.Content origin handed run run.stage
  accounts : ∀ n i k, run.Owns n → s.Feeds n i k → s.Accounts i k run.stage

/-- Call `r`, if there is one, keeps to the protocol. -/
def Upholds (s : Session) (origin : Origin) (handed : List Delivery) (r : Nat) : Prop :=
  ∀ run, s.runs[r]? = some run → s.Follows origin handed run

/-- A sound session in which call `r` keeps to the protocol, after `handed`. -/
structure Invariant (origin : Origin) (r : Nat) (handed : List Delivery) (s : Session) :
    Prop where
  sound : s.Sound
  past : ∀ d ∈ handed, d.spill.run = none ∧ d.queue < s.queues.length
  upholds : s.Upholds origin handed r

section

variable {origin : Origin} {k : Merger → Prop} {s s' : Session} {r n : Nat} {run : Run}
  {handed more : List Delivery} {all : List Spill}

/-! ## Actions of others -/

/-- Nothing comes into a queue that no task feeds. -/
theorem into_unfed (hfed : ∀ d ∈ more, d.spill.run = none ∧ ∃ i k, s.Feeds d.queue i k)
    (h : ∀ i k, ¬s.Feeds n i k) : into n more = [] := by
  refine into_eq_nil fun d hd hq => ?_
  obtain ⟨-, i, k, hf⟩ := hfed d hd
  exact h i k (hq ▸ hf)

theorem Filled.frame (h : s.Filled k run n all)
    (hf : s'.queue n = (s.queue n).putAll (into n more)) :
    s'.Filled k run n (all ++ into n more) := by
  obtain ⟨w, hw, hn, hfills⟩ := h
  refine ⟨w, hw, hn, ?_⟩
  rw [hf]
  exact hfills.putAll _

theorem Filled.of_queue_eq (h : s.Filled k run n all) (hq : s'.queue n = s.queue n) :
    s'.Filled k run n all := by
  obtain ⟨w, hw, hn, hfills⟩ := h
  exact ⟨w, hw, hn, hq ▸ hfills⟩

theorem Settled.frame {id : RunId} {outcome : Outcome} {w : Worker} {opening closing : RunInfo}
    (h : Settled origin handed id outcome w opening closing) (hnone : into w.queue more = []) :
    Settled origin (handed ++ more) id outcome w opening closing := by
  have hw : into w.queue (handed ++ more) = into w.queue handed := by
    rw [into_append, hnone, List.append_nil]
  exact { h with merger_eq := hw ▸ h.merger_eq }

/-- What comes into the queue of a call is behind the opening boundary, and nothing comes any more
once no task may feed it. -/
theorem Content.frame (h : s.Content origin handed run run.stage)
    (hown : ∀ n, run.stage.queue? = some n → s'.queue n = (s.queue n).putAll (into n more))
    (hnone : run.stage.isFed = false → ∀ n, run.Owns n → into n more = []) :
    s'.Content origin (handed ++ more) run run.stage := by
  have hsame : ∀ m, run.stage.queue? = some m → run.stage.isFed = false →
      into m (handed ++ more) = into m handed ∧ s'.queue m = s.queue m := by
    intro m hm hno
    rw [into_append, hown m hm, hnone hno m (.inl hm), List.append_nil]
    exact ⟨rfl, rfl⟩
  cases hst : run.stage with
  | called =>
    rw [hst] at h
    exact h
  | opening =>
    rw [hst] at h
    exact h
  | starting o todo started =>
    rw [hst] at h hown
    obtain ⟨hw, hnodup, hopens, hrunning, hitems⟩ := h
    have hq := hown o.queue rfl
    refine ⟨hw, hnodup, hopens, ?_, ?_⟩
    · rw [hq, Handoff.stopped_putAll]
      exact hrunning
    · rw [hq, Handoff.items_putAll, if_neg (by rw [hrunning]; exact Bool.false_ne_true), hitems,
        into_append, List.cons_append]
  | running l w =>
    rw [hst] at h hown
    refine ⟨h.1, ?_⟩
    rw [into_append, ← List.cons_append]
    exact h.2.frame (hown l.queue rfl)
  | asking e todo stops =>
    rw [hst] at h hown
    refine ⟨h.1, ?_⟩
    rw [into_append, ← List.cons_append]
    exact h.2.frame (hown e.queue rfl)
  | awaiting e stops =>
    rw [hst] at h hown
    refine ⟨h.1, ?_⟩
    rw [into_append, ← List.cons_append]
    exact h.2.frame (hown e.queue rfl)
  | draining e wake =>
    rw [hst] at h hsame
    obtain ⟨hinto, hq⟩ := hsame e.queue rfl rfl
    obtain ⟨hopens, now, settings, hfilled⟩ := h
    exact ⟨hopens, now, settings, hinto ▸ hfilled.of_queue_eq hq⟩
  | emptied e =>
    rw [hst] at h hsame
    obtain ⟨hinto, hq⟩ := hsame e.queue rfl rfl
    obtain ⟨hopens, hitems, now, settings, hfilled⟩ := h
    exact ⟨hopens, hq ▸ hitems, now, settings, hinto ▸ hfilled.of_queue_eq hq⟩
  | finishing e =>
    rw [hst] at h hsame
    obtain ⟨hinto, hq⟩ := hsame e.queue rfl rfl
    obtain ⟨hopens, now, settings, w, hw, hn, hends⟩ := h
    exact ⟨hopens, now, settings, w, hw, hn, by rw [hinto, hq]; exact hends⟩
  | sealing e report =>
    rw [hst] at h hsame
    obtain ⟨hinto, -⟩ := hsame e.queue rfl rfl
    obtain ⟨hopens, now, settings, w, hw, hn, hfinished, hreport⟩ := h
    exact ⟨hopens, now, settings, w, hw, hn, by rw [hinto]; exact hfinished, hreport⟩
  | releasing outcome =>
    rw [hst] at h hnone
    obtain ⟨w, opening, closing, hw, hsettled⟩ := h
    have hno := hnone rfl w.queue (.inr ⟨w, hw, rfl⟩)
    exact ⟨w, opening, closing, hw, hsettled.frame hno⟩
  | returned result =>
    cases result with
    | error fault => trivial
    | ok outcome =>
      rw [hst] at h hnone
      obtain ⟨w, opening, closing, hw, hsettled⟩ := h
      have hno := hnone rfl w.queue (.inr ⟨w, hw, rfl⟩)
      exact ⟨w, opening, closing, hw, hsettled.frame hno⟩
  | dropped => trivial
  | crashed => trivial

theorem not_accounts {stage : Run.Stage} (h : stage.isFed = false) (i k : Nat) :
    ¬s.Accounts i k stage := by
  cases stage with
  | returned result =>
    cases result with
    | ok outcome => exact id
    | error fault => nomatch h
  | draining | emptied | finishing | sealing | releasing => exact id
  | _ => nomatch h

theorem Accounts.frame {i k : Nat} {stage : Run.Stage} (h : s.Accounts i k stage)
    (hholds : i ∈ stage.engaged → s.Holds i k → s'.Holds i k) : s'.Accounts i k stage := by
  unfold Accounts at h ⊢
  split at h
  · exact ⟨h.1, hholds h.1 h.2⟩
  · exact ⟨h.1, hholds h.1 h.2⟩
  · exact ⟨h.1, h.2.imp_left fun hheld => ⟨hheld.1, hholds h.1 hheld.2⟩⟩
  all_goals exact h

/-- What others do keeps a call to the protocol. -/
theorem Follows.frame (h : s.Follows origin handed run) {touched : List Nat}
    (hf : ∀ n, run.Owns n → Frame n touched more s s')
    (hfed : ∀ d ∈ more, d.spill.run = none ∧ ∃ i k, s.Feeds d.queue i k)
    (ht : ∀ i ∈ touched, i ∉ run.stage.engaged) : s'.Follows origin (handed ++ more) run := by
  refine ⟨h.content.frame (fun n hn => (hf n (.inl hn)).queue_eq) fun hno n hn => ?_,
    fun n i k hn hk => ?_⟩
  · exact into_unfed hfed fun i k hk => not_accounts hno i k (h.accounts n i k hn hk)
  · have ha := h.accounts n i k hn ((hf n hn).feeds i k hk)
    exact ha.frame fun hi hheld => (hf n hn).holds i k (fun hmem => ht i hmem hi) hheld

/-! ## What a step does to the content -/

/-- Call `r`, if there is one, has got what `handed` says. -/
def Carries (s : Session) (origin : Origin) (handed : List Delivery) (r : Nat) : Prop :=
  ∀ run, s.runs[r]? = some run → s.Content origin handed run run.stage

/-- A call that goes to another stage. -/
theorem carries_setStage {t : Session} {stage : Run.Stage} (hrun : t.runs[r]? = some run)
    (hc : t.Content origin handed run stage) : (t.setStage r stage).Carries origin handed r := by
  intro run' hrun'
  rw [runs_setStage hrun, if_pos rfl] at hrun'
  obtain rfl := Option.some.inj hrun'
  show t.Content origin handed { run with stage } stage
  cases stage with
  | returned result =>
    cases result with
    | error fault => trivial
    | ok outcome => exact hc
  | _ => exact hc

/-- A step that leaves all but the stage and the phase as they are. -/
theorem Content.turn (h : s.Content origin handed run run.stage) {phase : Phase}
    {stage : Run.Stage} (hturn : s.Turns run phase stage) :
    s.Content origin handed run stage := by
  cases hturn with
  | letIn hst =>
    rw [hst] at h
    exact h
  | refuse | crash | lose => trivial
  | leave hst | watch hst | sleep hst | wake hst | release hst | allAsked hst =>
    rw [hst] at h
    exact h
  | drained hst hempty =>
    rw [hst] at h
    exact ⟨h.1, hempty, h.2⟩
  | @collect e w hst hw hended =>
    rw [hst] at h
    obtain ⟨hopens, now, settings, w', hw', hn, hends⟩ := h
    obtain rfl := Option.some.inj (hw.symm.trans hw')
    have hfinished := hends.outcome.resolve_left fun hne => hne.1 hended
    have hfinished := hfinished.resolve_right fun hlost => nomatch hended.symm.trans hlost.1
    exact ⟨hopens, now, settings, w, hw, hn, hfinished, rfl⟩

theorem runnable_nodup (s : Session) : s.runnable.Nodup := List.nodup_range.filter _

/-- The new queue holds the opening boundary. -/
theorem carries_openRun (hworker : run.worker = none) (hinto : into s.queues.length handed = [])
    (hrun : s.runs[r]? = some run) : (s.openRun r run).Carries origin handed r := by
  unfold Session.openRun
  split
  · exact carries_setStage (t := { s with phase := .idle }) hrun trivial
  · have hqueues := s.queues_open (.boundary (.opening run.id s.now s.detectors s.snapshot))
    have hq : (s.openQueue.2.put s.queues.length
        (.boundary (.opening run.id s.now s.detectors s.snapshot))).queue s.queues.length =
        (Handoff.new.put (.boundary (.opening run.id s.now s.detectors s.snapshot))).2 := by
      rw [queue, hqueues, List.getD_eq_getElem?_getD, List.getElem?_concat_length]
      rfl
    refine carries_setStage (t := s.openQueue.2.put s.queues.length _) hrun
      ⟨hworker, s.runnable_nodup, ⟨_, _, _, rfl⟩, ?_, ?_⟩
    · exact congrArg Handoff.stopped hq
    · rw [hinto]
      exact congrArg Handoff.items hq

/-- A merger with the decoders of producers. -/
def decoding (ps : List Producer) : Merger :=
  ps.foldl (fun m p => match p.decoder? with
    | some decoder => m.withDecoder p.id decoder
    | none => m) (Merger.new .empty)

theorem merger_eq (s : Session) (started : List Nat) : s.merger started =
    (decoding (s.producersAt started)).withChannels (s.awaited started) := rfl

theorem fresh_decoding (ps : List Producer) :
    (decoding ps).Fresh ∧ (decoding ps).sink = .empty := by
  refine List.foldlRecOn (motive := fun m : Merger => m.Fresh ∧ m.sink = .empty) _ _
    ⟨Merger.fresh_new .empty, rfl⟩ fun m hm p _ => ?_
  cases p.decoder? with
  | none => exact hm
  | some decoder => exact ⟨hm.1.withDecoder p.id decoder, hm.2⟩

/-- The merger of a run has received nothing. -/
theorem fresh_merger (s : Session) (started : List Nat) :
    (s.merger started).Fresh ∧ (s.merger started).sink = .empty :=
  (fresh_decoding (s.producersAt started)).imp_left fun h => h.withChannels (s.awaited started)

theorem carries_launchRun {o : Opened} {started : List Nat}
    (h : s.Content origin handed run (.starting o [] started)) (hfits : origin.Fits s)
    (hrun : s.runs[r]? = some run) : (s.launchRun r run o started).Carries origin handed r := by
  obtain ⟨-, -, hopens, hrunning, hitems⟩ := h
  unfold Session.launchRun
  split
  · exact carries_setStage (t := { s.setQueue o.queue (s.queue o.queue).stop with phase := .idle })
      hrun trivial
  · intro run' hrun'
    rw [runs_setRun (s := { s with phase := .running }) hrun, if_pos rfl] at hrun'
    obtain rfl := Option.some.inj hrun'
    refine ⟨hopens, _, rfl, rfl, ?_⟩
    rw [← hitems]
    exact Worker.fills_new (hfits.merger started) hrunning

/-- A producer is tried and leaves the queue as it is. -/
theorem Content.start {o : Opened} {i : Nat} {todo started : List Nat}
    (h : s.Content origin handed run (.starting o (i :: todo) started))
    (hq : s'.queue o.queue = s.queue o.queue) (accepted : Bool) :
    s'.Content origin handed run
      (.starting o todo (if accepted then started ++ [i] else started)) := by
  obtain ⟨hworker, hnodup, hopens, hrunning, hitems⟩ := h
  refine ⟨hworker, ?_, hopens, ?_, ?_⟩
  · cases accepted with
    | true =>
      rw [if_pos rfl, List.append_assoc]
      exact hnodup
    | false =>
      rw [if_neg Bool.false_ne_true]
      exact hnodup.sublist ((List.sublist_cons_self i todo).append_left started)
  · rw [hq]
    exact hrunning
  · rw [hq]
    exact hitems

theorem carries_closeRun {e : Ending} (h : s.Content origin handed run (.awaiting e []))
    (hlen : e.queue < s.queues.length) (hrun : s.runs[r]? = some run) :
    (s.closeRun r e).Carries origin handed r := by
  obtain ⟨hopens, w, hw, hn, hfills⟩ := h
  have hq : (s.put e.queue (.boundary (e.info.closing s.now s.snapshot))).queue e.queue =
      (s.queue e.queue).putAll [.boundary (e.info.closing s.now s.snapshot)] := by
    rw [put, queue_setQueue _ _ _ hlen, if_pos rfl]
    rfl
  refine carries_setStage (t := ({ s with phase := .draining } : Session).put e.queue _) hrun
    ⟨hopens, s.now, s.snapshot, w, hw, hn, ?_⟩
  show w.Fills _ ((s.put e.queue (.boundary (e.info.closing s.now s.snapshot))).queue e.queue) _
  rw [hq]
  exact hfills.putAll _

/-- An empty queue is stopped. -/
theorem Content.stop {e : Ending} (h : s.Content origin handed run (.emptied e))
    (hlen : e.queue < s.queues.length) :
    (s.setQueue e.queue (s.queue e.queue).stop).Content origin handed run (.finishing e) := by
  obtain ⟨hopens, hitems, now, settings, w, hw, hn, hfills⟩ := h
  refine ⟨hopens, now, settings, w, hw, hn, ?_⟩
  rw [queue_setQueue _ _ _ hlen, if_pos rfl]
  exact hfills.stop hitems

theorem carries_sealRun {e : Ending} {report : Report}
    (h : s.Content origin handed run (.sealing e report)) (hfits : origin.Fits s)
    (hrun : s.runs[r]? = some run) : (s.sealRun r run e report).Carries origin handed r := by
  obtain ⟨hopens, now, settings, w, hw, hn, ⟨hended, m, hm, hmerger⟩, hreport⟩ := h
  intro run' hrun'
  unfold Session.sealRun at hrun'
  dsimp only at hrun'
  rw [runs_setRun (s := { s with phase := .idle }) hrun, if_pos rfl] at hrun'
  obtain rfl := Option.some.inj hrun'
  refine ⟨{ w with merger.sink := w.merger.sink.close }, e.info, e.info.closing now settings, ?_,
    hended, hopens, ⟨now, settings, rfl⟩, ⟨m, hfits.names _ m hm, ?_⟩, rfl, hreport⟩
  · dsimp only
    rw [hw]
    rfl
  · dsimp only
    rw [hmerger, hn]

/-! ## Steps of the call -/

theorem Follows.at_stage {stage : Run.Stage} (h : s.Follows origin handed run)
    (hst : run.stage = stage) :
    s.Content origin handed run stage ∧
    (∀ n, (stage.queue? = some n ∨ ∃ w, run.worker = some w ∧ w.queue = n) → run.Owns n) ∧
    ∀ n i k, run.Owns n → s.Feeds n i k → s.Accounts i k stage := by
  subst hst
  exact ⟨h.content, fun _ hn => hn, h.accounts⟩

theorem Carries.upholds (hc : s.Carries origin handed r)
    (ha : ∀ run, s.runs[r]? = some run → ∀ n i k, run.Owns n → s.Feeds n i k →
      s.Accounts i k run.stage) : s.Upholds origin handed r :=
  fun run hrun => ⟨hc run hrun, ha run hrun⟩

/-- A call that goes to another stage. -/
theorem upholds_setStage {t : Session} {stage : Run.Stage} (hrun : t.runs[r]? = some run)
    (hc : (t.setStage r stage).Carries origin handed r)
    (ha : ∀ n i k, (stage.queue? = some n ∨ ∃ w, run.worker = some w ∧ w.queue = n) →
      t.Feeds n i k → t.Accounts i k stage) : (t.setStage r stage).Upholds origin handed r := by
  refine hc.upholds fun run' hrun' => ?_
  rw [runs_setStage hrun, if_pos rfl] at hrun'
  obtain rfl := Option.some.inj hrun'
  exact ha

/-- A step that leaves all but the stage and the phase as they are. -/
theorem Follows.turn (h : s.Follows origin handed run) (hrun : s.runs[r]? = some run)
    {phase : Phase} {stage : Run.Stage} (hturn : s.Turns run phase stage) :
    ({ s with phase }.setStage r stage).Upholds origin handed r := by
  refine upholds_setStage (t := { s with phase }) hrun
    (carries_setStage (t := { s with phase }) hrun (h.content.turn hturn)) ?_
  show ∀ n i k, (stage.queue? = some n ∨ ∃ w, run.worker = some w ∧ w.queue = n) →
    s.Feeds n i k → s.Accounts i k stage
  cases hturn with
  | letIn | refuse | crash | lose => exact fun _ _ _ _ _ => trivial
  | leave hst =>
    obtain ⟨-, hown, ha⟩ := h.at_stage hst
    intro n i k hn hk
    obtain ⟨hi, hheld⟩ := ha n i k (hown n hn) hk
    exact ⟨hi, .inl ⟨hi, hheld⟩⟩
  | watch hst | sleep hst | wake hst | release hst | drained hst | collect hst =>
    obtain ⟨-, hown, ha⟩ := h.at_stage hst
    exact fun n i k hn hk => ha n i k (hown n hn) hk
  | allAsked hst =>
    obtain ⟨-, hown, ha⟩ := h.at_stage hst
    intro n i k hn hk
    obtain ⟨hstarted, ⟨hi, -⟩ | hstop⟩ := ha n i k (hown n hn) hk
    · nomatch hi
    · exact ⟨hstarted, hstop⟩

/-- No task feeds the new queue. -/
theorem Follows.openRun (h : s.Follows origin handed run) (hs : s.Sound)
    (hpast : ∀ d ∈ handed, d.spill.run = none ∧ d.queue < s.queues.length)
    (hrun : s.runs[r]? = some run) (hst : run.stage = .opening) :
    (s.openRun r run).Upholds origin handed r := by
  obtain ⟨hworker, -, -⟩ := h.at_stage hst
  have hinto : into s.queues.length handed = [] :=
    into_eq_nil fun d hd => Nat.ne_of_lt (hpast d hd).2
  have hc : (s.openRun r run).Carries origin handed r := carries_openRun hworker hinto hrun
  unfold Session.openRun at hc ⊢
  split at hc
  · rename_i hempty
    rw [if_pos hempty]
    exact upholds_setStage (t := { s with phase := .idle }) hrun hc fun _ _ _ _ _ => trivial
  · rename_i hsome
    rw [if_neg hsome]
    refine upholds_setStage (t := s.openQueue.2.put s.queues.length _) hrun hc ?_
    rintro n i k (hn | ⟨w, hw, -⟩) hk
    · obtain rfl : s.queues.length = n := Option.some.inj hn
      have := hs.feeds_lt _ i k hk
      omega
    · rw [hworker] at hw
      cases hw

theorem Follows.launchRun (h : s.Follows origin handed run) (hfits : origin.Fits s)
    (hrun : s.runs[r]? = some run) {o : Opened} {started : List Nat}
    (hst : run.stage = .starting o [] started) :
    (s.launchRun r run o started).Upholds origin handed r := by
  obtain ⟨hcontent, hown, ha⟩ := h.at_stage hst
  have hc := carries_launchRun hcontent hfits hrun
  unfold Session.launchRun at hc ⊢
  split at hc
  · rename_i hempty
    rw [if_pos hempty]
    exact upholds_setStage
      (t := { s.setQueue o.queue (s.queue o.queue).stop with phase := .idle }) hrun hc
      fun _ _ _ _ _ => trivial
  · rename_i hsome
    rw [if_neg hsome]
    refine hc.upholds fun run' hrun' n i k hn hk => ?_
    rw [runs_setRun (s := { s with phase := .running }) hrun, if_pos rfl] at hrun'
    obtain rfl := Option.some.inj hrun'
    have hno : o.queue = n := by
      rcases hn with hn | ⟨w, hw, hn⟩
      · exact Option.some.inj hn
      · obtain rfl := Option.some.inj hw
        exact hn
    exact ha n i k (hown n (.inl (congrArg some hno))) hk

theorem Follows.start (h : s.Follows origin handed run) (hs : s.Sound)
    (hrun : s.runs[r]? = some run) {o : Opened} {i : Nat} {todo started : List Nat}
    (hst : run.stage = .starting o (i :: todo) started) :
    ((s.startProducer i o.queue).2.setStage r (.starting o todo
      (if (s.startProducer i o.queue).1 then started ++ [i] else started))).Upholds origin
        handed r := by
  obtain ⟨hcontent, hown, ha⟩ := h.at_stage hst
  obtain ⟨hqueues, hruns, -, hfeeds, hholds⟩ := hs.startProducer i o.queue
  generalize s.startProducer i o.queue = result at hqueues hruns hfeeds hholds ⊢
  obtain ⟨accepted, t⟩ := result
  have hq : t.queue o.queue = s.queue o.queue := by
    rw [queue, hqueues]
    rfl
  have hnot : i ∉ started :=
    fun hi => (List.nodup_append.mp hcontent.2.1).2.2 i hi i (by simp) rfl
  refine upholds_setStage (hruns ▸ hrun)
    (carries_setStage (hruns ▸ hrun) (hcontent.start hq accepted)) ?_
  intro n j k hn hk
  rcases hfeeds n j k hk with hk | ⟨-, rfl, haccepted, hheld⟩
  · obtain ⟨hmem, hheld⟩ := ha n j k (hown n hn) hk
    refine ⟨?_, hholds j k (fun hji => hnot (hji ▸ hmem)) hheld⟩
    split
    · exact List.mem_append_left _ hmem
    · exact hmem
  · refine ⟨?_, hheld⟩
    rw [if_pos haccepted]
    simp

theorem Follows.ask (h : s.Follows origin handed run) (hs : s.Sound) (hrun : s.runs[r]? = some run)
    {e : Ending} {i : Nat} {todo : List Nat} {stops : List (Nat × Stopping)}
    (hst : run.stage = .asking e (i :: todo) stops) :
    ((s.askProducer i).2.setStage r
      (.asking e todo (stops ++ [(i, (s.askProducer i).1)]))).Upholds origin handed r := by
  obtain ⟨hc, hown, ha⟩ := h.at_stage hst
  obtain ⟨heffect, hruns, hqueues⟩ := hs.effect_ask i
  have hheld : ∀ k, s.Holds i k → ∃ alive, (s.askProducer i).1 = .task ⟨k, alive⟩ :=
    fun k hk => hs.ask_held hk
  generalize s.askProducer i = result at heffect hruns hqueues hheld ⊢
  obtain ⟨stopping, t⟩ := result
  have hq : t.queue e.queue = s.queue e.queue := by
    rw [queue, hqueues]
    rfl
  refine upholds_setStage (hruns ▸ hrun)
    (carries_setStage (hruns ▸ hrun) ⟨hc.1, hc.2.of_queue_eq hq⟩) fun n j k hn hk => ?_
  have hf := heffect.frame_of_none (hs.owns_lt r run n hrun (hown n hn))
  obtain ⟨hj, ⟨htodo, hheld'⟩ | ⟨alive, hstop⟩⟩ := ha n j k (hown n hn) (hf.feeds j k hk)
  · refine ⟨hj, ?_⟩
    by_cases hji : j = i
    · subst hji
      obtain ⟨alive, he⟩ := hheld k hheld'
      obtain rfl : stopping = .task ⟨k, alive⟩ := he
      exact .inr ⟨alive, by simp⟩
    · refine .inl ⟨List.mem_of_ne_of_mem hji htodo, hf.holds j k ?_ hheld'⟩
      exact fun hmem => hji (List.mem_singleton.mp hmem)
  · exact ⟨hj, .inr ⟨alive, List.mem_append_left _ hstop⟩⟩

/-- A task whose stop is complete feeds nothing any more. -/
theorem Follows.await (h : s.Follows origin handed run) (hs : s.Sound)
    (hrun : s.runs[r]? = some run) {e : Ending} {stop : Nat × Stopping}
    {before after : List (Nat × Stopping)} (hst : run.stage = .awaiting e (before ++ stop :: after))
    (hawait : s.awaitProducer? stop = some s') :
    (s'.setStage r (.awaiting e (before ++ after))).Upholds origin handed r := by
  obtain ⟨hc, hown, ha⟩ := h.at_stage hst
  obtain ⟨heffect, hruns, hqueues, hgone⟩ := hs.effect_await hawait
  have hq : s'.queue e.queue = s.queue e.queue := by
    rw [queue, hqueues]
    rfl
  refine upholds_setStage (hruns ▸ hrun)
    (carries_setStage (hruns ▸ hrun) ⟨hc.1, hc.2.of_queue_eq hq⟩) fun n j k hn hk => ?_
  have hf := heffect.frame_of_none (hs.owns_lt r run n hrun (hown n hn))
  obtain ⟨hj, alive, hstop⟩ := ha n j k (hown n hn) (hf.feeds j k hk)
  rw [List.mem_append, List.mem_cons] at hstop
  refine ⟨hj, alive, ?_⟩
  rcases hstop with hstop | rfl | hstop
  · exact List.mem_append_left _ hstop
  · exact absurd hk (hgone _ rfl n)
  · exact List.mem_append_right _ hstop

theorem Follows.closeRun (h : s.Follows origin handed run) (hs : s.Sound)
    (hrun : s.runs[r]? = some run) {e : Ending} (hst : run.stage = .awaiting e []) :
    (s.closeRun r e).Upholds origin handed r := by
  obtain ⟨hcontent, hown, ha⟩ := h.at_stage hst
  have hc := carries_closeRun hcontent (hs.owns_lt r run e.queue hrun (hown _ (.inl rfl))) hrun
  refine upholds_setStage (t := ({ s with phase := .draining } : Session).put e.queue _) hrun hc
    fun n i k hn hk => ?_
  obtain ⟨-, alive, hstop⟩ := ha n i k (hown n hn) hk
  cases hstop

theorem Follows.stop (h : s.Follows origin handed run) (hs : s.Sound) (hrun : s.runs[r]? = some run)
    {e : Ending} (hst : run.stage = .emptied e) :
    ((s.setQueue e.queue (s.queue e.queue).stop).setStage r (.finishing e)).Upholds origin
      handed r := by
  obtain ⟨hc, hown, ha⟩ := h.at_stage hst
  have hc' := hc.stop (hs.owns_lt r run e.queue hrun (hown _ (.inl rfl)))
  exact upholds_setStage (t := s.setQueue e.queue _) hrun
    (carries_setStage (t := s.setQueue e.queue _) hrun hc')
    fun n i k hn hk => ha n i k (hown n hn) hk

theorem Follows.sealRun (h : s.Follows origin handed run) (hfits : origin.Fits s)
    (hrun : s.runs[r]? = some run) {e : Ending}
    {report : Report} (hst : run.stage = .sealing e report) :
    (s.sealRun r run e report).Upholds origin handed r := by
  obtain ⟨hcontent, hown, ha⟩ := h.at_stage hst
  refine (carries_sealRun hcontent hfits hrun).upholds fun run' hrun' n i k hn hk => ?_
  unfold Session.sealRun at hrun'
  dsimp only at hrun'
  rw [runs_setRun (s := { s with phase := .idle }) hrun, if_pos rfl] at hrun'
  obtain rfl := Option.some.inj hrun'
  rcases hn with hno | ⟨x, hx, hno⟩
  · cases hno
  · obtain ⟨w', hw', rfl⟩ := Option.map_eq_some_iff.mp hx
    exact ha n i k (hown n (.inr ⟨w', hw', hno⟩)) hk

/-- A step of the call keeps it to the protocol. -/
theorem Invariant.step (h : Invariant origin r handed s) (hfits : origin.Fits s)
    (hs : s.step? r = some s') :
    s'.Upholds origin handed r := by
  obtain ⟨run, hrun, hs⟩ := steps_of_step? hs
  have hf := h.upholds run hrun
  cases hs with
  | turn hturn => exact hf.turn hrun hturn
  | openRun hst => exact hf.openRun h.sound h.past hrun hst
  | start hst => exact hf.start h.sound hrun hst
  | launchRun hst => exact hf.launchRun hfits hrun hst
  | ask hst => exact hf.ask h.sound hrun hst
  | await hst hawait => exact hf.await h.sound hrun hst hawait
  | closeRun hst => exact hf.closeRun h.sound hrun hst
  | stopQueue hst => exact hf.stop h.sound hrun hst
  | sealRun hst => exact hf.sealRun hfits hrun hst

/-! ## Every action -/

theorem Filled.work (h : s.Filled k run n all) {run' : Run} {w w' : Worker} {q : Handoff Spill}
    (hw : run.worker = some w) (hs : w.step? (s.queue w.queue) = some (w', q))
    (hw' : run'.worker = some w') (hq : s'.queue w.queue = q) : s'.Filled k run' n all := by
  obtain ⟨x, hx, hn, hfills⟩ := h
  rw [hw] at hx
  obtain rfl := Option.some.inj hx
  subst hn
  refine ⟨w', hw', queue_step hs, ?_⟩
  rw [hq]
  exact hfills.step hs

/-- A step of the worker takes from the queue what it pushes. A worker that has ended takes none. -/
theorem Content.work (h : s.Content origin handed run run.stage) {w w' : Worker} {q : Handoff Spill}
    (hw : run.worker = some w) (hs : w.step? (s.queue w.queue) = some (w', q))
    (hq : s'.queue w.queue = q) :
    s'.Content origin handed { run with worker := some w' } run.stage := by
  have hqueue := queue_step hs
  obtain ⟨hended, -⟩ := Worker.step_cases hs
  cases hst : run.stage with
  | called =>
    rw [hst] at h
    exact absurd (hw.symm.trans h) nofun
  | opening =>
    rw [hst] at h
    exact absurd (hw.symm.trans h) nofun
  | starting o todo started =>
    rw [hst] at h
    exact absurd (hw.symm.trans h.1) nofun
  | running l watch =>
    rw [hst] at h
    exact ⟨h.1, h.2.work hw hs rfl hq⟩
  | asking e todo stops =>
    rw [hst] at h
    exact ⟨h.1, h.2.work hw hs rfl hq⟩
  | awaiting e stops =>
    rw [hst] at h
    exact ⟨h.1, h.2.work hw hs rfl hq⟩
  | draining e wake =>
    rw [hst] at h
    obtain ⟨hopens, now, settings, hfilled⟩ := h
    exact ⟨hopens, now, settings, hfilled.work hw hs rfl hq⟩
  | emptied e =>
    rw [hst] at h
    obtain ⟨hopens, hitems, now, settings, hfilled⟩ := h
    refine ⟨hopens, ?_, now, settings, hfilled.work hw hs rfl hq⟩
    obtain ⟨x, hx, hn, hfills⟩ := hfilled
    rw [hw] at hx
    obtain rfl := Option.some.inj hx
    rw [← hn] at hfills hitems ⊢
    rw [hq]
    exact hfills.step_empty hitems hs
  | finishing e =>
    rw [hst] at h
    obtain ⟨hopens, now, settings, x, hx, hn, hends⟩ := h
    rw [hw] at hx
    obtain rfl := Option.some.inj hx
    refine ⟨hopens, now, settings, w', rfl, hqueue.trans hn, ?_⟩
    rw [← hn] at hends ⊢
    rw [hq]
    exact hends.step hs
  | sealing e report =>
    rw [hst] at h
    obtain ⟨-, now, settings, x, hx, -, hfinished, -⟩ := h
    rw [hw] at hx
    obtain rfl := Option.some.inj hx
    exact absurd hfinished.1 hended
  | releasing outcome =>
    rw [hst] at h
    obtain ⟨x, opening, closing, hx, hsettled⟩ := h
    rw [hw] at hx
    obtain rfl := Option.some.inj hx
    exact absurd hsettled.stage_eq hended
  | returned result =>
    cases result with
    | error fault => trivial
    | ok outcome =>
      rw [hst] at h
      obtain ⟨x, opening, closing, hx, hsettled⟩ := h
      rw [hw] at hx
      obtain rfl := Option.some.inj hx
      exact absurd hsettled.stage_eq hended
  | dropped => trivial
  | crashed => trivial

theorem Invariant.work (h : Invariant origin r handed s) (hs : s.work? r = some s') :
    s'.Upholds origin handed r := by
  unfold work? at hs
  obtain ⟨run, hrun, hs⟩ := Option.bind_eq_some_iff.mp hs
  obtain ⟨w, hw, hs⟩ := Option.bind_eq_some_iff.mp hs
  obtain ⟨⟨w', q⟩, hstep, hs⟩ := Option.bind_eq_some_iff.mp hs
  obtain rfl := Option.some.inj hs
  have hqueue := queue_step hstep
  have hf := h.upholds run hrun
  have hlen := h.sound.owns_lt r run w.queue hrun (.inr ⟨w, hw, rfl⟩)
  have hq : (s.setQueue w'.queue q).queue w.queue = q := by
    rw [queue_setQueue _ _ _ hlen, if_pos hqueue]
  intro run' hrun'
  rw [runs_setRun (s := s.setQueue w'.queue q) hrun, if_pos rfl] at hrun'
  obtain rfl := Option.some.inj hrun'
  have hcontent : (s.setQueue w'.queue q).Content origin handed { run with worker := some w' }
      run.stage :=
    hf.content.work hw hstep hq
  refine ⟨hcontent, ?_⟩
  rintro n i k (hn | ⟨x, hx, hn⟩) hk
  · exact hf.accounts n i k (.inl hn) hk
  · obtain rfl := Option.some.inj hx
    exact hf.accounts n i k (.inr ⟨w, hw, hqueue.symm.trans hn⟩) hk

theorem Invariant.cancel (h : Invariant origin r handed s) :
    (s.cancel r).Upholds origin handed r := by
  intro run' hrun'
  unfold Session.cancel at hrun'
  rw [List.getElem?_modify_eq] at hrun'
  obtain ⟨run, hrun, rfl⟩ := Option.map_eq_some_iff.mp hrun'
  exact ⟨(h.upholds run hrun).content, (h.upholds run hrun).accounts⟩

theorem Invariant.drop (h : Invariant origin r handed s) : (s.drop r).Upholds origin handed r := by
  unfold Session.drop
  split
  · exact h.upholds
  · rename_i run hrun
    split
    · exact h.upholds
    · exact h.upholds
    · exact h.upholds
    · exact upholds_setStage hrun (carries_setStage hrun trivial) fun _ _ _ _ _ => trivial
    · exact upholds_setStage (t := { s with phase := .idle }) hrun
        (carries_setStage (t := { s with phase := .idle }) hrun trivial) fun _ _ _ _ _ => trivial

/-- What the call and its worker do themselves hands nothing over. -/
theorem Invariant.own {a : Act} (h : Invariant origin r handed s) (hfits : origin.Fits s)
    (ha : s.act? a = some s')
    (hsub : a.subject = some r) : s'.Upholds origin (handed ++ s.handed a) r := by
  cases a with
  | run r' =>
    obtain rfl := Option.some.inj hsub
    show s'.Upholds origin (handed ++ []) r'
    rw [List.append_nil]
    exact h.step hfits ha
  | work r' =>
    obtain rfl := Option.some.inj hsub
    show s'.Upholds origin (handed ++ []) r'
    rw [List.append_nil]
    exact h.work ha
  | cancel r' =>
    obtain rfl := Option.some.inj hsub
    obtain rfl := Option.some.inj ha
    show (s.cancel r').Upholds origin (handed ++ []) r'
    rw [List.append_nil]
    exact h.cancel
  | drop r' =>
    obtain rfl := Option.some.inj hsub
    obtain rfl := Option.some.inj ha
    show (s.drop r').Upholds origin (handed ++ []) r'
    rw [List.append_nil]
    exact h.drop
  | _ => cases hsub

/-- An action keeps the invariant, if nobody but the call starts or stops its producers. -/
theorem Invariant.act {a : Act} (h : Invariant origin r handed s) (hfits : origin.Fits s)
    (ha : s.act? a = some s')
    (hu : a = .run r ∨ ∀ i ∈ s.touched a, i ∉ s.engaged r) :
    Invariant origin r (handed ++ s.handed a) s' := by
  have he := h.sound.effect ha
  have hlen := he.length_le
  refine ⟨he.sound, fun d hd => ?_, ?_⟩
  · rcases List.mem_append.mp hd with hd | hd
    · have := h.past d hd
      exact ⟨this.1, by omega⟩
    · obtain ⟨hrun, i, k, hk⟩ := he.handed_fed d hd
      have := h.sound.feeds_lt d.queue i k hk
      exact ⟨hrun, by omega⟩
  · by_cases hsub : a.subject = some r
    · exact h.own hfits ha hsub
    · intro run hrun
      by_cases hr : r < s.runs.length
      · rw [he.runs_eq r hr hsub] at hrun
        have hframe : ∀ n, run.Owns n → Frame n (s.touched a) (s.handed a) s s' := by
          intro n hn
          refine he.frame n (h.sound.owns_lt r run n hrun hn) fun j x hj hx hn' => hsub ?_
          rw [hj, h.sound.owns_unique j r x run n hx hrun hn' hn]
        refine (h.upholds run hrun).frame hframe he.handed_fed fun i hi hmem => ?_
        have hforeign := hu.resolve_left fun hrun' => hsub (by rw [hrun']; rfl)
        refine hforeign i hi ?_
        rw [engaged, hrun]
        exact hmem
      · obtain ⟨hstage, hworker⟩ := he.runs_new r run (by omega) hrun
        refine ⟨?_, fun n i k _ _ => ?_⟩
        · rw [hstage]
          exact hworker
        · rw [hstage]
          trivial

/-- The invariant holds along every undisturbed list of actions. -/
theorem Invariant.after {acts : List Act} (h : Invariant origin r handed s)
    (hfits : ∀ t, origin.Fits t) (ha : s.after? acts = some s')
    (hu : s.Undisturbed r acts) : Invariant origin r (handed ++ s.handedDuring acts) s' := by
  induction acts generalizing s handed with
  | nil =>
    obtain rfl := Option.some.inj ha
    rw [handedDuring, List.append_nil]
    exact h
  | cons a rest ih =>
    obtain ⟨s₁, hs₁, ha⟩ := Option.bind_eq_some_iff.mp ha
    have hrest := ih (h.act (hfits s) hs₁ hu.1) ha (hu.2 s₁ hs₁)
    rw [handedDuring, hs₁, Option.map_some, Option.getD_some, ← List.append_assoc]
    exact hrest

end

end Session

end ListMode
