import ListMode.Proofs.Merger.Receipts
import ListMode.Proofs.Session.Protocol
import ListMode.Proofs.Session.Succession

/-!
# What a run produces reaches its own sink

In a session whose runs follow one after the other, the polling tasks there are while a call is in
were started by it, and hand everything to its queue. Nothing else reaches the queue but the
boundaries of the run, so the sink of the run receives what was produced in it, and nothing from any
other run. `Relayed` says so of one call, at each stage. Recordings may carry run metadata here, so it
does not build on the soundness of a session.
-/

namespace ListMode

/-- The merger has received nothing, its sink neither, and it decodes list-mode records. -/
def Merger.Plain (m : Merger) : Prop :=
  m.Fresh ∧ m.sink = .empty ∧ ∃ sources, m.ReadsRecords sources

namespace Session

/-- Mergers that a run may begin with. -/
def plain : Origin := ⟨fun _ => Merger.Plain, fun _ => Merger.Plain⟩

/-- What is handed over by an action while call `r` is in. -/
def produced (r : Nat) (moment : Session × Act) : List Delivery :=
  if (moment.1.stages[r]?).any (·.isIn) then moment.1.handed moment.2 else []

/-- All tasks hand their spills to this queue; without one there is no task. -/
def AllInto (s : Session) (queue : Option Nat) : Prop :=
  ∀ (i : Nat) (p : Producer), s.producers[i]? = some p → ∀ t ∈ p.slot.tasks,
    queue = some t.work.queue

/-- All tasks feed the queue of the call, if it is in. -/
def Fed (s : Session) (stage : Run.Stage) : Prop := stage.isIn = true → s.AllInto stage.queue?

/-- A call that has ended has returned, and a worker that it failed with has pushed everything. -/
def Concluded (made : List Delivery) (worker : Option Worker) : Run.Stage → Prop
  | .returned (.error _) => ∀ w, worker = some w → ∃ opening closing : RunInfo,
      w.Lost Merger.Plain (opening.bracket closing (into w.queue made))
  | .dropped | .crashed => False
  | _ => True

/-- `made` was produced while the call was in, and its queue and its worker have got just that. -/
structure Relayed (s : Session) (made : List Delivery) (run : Run) : Prop where
  content : s.Content plain made run run.stage
  concluded : Concluded made run.worker run.stage
  owned : ∀ d ∈ made, run.Owns d.queue
  early : ∀ o todo, run.stage = .starting o todo [] → made = []
  queue_lt : ∀ n, run.stage.queue? = some n → n < s.queues.length
  fed : s.Fed run.stage

section

variable {s s' t : Session} {a : Act} {r n : Nat} {run : Run} {stage : Run.Stage}
  {made more : List Delivery}

/-! ## Mergers of runs -/

theorem decoder?_eq {p : Producer} {decoder : Decoder} (h : p.decoder? = some decoder) :
    decoder = Record.decoder := by
  unfold Producer.decoder? at h
  split at h
  · split at h
    · exact (Option.some.inj h).symm
    · nomatch h
  · nomatch h

theorem plain_merger (s : Session) (started : List Nat) : (s.merger started).Plain := by
  obtain ⟨hfresh, hsink⟩ := s.fresh_merger started
  refine ⟨hfresh, hsink, ?_⟩
  rw [merger_eq]
  suffices h : ∀ ps, ∃ sources, (decoding ps).ReadsRecords sources by
    obtain ⟨sources, hsources⟩ := h (s.producersAt started)
    exact ⟨sources, hsources.withChannels (s.awaited started)⟩
  intro ps
  refine List.foldlRecOn (motive := fun m : Merger => ∃ sources, m.ReadsRecords sources) _ _
    ⟨[], Merger.readsRecords_new .empty⟩ fun m hm p _ => ?_
  obtain ⟨sources, hsources⟩ := hm
  cases hdecoder : p.decoder? with
  | none => exact ⟨sources, hsources⟩
  | some decoder =>
    rw [decoder?_eq hdecoder]
    exact ⟨_, hsources.withDecoder p.id⟩

theorem fits_plain (s : Session) : plain.Fits s := ⟨s.plain_merger, fun _ _ hm => hm⟩

/-! ## Queues -/

/-- A digitizer or a replay hands nothing over when it is started, asked or awaited. -/
theorem Successive.queues_start (h : s.Successive) (i m : Nat) :
    (s.startProducer i m).2.queues = s.queues := by
  unfold startProducer
  cases hp : s.producers[i]? with
  | none => rfl
  | some p =>
    dsimp only
    rcases Producer.start_eq (h.real hp) (s.launch m) with ⟨-, he⟩ | ⟨-, work, he⟩
    · rw [he]
      rfl
    · rw [he]
      rfl

theorem Successive.queues_ask (h : s.Successive) (i : Nat) :
    (s.askProducer i).2.queues = s.queues := by
  unfold askProducer
  cases hp : s.producers[i]? with
  | none => rfl
  | some p =>
    dsimp only
    rw [Producer.beginStop_eq (h.real hp)]
    rfl

theorem Successive.queues_await (h : s.Successive) {stop : Nat × Stopping}
    (hs : s.awaitProducer? stop = some s') : s'.queues = s.queues := by
  unfold awaitProducer? at hs
  obtain ⟨p, hp, hs⟩ := Option.bind_eq_some_iff.mp hs
  obtain ⟨⟨wasRunning, spills, p'⟩, he, hs⟩ := Option.bind_eq_some_iff.mp hs
  obtain rfl := Option.some.inj hs
  obtain rfl := Producer.handed_of_endStop? (h.real hp) he
  rfl

/-- Actions that are no steps of a call or a worker put into each queue what is handed over. -/
theorem queues_other (ha : s.act? a = some s') (hin : s.InSuccession a) (hrun : ∀ r, a ≠ .run r)
    (hwork : ∀ r, a ≠ .work r) : s'.queues.length = s.queues.length ∧
      ∀ n < s.queues.length, s'.queue n = (s.queue n).putAll (into n (s.handed a)) := by
  cases a with
  | run r => exact absurd rfl (hrun r)
  | work r => exact absurd rfl (hwork r)
  | tick i k =>
    have hs : s.tick? i k = some s' := ha
    unfold tick? at hs
    obtain ⟨p, hp, hs⟩ := Option.bind_eq_some_iff.mp hs
    obtain ⟨⟨spills, p'⟩, ht, hs⟩ := Option.bind_eq_some_iff.mp hs
    obtain rfl := Option.some.inj hs
    have hh : s.handed (.tick i k) = spills := by simp [handed, hp, ht]
    rw [hh]
    exact ⟨length_queues_deliver _ _, fun n hn => queue_deliver (s.setProducer i p') spills hn⟩
  | notice i k =>
    have hs : s.notice? i k = some s' := ha
    unfold notice? at hs
    obtain ⟨p, hp, hs⟩ := Option.bind_eq_some_iff.mp hs
    obtain ⟨⟨spills, p'⟩, ht, hs⟩ := Option.bind_eq_some_iff.mp hs
    obtain rfl := Option.some.inj hs
    have hh : s.handed (.notice i k) = spills := by simp [handed, hp, ht]
    rw [hh]
    exact ⟨length_queues_deliver _ _, fun n hn => queue_deliver (s.setProducer i p') spills hn⟩
  | wait | call | cancel =>
    obtain rfl := Option.some.inj ha
    exact ⟨rfl, fun _ _ => rfl⟩
  | boot i =>
    obtain rfl := Option.some.inj ha
    unfold bootProducer
    split <;> exact ⟨rfl, fun _ _ => rfl⟩
  | write i settings =>
    obtain rfl := Option.some.inj ha
    unfold writeProducer
    split <;> exact ⟨rfl, fun _ _ => rfl⟩
  | drop | start | ask | await | shutdown => exact hin.elim

/-- They leave each call as it is, but for a request to cancel it. -/
theorem runs_other (ha : s.act? a = some s') (hin : s.InSuccession a) (hrun : ∀ r, a ≠ .run r)
    (hwork : ∀ r, a ≠ .work r) (hget : s.runs[r]? = some run) :
    ∃ cancelled, s'.runs[r]? = some { run with cancelled } := by
  cases a with
  | run r => exact absurd rfl (hrun r)
  | work r => exact absurd rfl (hwork r)
  | cancel r' =>
    obtain rfl := Option.some.inj ha
    unfold cancel
    rw [List.getElem?_modify, hget]
    by_cases hr : r' = r
    · exact ⟨true, by simp [hr]⟩
    · exact ⟨run.cancelled, by simp [hr]⟩
  | call id timeout faulty =>
    obtain rfl := Option.some.inj ha
    refine ⟨run.cancelled, ?_⟩
    exact (List.getElem?_append_left (List.getElem?_eq_some_iff.mp hget).1).trans hget
  | tick | notice | wait | boot | write =>
    rw [(rests_of_act ha rfl fun _ _ _ => nofun).2]
    exact ⟨run.cancelled, hget⟩
  | drop | start | ask | await | shutdown => exact hin.elim

/-! ## Tasks -/

theorem mem_getD_bind {α β γ : Type} {x : Option α} {f : α → Option (List β × γ)} {d : β}
    (h : d ∈ ((x.bind f).map (·.1)).getD []) :
    ∃ y result, x = some y ∧ f y = some result ∧ d ∈ result.1 := by
  cases x with
  | none => nomatch h
  | some y =>
    rw [Option.bind_some] at h
    cases hf : f y with
    | none =>
      rw [hf] at h
      nomatch h
    | some result =>
      rw [hf] at h
      exact ⟨y, result, rfl, hf, h⟩

/-- Whatever is handed over comes from a task. -/
theorem mem_handed (hin : s.InSuccession a) {d : Delivery} (hd : d ∈ s.handed a) :
    ∃ (i : Nat) (p : Producer), s.producers[i]? = some p ∧ ∃ t ∈ p.slot.tasks,
      d.queue = t.work.queue := by
  cases a with
  | tick i k =>
    obtain ⟨p, ⟨spills, p'⟩, hp, ht, hd⟩ := mem_getD_bind hd
    exact ⟨i, p, hp, Producer.queue_of_tick? ht d hd⟩
  | notice i k =>
    obtain ⟨p, ⟨spills, p'⟩, hp, ht, hd⟩ := mem_getD_bind hd
    exact ⟨i, p, hp, Producer.queue_of_notice? ht d hd⟩
  | shutdown => exact hin.elim
  | _ => nomatch hd

/-- While a call that is in attends to no task, nothing is handed over. -/
theorem Successive.handed_eq_nil (h : s.Successive) (hst : s.stages[r]? = some stage)
    (hover : stage.isOver = false) (hbare : ∀ i, stage.requests i = [] ∧ i ∉ stage.holding)
    (hin : s.InSuccession a) : s.handed a = [] := by
  refine List.eq_nil_iff_forall_not_mem.mpr fun d hd => ?_
  obtain ⟨i, p, hp, t, ht, -⟩ := mem_handed hin hd
  rw [h.tasks_eq_nil hst hover (hbare i).1 (hbare i).2 hp] at ht
  nomatch ht

/-- What an action hands over is produced in exactly one call. -/
theorem Successive.produced_once (h : s.Successive) (hin : s.InSuccession a) :
    s.handed a = [] ∨ ∃ r, ∀ r', produced r' (s, a) = if r' = r then s.handed a else [] := by
  by_cases hsome : ∃ stage ∈ s.stages, stage.isIn = true
  · obtain ⟨stage, hmem, hisIn⟩ := hsome
    obtain ⟨r, hst⟩ := List.mem_iff_getElem?.mp hmem
    refine .inr ⟨r, fun r' => ?_⟩
    unfold produced
    dsimp only
    by_cases hr : r' = r
    · rw [if_pos hr, hr, hst, Option.any_some, if_pos hisIn]
    · rw [if_neg hr]
      refine if_neg fun hisIn' => hr ?_
      obtain ⟨stage', hst', hisIn'⟩ := (Option.any_eq_true _ _).mp hisIn'
      exact h.unique hst (not_over_of_isIn hisIn) hst' (not_over_of_isIn hisIn')
  · refine .inl (List.eq_nil_iff_forall_not_mem.mpr fun d hd => ?_)
    obtain ⟨i, p, hp, t, ht, -⟩ := mem_handed hin hd
    have hout : ∀ stage ∈ s.stages, stage.isIn = false := fun x hx =>
      Bool.eq_false_iff.mpr fun hisIn => hsome ⟨x, hx, hisIn⟩
    rw [(h.rest_out hout p (List.mem_of_getElem? hp)).1] at ht
    nomatch ht

/-- The tasks after an action feed the queue that the call had before. -/
theorem Fed.act (hfed : s.Fed stage) (h : s.Successive) (hst : s.stages[r]? = some stage)
    (hisIn : stage.isIn = true) (ha : s.act? a = some s') (hin : s.InSuccession a) :
    s'.AllInto stage.queue? := by
  intro i p hp t ht
  rcases h.queue_of_task ha hin hp ht with ⟨q, hq, x, hx, hqueue⟩ |
    ⟨r', run, o, todo, started, rfl, hrun, hstart, hqueue⟩
  · rw [hqueue]
    exact hfed hisIn i q hq x hx
  · obtain rfl := h.alone hst (not_over_of_isIn hisIn) ha (.inl rfl)
    obtain rfl := Option.some.inj ((stages_getElem? hrun).symm.trans hst)
    rw [hstart, hqueue]
    rfl

/-! ## What others do -/

/-- What a call has got does not depend on the queues, unless it is under way. -/
theorem Content.of_out (h : s.Content plain made run stage) (hout : stage.isIn = false) :
    s'.Content plain made run stage := by
  cases stage with
  | called => exact h
  | returned result =>
    cases result with
    | ok outcome => exact h
    | error fault => trivial
  | dropped | crashed => trivial
  | _ => nomatch hout

theorem concluded_of_isIn {worker : Option Worker} (h : stage.isOver = false) :
    Concluded made worker stage := by
  cases stage with
  | returned | dropped | crashed => nomatch h
  | _ => trivial

/-- A stage at which no task is left attends to none. -/
theorem bare_of_not_fed (h : stage.isFed = false) (i : Nat) :
    stage.requests i = [] ∧ i ∉ stage.holding := by
  cases stage with
  | draining | emptied | finishing | sealing | releasing | returned => exact ⟨rfl, List.not_mem_nil⟩
  | _ => nomatch h

theorem Relayed.other (hr : s.Relayed made run) (h : s.Successive) (hget : s.runs[r]? = some run)
    (ha : s.act? a = some s') (hin : s.InSuccession a) (hrun : ∀ r, a ≠ .run r)
    (hwork : ∀ r, a ≠ .work r) {run' : Run} (hget' : s'.runs[r]? = some run') :
    s'.Relayed (made ++ produced r (s, a)) run' := by
  obtain ⟨cancelled, hsame⟩ := runs_other ha hin hrun hwork hget
  obtain rfl := Option.some.inj (hget'.symm.trans hsame)
  have hst := stages_getElem? hget
  obtain ⟨hlen, hqueues⟩ := queues_other ha hin hrun hwork
  unfold produced
  dsimp only
  rw [hst, Option.any_some]
  cases hisIn : run.stage.isIn with
  | false =>
    rw [if_neg Bool.false_ne_true, List.append_nil]
    exact ⟨hr.content.of_out hisIn, hr.concluded, hr.owned, hr.early,
      fun n hn => hlen ▸ hr.queue_lt n hn, fun hisIn' => nomatch hisIn.symm.trans hisIn'⟩
  | true =>
    rw [if_pos rfl]
    have hover := not_over_of_isIn hisIn
    constructor
    · refine hr.content.frame (fun n hn => hqueues n (hr.queue_lt n hn)) fun hfed n _ => ?_
      rw [h.handed_eq_nil hst hover (bare_of_not_fed hfed) hin]
      rfl
    · exact concluded_of_isIn hover
    · intro d hd
      rcases List.mem_append.mp hd with hd | hd
      · exact hr.owned d hd
      · obtain ⟨i, p, hp, t, ht, hqueue⟩ := mem_handed hin hd
        exact .inl ((hr.fed hisIn i p hp t ht).trans (congrArg some hqueue.symm))
    · intro o todo hstarting
      replace hstarting : run.stage = .starting o todo [] := hstarting
      rw [hr.early o todo hstarting, h.handed_eq_nil hst hover ?_ hin]
      · rfl
      · rw [hstarting]
        exact fun i => ⟨rfl, List.not_mem_nil⟩
    · exact fun n hn => hlen ▸ hr.queue_lt n hn
    · exact fun _ => hr.fed.act h hst hisIn ha hin

/-! ## The worker -/

/-- A worker that goes on takes from the queue of its call. -/
theorem Content.queue_of_step {origin : Origin} (hc : s.Content origin made run run.stage)
    {w w' : Worker} {q : Handoff Spill} (hw : run.worker = some w)
    (hs : w.step? (s.queue w.queue) = some (w', q)) (hover : run.stage.isOver = false) :
    run.stage.queue? = some w.queue := by
  obtain ⟨hended, -⟩ := Worker.step_cases hs
  cases hst : run.stage with
  | called | opening =>
    rw [hst] at hc
    exact absurd (hw.symm.trans hc) nofun
  | starting =>
    rw [hst] at hc
    exact absurd (hw.symm.trans hc.1) nofun
  | running | asking | awaiting =>
    rw [hst] at hc
    obtain ⟨-, x, hx, hqueue, -⟩ := hc
    obtain rfl := Option.some.inj (hw.symm.trans hx)
    exact congrArg some hqueue.symm
  | draining | finishing =>
    rw [hst] at hc
    obtain ⟨-, -, -, x, hx, hqueue, -⟩ := hc
    obtain rfl := Option.some.inj (hw.symm.trans hx)
    exact congrArg some hqueue.symm
  | emptied =>
    rw [hst] at hc
    obtain ⟨-, -, -, -, x, hx, hqueue, -⟩ := hc
    obtain rfl := Option.some.inj (hw.symm.trans hx)
    exact congrArg some hqueue.symm
  | sealing =>
    rw [hst] at hc
    obtain ⟨-, -, -, x, hx, hqueue, -⟩ := hc
    obtain rfl := Option.some.inj (hw.symm.trans hx)
    exact congrArg some hqueue.symm
  | releasing =>
    rw [hst] at hc
    obtain ⟨x, _, _, hx, hsettled⟩ := hc
    obtain rfl := Option.some.inj (hw.symm.trans hx)
    exact absurd hsettled.stage_eq hended
  | returned | dropped | crashed =>
    rw [hst] at hover
    nomatch hover

theorem Relayed.work (hr : s.Relayed made run) (h : s.Successive) (hget : s.runs[r]? = some run)
    (hs : s.work? r = some s') {run' : Run} (hget' : s'.runs[r]? = some run') :
    s'.Relayed made run' := by
  have hover : run.stage.isOver = false := Bool.eq_false_iff.mpr fun hover =>
    nomatch (work?_eq_none h.tidy hget hover).symm.trans hs
  unfold work? at hs
  obtain ⟨x, hx, hs⟩ := Option.bind_eq_some_iff.mp hs
  obtain rfl := Option.some.inj (hget.symm.trans hx)
  obtain ⟨w, hw, hs⟩ := Option.bind_eq_some_iff.mp hs
  obtain ⟨⟨w', q⟩, hstep, hs⟩ := Option.bind_eq_some_iff.mp hs
  obtain rfl := Option.some.inj hs
  rw [runs_setRun (s := s.setQueue w'.queue q) hget, if_pos rfl] at hget'
  obtain rfl := Option.some.inj hget'
  have hqueue := queue_step hstep
  have hown := hr.content.queue_of_step hw hstep hover
  have hq : (s.setQueue w'.queue q).queue w.queue = q := by
    rw [queue_setQueue _ _ _ (hr.queue_lt _ hown), if_pos hqueue]
  constructor
  · exact hr.content.work hw hstep hq
  · exact concluded_of_isIn hover
  · intro d hd
    rcases hr.owned d hd with hq | ⟨x, hx, hq⟩
    · exact .inl hq
    · obtain rfl := Option.some.inj (hw.symm.trans hx)
      exact .inr ⟨w', rfl, hqueue.trans hq⟩
  · exact hr.early
  · intro n hn
    show n < (s.queues.set w'.queue q).length
    rw [List.length_set]
    exact hr.queue_lt n hn
  · exact hr.fed

/-! ## Steps of the call -/

/-- Call `r`, if there is one, passes on just what was produced in it. -/
def Relays (s : Session) (made : List Delivery) (r : Nat) : Prop :=
  ∀ run, s.runs[r]? = some run → s.Relayed made run

/-- A call that is not over goes to another stage and keeps its queue. -/
theorem Relayed.goOn (hr : s.Relayed made run) (hrun : t.runs[r]? = some run)
    (hlen : s.queues.length ≤ t.queues.length)
    (hc : (t.setStage r stage).Carries plain made r)
    (hsame : stage.queue? = run.stage.queue?) (hover : stage.isOver = false)
    (hearly : ∀ o todo, stage = .starting o todo [] → made = [])
    (hfed : t.AllInto run.stage.queue?) : (t.setStage r stage).Relays made r := by
  intro run' hrun'
  have hc' := hc run' hrun'
  rw [runs_setStage hrun, if_pos rfl] at hrun'
  obtain rfl := Option.some.inj hrun'
  refine ⟨hc', concluded_of_isIn hover, fun d hd => ?_, hearly, fun n hn => ?_, fun _ => ?_⟩
  · exact (hr.owned d hd).imp_left fun hq => hsame.trans hq
  · exact Nat.lt_of_lt_of_le (hr.queue_lt n (hsame.symm.trans hn)) hlen
  · rw [show ({ run with stage } : Run).stage.queue? = run.stage.queue? from hsame]
    exact hfed

/-- A call returns. -/
theorem Relayed.leave (hr : s.Relayed made run) (hrun : t.runs[r]? = some run)
    {result : Except Fault Outcome} (hc : t.Content plain made run (.returned result))
    (hconcluded : Concluded made run.worker (.returned result))
    (howned : made ≠ [] → ∀ n, run.stage.queue? = some n →
      ∃ w, run.worker = some w ∧ w.queue = n) :
    (t.setStage r (.returned result)).Relays made r := by
  have hcontent := carries_setStage hrun hc
  intro run' hrun'
  have hc' := hcontent run' hrun'
  rw [runs_setStage hrun, if_pos rfl] at hrun'
  obtain rfl := Option.some.inj hrun'
  refine ⟨hc', hconcluded, fun d hd => .inr ?_, nofun, nofun, nofun⟩
  exact (hr.owned d hd).elim (howned (List.ne_nil_of_mem hd) _) id

/-- Without a queue nothing has been produced. -/
theorem Relayed.made_eq_nil (hr : s.Relayed made run) (hworker : run.worker = none)
    (hqueue : run.stage.queue? = none) : made = [] := by
  refine List.eq_nil_iff_forall_not_mem.mpr fun d hd => ?_
  rcases hr.owned d hd with hq | ⟨w, hw, -⟩
  · exact nomatch hqueue.symm.trans hq
  · exact nomatch hworker.symm.trans hw

theorem Relayed.turn (hr : s.Relayed made run) (h : s.Successive) (hrun : s.runs[r]? = some run)
    {phase : Phase} (hturn : s.Turns run phase stage) (hcrash : run.crashes = false) :
    ({ s with phase }.setStage r stage).Relays made r := by
  have hrun' : ({ s with phase } : Session).runs[r]? = some run := hrun
  have hc : ({ s with phase } : Session).Content plain made run stage := hr.content.turn hturn
  have hcontent := hr.content
  cases hturn with
  | letIn hst =>
    refine hr.goOn hrun' (Nat.le_refl _) (carries_setStage hrun' hc) (hst ▸ rfl) rfl nofun
      fun i p hp t ht => ?_
    rw [h.tasks_eq_nil (hst ▸ stages_getElem? hrun) rfl rfl List.not_mem_nil hp] at ht
    nomatch ht
  | refuse hst =>
    rw [hst] at hcontent
    refine hr.leave hrun' trivial (fun w hw => nomatch hcontent.symm.trans hw) fun _ n hn => ?_
    rw [hst] at hn
    nomatch hn
  | crash hst hdead =>
    rw [Run.crashes_of_running hst, hdead] at hcrash
    nomatch hcrash
  | lose hst hw hlost =>
    rw [hst] at hcontent
    obtain ⟨-, now, settings, w, hw', hqueue, hends⟩ := hcontent
    refine hr.leave hrun' trivial (fun x hx => ?_) fun _ n hn => ?_
    · obtain rfl := Option.some.inj (hw'.symm.trans hx)
      obtain rfl := Option.some.inj (hw'.symm.trans hw)
      rcases hends.outcome with ⟨-, hne, -⟩ | ⟨hended, -⟩ | hl
      · exact absurd hlost hne
      · exact nomatch hended.symm.trans hlost
      · exact ⟨_, _, hqueue ▸ hl⟩
    · rw [hst] at hn
      exact ⟨w, hw', hqueue.trans (Option.some.inj hn)⟩
  | release hst =>
    refine hr.leave hrun' hc trivial fun _ n hn => ?_
    rw [hst] at hn
    nomatch hn
  | leave hst | watch hst | allAsked hst | sleep hst | wake hst | drained hst | collect hst =>
    exact hr.goOn hrun' (Nat.le_refl _) (carries_setStage hrun' hc) (hst ▸ rfl) rfl nofun
      (hr.fed (hst ▸ rfl))

theorem Relayed.openRun (hr : s.Relayed made run) (hrun : s.runs[r]? = some run)
    (hst : run.stage = .opening) : (s.openRun r run).Relays made r := by
  have hworker := hr.content
  rw [hst] at hworker
  obtain rfl : made = [] := hr.made_eq_nil hworker (hst ▸ rfl)
  have hc : (s.openRun r run).Carries plain [] r := carries_openRun hworker rfl hrun
  unfold Session.openRun at hc ⊢
  split at hc
  · rename_i hempty
    rw [if_pos hempty]
    exact hr.leave (t := { s with phase := .idle }) hrun trivial
      (fun w hw => nomatch hworker.symm.trans hw) fun hne => absurd rfl hne
  · rename_i hsome
    rw [if_neg hsome]
    intro run' hrun'
    have hc' := hc run' hrun'
    have hget := (runs_setStage (s := s.openQueue.2.put s.queues.length _) hrun _ r).symm.trans
      hrun'
    rw [if_pos rfl] at hget
    obtain rfl := Option.some.inj hget
    refine ⟨hc', trivial, nofun, fun _ _ _ => rfl, fun n hn => ?_, fun _ i p hp t ht => ?_⟩
    · obtain rfl : s.queues.length = n := Option.some.inj hn
      show _ < (s.openQueue.2.put s.queues.length _).queues.length
      rw [queues_open]
      simp
    · exact nomatch (hst ▸ hr.fed (hst ▸ rfl) i p hp t ht :
        Run.Stage.opening.queue? = some t.work.queue)

theorem Relayed.launchRun (hr : s.Relayed made run) (hrun : s.runs[r]? = some run) {o : Opened}
    {started : List Nat} (hst : run.stage = .starting o [] started) :
    (s.launchRun r run o started).Relays made r := by
  have hcontent := hr.content
  rw [hst] at hcontent
  have hc := carries_launchRun hcontent s.fits_plain hrun
  unfold Session.launchRun at hc ⊢
  split at hc
  · rename_i hempty
    rw [if_pos hempty]
    rw [List.isEmpty_iff.mp hempty] at hst
    exact hr.leave (t := { s.setQueue o.queue (s.queue o.queue).stop with phase := .idle }) hrun
      trivial (fun w hw => nomatch hcontent.1.symm.trans hw)
      fun hne => absurd (hr.early o [] hst) hne
  · rename_i hsome
    rw [if_neg hsome]
    intro run' hrun'
    have hc' := hc run' hrun'
    rw [runs_setRun (s := { s with phase := .running }) hrun, if_pos rfl] at hrun'
    obtain rfl := Option.some.inj hrun'
    have hfed := hr.fed (hst ▸ rfl)
    rw [hst] at hfed
    refine ⟨hc', trivial, fun d hd => .inl ?_, nofun, fun n hn => ?_, fun _ => hfed⟩
    · rcases hr.owned d hd with hq | ⟨w, hw, -⟩
      · rw [hst] at hq
        exact hq
      · exact nomatch hcontent.1.symm.trans hw
    · refine hr.queue_lt n ?_
      rw [hst]
      exact hn

theorem Relayed.sealRun (hr : s.Relayed made run) (h : s.Successive) (hrun : s.runs[r]? = some run)
    {e : Ending} {report : Report} (hst : run.stage = .sealing e report) :
    (s.sealRun r run e report).Relays made r := by
  have hcontent := hr.content
  rw [hst] at hcontent
  have hc := carries_sealRun hcontent s.fits_plain hrun
  intro run' hrun'
  have hc' := hc run' hrun'
  unfold Session.sealRun at hrun'
  dsimp only at hrun'
  rw [runs_setRun (s := { s with phase := .idle }) hrun, if_pos rfl] at hrun'
  obtain rfl := Option.some.inj hrun'
  obtain ⟨-, now, settings, w, hw, hqueue, -⟩ := hcontent
  refine ⟨hc', trivial, fun d hd => .inr ?_, nofun, nofun, fun _ i p hp t ht => ?_⟩
  · refine ⟨{ w with merger.sink := w.merger.sink.close }, by rw [hw]; rfl, ?_⟩
    rcases hr.owned d hd with hq | ⟨x, hx, hq⟩
    · rw [hst] at hq
      exact hqueue.trans (Option.some.inj hq)
    · obtain rfl := Option.some.inj (hw.symm.trans hx)
      exact hq
  · rw [h.tasks_eq_nil (hst ▸ stages_getElem? hrun) rfl rfl List.not_mem_nil hp] at ht
    nomatch ht

/-- A step of the call. -/
theorem Relayed.step (hr : s.Relayed made run) (h : s.Successive) (hrun : s.runs[r]? = some run)
    (ha : s.act? (.run r) = some s') (hin : s.InSuccession (.run r)) : s'.Relays made r := by
  have hat := stages_getElem? hrun
  have hfed : s'.Fed run.stage := fun hisIn => hr.fed.act h hat hisIn ha hin
  have hcontent := hr.content
  obtain ⟨x, hx, hs⟩ := steps_of_step? ha
  obtain rfl := Option.some.inj (hrun.symm.trans hx)
  cases hs with
  | turn hturn => exact hr.turn h hrun hturn (hin _ hrun)
  | openRun hst => exact hr.openRun hrun hst
  | @start o i todo started hst =>
    rw [hst] at hcontent
    have hq := h.queues_start i o.queue
    have hruns := (rests_startProducer s i o.queue).2
    refine hr.goOn (hruns ▸ hrun) (Nat.le_of_eq (congrArg List.length hq.symm))
      (carries_setStage (hruns ▸ hrun) (hcontent.start ?_ _)) (hst ▸ rfl) rfl ?_ (hfed (hst ▸ rfl))
    · rw [queue, hq]
      rfl
    · intro o' todo' he
      have hnil := (Run.Stage.starting.inj he).2.2
      split at hnil
      · exact absurd hnil (List.concat_ne_nil i started)
      · exact hr.early o (i :: todo) (hnil ▸ hst)
  | launchRun hst => exact hr.launchRun hrun hst
  | @ask e i todo stops hst =>
    rw [hst] at hcontent
    have hq := h.queues_ask i
    have hruns := (rests_askProducer s i).2
    refine hr.goOn (hruns ▸ hrun) (Nat.le_of_eq (congrArg List.length hq.symm))
      (carries_setStage (hruns ▸ hrun) ⟨hcontent.1, hcontent.2.of_queue_eq ?_⟩) (hst ▸ rfl) rfl
      (fun _ _ he => by cases he) (hfed (hst ▸ rfl))
    rw [queue, hq]
    rfl
  | await hst hawait =>
    rw [hst] at hcontent
    have hq := h.queues_await hawait
    have hruns := (rests_awaitProducer hawait).2
    refine hr.goOn (hruns ▸ hrun) (Nat.le_of_eq (congrArg List.length hq.symm))
      (carries_setStage (hruns ▸ hrun) ⟨hcontent.1, hcontent.2.of_queue_eq ?_⟩) (hst ▸ rfl) rfl
      (fun _ _ he => by cases he) (hfed (hst ▸ rfl))
    rw [queue, hq]
    rfl
  | @closeRun e hst =>
    rw [hst] at hcontent
    have hlen := hr.queue_lt e.queue (hst ▸ rfl)
    exact hr.goOn (t := ({ s with phase := .draining } : Session).put e.queue _) hrun
      (Nat.le_of_eq List.length_set.symm) (carries_closeRun hcontent hlen hrun) (hst ▸ rfl) rfl
      (fun _ _ he => by cases he) (hfed (hst ▸ rfl))
  | @stopQueue e hst =>
    rw [hst] at hcontent
    have hlen := hr.queue_lt e.queue (hst ▸ rfl)
    exact hr.goOn (t := s.setQueue e.queue _) hrun (Nat.le_of_eq List.length_set.symm)
      (carries_setStage (t := s.setQueue e.queue _) hrun (hcontent.stop hlen)) (hst ▸ rfl) rfl
      (fun _ _ he => by cases he) (hfed (hst ▸ rfl))
  | sealRun hst => exact hr.sealRun h hrun hst

/-! ## Every action -/

/-- A step of one call leaves the others as they are. -/
theorem runs_of_steps {r' : Nat} (hrun : s.runs[r']? = some run) (hs : s.Steps r' run s')
    (hne : r' ≠ r) : s'.runs[r]? = s.runs[r]? := by
  have hstage : ∀ {t : Session} {stage : Run.Stage}, t.runs = s.runs →
      (t.setStage r' stage).runs[r]? = s.runs[r]? := by
    intro t stage hruns
    rw [runs_setStage (hruns ▸ hrun), if_neg hne, hruns]
  cases hs with
  | turn | closeRun | stopQueue => exact hstage rfl
  | openRun =>
    unfold Session.openRun
    split
    · exact hstage rfl
    · exact hstage rfl
  | @start o i => exact hstage (rests_startProducer s i o.queue).2
  | launchRun =>
    unfold Session.launchRun
    split
    · exact hstage rfl
    · exact (runs_setRun (s := { s with phase := .running }) hrun _ r).trans (if_neg hne)
  | @ask e i => exact hstage (rests_askProducer s i).2
  | await hst hawait => exact hstage (rests_awaitProducer hawait).2
  | sealRun => exact (runs_setRun (s := { s with phase := .idle }) hrun _ r).trans (if_neg hne)

theorem runs_of_work {r' : Nat} (hs : s.work? r' = some s') (hne : r' ≠ r) :
    s'.runs[r]? = s.runs[r]? := by
  unfold work? at hs
  obtain ⟨x, hx, hs⟩ := Option.bind_eq_some_iff.mp hs
  obtain ⟨w, -, hs⟩ := Option.bind_eq_some_iff.mp hs
  obtain ⟨⟨w', q⟩, -, hs⟩ := Option.bind_eq_some_iff.mp hs
  obtain rfl := Option.some.inj hs
  exact (runs_setRun (s := s.setQueue w'.queue q) hx _ r).trans (if_neg hne)

/-- A call that is not in stays as it is, whatever the others do. -/
theorem Relayed.of_out (hr : s.Relayed made run) (hout : run.stage.isIn = false) :
    s'.Relayed made run := by
  refine ⟨hr.content.of_out hout, hr.concluded, hr.owned, hr.early, fun n hn => ?_,
    fun hisIn => nomatch hout.symm.trans hisIn⟩
  cases hst : run.stage with
  | called | returned | dropped | crashed =>
    rw [hst] at hn
    nomatch hn
  | _ =>
    rw [hst] at hout
    nomatch hout

theorem Relays.act (hr : s.Relays made r) (h : s.Successive) (hget : s.runs[r]? = some run)
    (ha : s.act? a = some s') (hin : s.InSuccession a) :
    s'.Relays (made ++ produced r (s, a)) r := by
  have hat := stages_getElem? hget
  have hrelayed := hr run hget
  -- Another call, or the worker of another, goes on only if this one is over.
  have hothers : ∀ r', r' ≠ r → (a = .run r' ∨ a = .work r') → s'.runs[r]? = s.runs[r]? →
      s'.Relays made r := by
    intro r' hne hact hsame run' hrun'
    rw [hsame, hget] at hrun'
    obtain rfl := Option.some.inj hrun'
    refine hrelayed.of_out (Bool.eq_false_iff.mpr fun hisIn => hne ?_)
    exact h.alone hat (not_over_of_isIn hisIn) ha hact
  by_cases hrun : ∃ r', a = .run r'
  · obtain ⟨r', rfl⟩ := hrun
    have hnone : produced r (s, .run r') = [] := ite_self _
    rw [hnone, List.append_nil]
    by_cases hr' : r' = r
    · subst hr'
      exact hrelayed.step h hget ha hin
    · obtain ⟨x, hx, hs⟩ := steps_of_step? ha
      exact hothers r' hr' (.inl rfl) (runs_of_steps hx hs hr')
  · by_cases hwork : ∃ r', a = .work r'
    · obtain ⟨r', rfl⟩ := hwork
      have hnone : produced r (s, .work r') = [] := ite_self _
      rw [hnone, List.append_nil]
      by_cases hr' : r' = r
      · subst hr'
        exact fun run' hrun' => hrelayed.work h hget ha hrun'
      · exact hothers r' hr' (.inr rfl) (runs_of_work ha hr')
    · exact fun run' hrun' => hrelayed.other h hget ha hin (fun r' he => hrun ⟨r', he⟩)
        (fun r' he => hwork ⟨r', he⟩) hrun'

/-- No call is forgotten. -/
theorem length_runs_le (ha : s.act? a = some s') : s.runs.length ≤ s'.runs.length := by
  have hle : s.stages.length ≤ s'.stages.length := by
    cases shifts_of_act ha with
    | rests hphase hstages => exact Nat.le_of_eq (congrArg List.length hstages.symm)
    | calls hphase hstages =>
      rw [hstages, List.length_append]
      omega
    | passes hact hst hstages => exact Nat.le_of_eq (by rw [hstages, List.length_set])
  rwa [stages, stages, List.length_map, List.length_map] at hle

/-- A call that is new has done nothing. -/
theorem relays_new (hnone : s.runs[r]? = none) (ha : s.act? a = some s') : s'.Relays [] r := by
  intro run hrun
  have hlen : s.stages.length ≤ r := by
    rw [stages, List.length_map]
    exact List.getElem?_eq_none_iff.mp hnone
  have hr := (List.getElem?_eq_some_iff.mp (stages_getElem? hrun)).1
  cases shifts_of_act ha with
  | rests hphase hstages =>
    rw [hstages] at hr
    omega
  | passes hact hst hstages =>
    rw [hstages, List.length_set] at hr
    omega
  | calls hphase hstages hcall =>
    obtain ⟨id, timeout, faulty, rfl⟩ := hcall
    obtain rfl := Option.some.inj ha
    have hrun' := List.mem_of_getElem? ((List.getElem?_append_right
      (List.getElem?_eq_none_iff.mp hnone)).symm.trans hrun)
    obtain rfl := List.mem_singleton.mp hrun'
    exact ⟨rfl, trivial, nofun, nofun, nofun, nofun⟩

/-- Whatever was produced while call `r` was in. -/
def producedIn (r : Nat) (past : List (Session × Act)) : List Delivery := past.flatMap (produced r)

theorem relays_after {acts : List Act} (h : s.Successive) (hnew : s.runs = [])
    (ha : s.after? acts = some t) (horder : s.Succession acts) (r : Nat) :
    t.Relays (producedIn r (s.moments acts)) r := by
  have hfirst : (s.runs[r]? = none → producedIn r [] = []) ∧ s.Relays (producedIn r []) r :=
    ⟨fun _ => rfl, fun run hrun => by rw [hnew] at hrun; nomatch hrun⟩
  refine (h.after (P := fun t past => (t.runs[r]? = none → producedIn r past = []) ∧
    t.Relays (producedIn r past) r) ?_ [] hfirst ha horder).2.2
  rintro s₁ s₂ a past hs₁ ⟨hnone, hr⟩ ha hin
  have hmore : producedIn r (past ++ [(s₁, a)]) = producedIn r past ++ produced r (s₁, a) := by
    simp [producedIn]
  rw [hmore]
  cases hget : s₁.runs[r]? with
  | none =>
    have hout : produced r (s₁, a) = [] := by
      unfold produced stages
      rw [List.getElem?_map, hget]
      rfl
    rw [hnone hget, hout]
    exact ⟨fun _ => rfl, relays_new hget ha⟩
  | some run =>
    refine ⟨fun hgone => ?_, hr.act hs₁ hget ha hin⟩
    have hlt := (List.getElem?_eq_some_iff.mp hget).1
    have hle := List.getElem?_eq_none_iff.mp hgone
    have hkept := length_runs_le ha
    omega

/-- Whatever is handed over in the end has been produced in exactly one call. -/
theorem produced_once_after {acts : List Act} (h : s.Successive) (ha : s.after? acts = some t)
    (horder : s.Succession acts) : ∀ moment ∈ s.moments acts, moment.1.handed moment.2 = [] ∨
      ∃ r, ∀ r', produced r' moment = if r' = r then moment.1.handed moment.2 else [] := by
  refine (h.after (P := fun _ past => ∀ moment ∈ past, moment.1.handed moment.2 = [] ∨
    ∃ r, ∀ r', produced r' moment = if r' = r then moment.1.handed moment.2 else []) ?_ []
    (List.forall_mem_nil _) ha horder).2
  intro s₁ s₂ a past hs₁ honce ha hin moment hmem
  rcases List.mem_append.mp hmem with hmem | hmem
  · exact honce moment hmem
  · rw [List.mem_singleton.mp hmem]
    exact hs₁.produced_once hin

/-! ## What the sink has received -/

theorem into_eq_map (h : ∀ d ∈ made, d.queue = n) : into n made = made.map (·.spill) := by
  unfold into
  rw [List.filter_eq_self.mpr fun d hd => decide_eq_true (h d hd)]

theorem sink_eq {w : Worker} (hw : run.worker = some w) : run.sink = w.merger.sink := by
  rw [Run.sink, hw]

/-- A worker that has pushed `taken` and, if `finished`, found the queue stopped. -/
theorem receives_of_ran {k : Sink} {m : Merger} {taken : List Spill} (finished : Bool)
    (hm : m.Plain) (hk : k.archive.spills = (m.ran taken finished).sink.archive.spills) :
    ∃ sources, k.Receives (taken.map (·.decodedFrom sources)) finished := by
  obtain ⟨hfresh, hsink, sources, hsources⟩ := hm
  exact ⟨sources, (hfresh.receives_ran hsink hsources taken finished).of_spills_eq hk⟩

theorem Filled.receives {all : List Spill} (h : s.Filled Merger.Plain run n all) :
    ∃ sources, run.sink.Receives (all.map (·.decodedFrom sources)) false := by
  obtain ⟨w, hw, -, hfills⟩ := h
  obtain ⟨taken, ⟨m, hm, hmerger⟩, rfl⟩ := hfills.split
  obtain ⟨sources, h⟩ := receives_of_ran false hm
    (congrArg (·.sink.archive.spills) hmerger)
  rw [sink_eq hw]
  refine ⟨sources, ?_⟩
  rw [List.map_append]
  exact h.append _

theorem Emptied.receives {all : List Spill} (h : s.Emptied Merger.Plain run n all) :
    ∃ sources, run.sink.Receives (all.map (·.decodedFrom sources)) false := by
  obtain ⟨w, hw, -, hends⟩ := h
  rw [sink_eq hw]
  rcases hends.outcome with ⟨-, -, m, hm, hmerger⟩ | ⟨-, m, hm, hmerger⟩ | ⟨-, m, hm, hmerger⟩
  · exact receives_of_ran false hm (congrArg (·.sink.archive.spills) hmerger)
  · obtain ⟨sources, h⟩ := receives_of_ran true hm
      (congrArg (·.sink.archive.spills) hmerger)
    exact ⟨sources, h.partly⟩
  · obtain ⟨sources, h⟩ := receives_of_ran true hm
      (congrArg (·.sink.archive.spills) hmerger)
    exact ⟨sources, h.partly⟩

/-- Between the boundaries of a run is what was produced in it. -/
theorem receives_made {k : Sink} {opening : RunInfo} {complete : Bool} {all : List Spill}
    (closings : List RunInfo) (howned : ∀ d ∈ made, d.queue = n)
    (hall : all = Spill.boundary opening :: into n made ++ closings.map Spill.boundary)
    (h : ∃ sources, k.Receives (all.map (·.decodedFrom sources)) complete) :
    ∃ sources, k.Receives ((made.map (·.spill)).map (·.decodedFrom sources)) complete := by
  obtain ⟨sources, h⟩ := h
  rw [hall, into_eq_map howned] at h
  exact ⟨sources, Merger.receives_inside h⟩

/-- Everything was produced into the queue of the worker. -/
theorem Relayed.queue_eq (hr : s.Relayed made run) {w : Worker} (hw : run.worker = some w)
    (hwq : w.queue = n) (hq : run.stage.queue? = none ∨ run.stage.queue? = some n) :
    ∀ d ∈ made, d.queue = n := by
  intro d hd
  rcases hr.owned d hd with hdq | ⟨x, hx, hdq⟩
  · rcases hq with hq | hq
    · exact nomatch hq.symm.trans hdq
    · exact Option.some.inj (hdq.symm.trans hq)
  · obtain rfl := Option.some.inj (hw.symm.trans hx)
    exact hdq.symm.trans hwq

theorem Relayed.receives_filled (hr : s.Relayed made run) {opening : RunInfo} {all : List Spill}
    (closings : List RunInfo) (h : s.Filled Merger.Plain run n all)
    (hq : run.stage.queue? = some n)
    (hall : all = Spill.boundary opening :: into n made ++ closings.map Spill.boundary) :
    ∃ sources, run.sink.Receives ((made.map (·.spill)).map (·.decodedFrom sources)) false := by
  have hreceives := h.receives
  obtain ⟨w, hw, hwq, -⟩ := h
  exact receives_made closings (hr.queue_eq hw hwq (.inr hq)) hall hreceives

theorem Relayed.receives_settled (hr : s.Relayed made run) {w : Worker} {id : RunId}
    {outcome : Outcome} {opening closing : RunInfo} (hw : run.worker = some w)
    (hsettled : Settled plain made id outcome w opening closing) (hq : run.stage.queue? = none) :
    ∃ sources, run.sink.Receives ((made.map (·.spill)).map (·.decodedFrom sources)) true := by
  obtain ⟨m, hm, hmerger⟩ := hsettled.merger_eq
  have hspills : w.merger.sink.archive.spills =
      (m.ran (opening.bracket closing (into w.queue made)) true).sink.archive.spills := by
    rw [hmerger]
    rfl
  rw [sink_eq hw]
  exact receives_made [closing] (hr.queue_eq hw rfl (.inl hq)) rfl
    (receives_of_ran true hm hspills)

/-- The sink of a call has received what was produced while the call was in, and nothing else. -/
theorem Relayed.receives (hr : s.Relayed made run) :
    ∃ sources, run.sink.Receives ((made.map (·.spill)).map (·.decodedFrom sources))
      run.stage.isOver := by
  have hcontent := hr.content
  have hconcluded := hr.concluded
  have hidle : run.worker = none → run.sink = .empty := fun hw => by rw [Run.sink, hw]
  cases hst : run.stage with
  | called | opening =>
    rw [hst] at hcontent
    rw [hidle hcontent]
    exact ⟨[], .empty _⟩
  | starting =>
    rw [hst] at hcontent
    rw [hidle hcontent.1]
    exact ⟨[], .empty _⟩
  | running | asking | awaiting =>
    rw [hst] at hcontent
    exact hr.receives_filled [] hcontent.2 (hst ▸ rfl) (List.append_nil _).symm
  | draining =>
    rw [hst] at hcontent
    obtain ⟨-, now, settings, hfilled⟩ := hcontent
    exact hr.receives_filled [_] hfilled (hst ▸ rfl) rfl
  | emptied =>
    rw [hst] at hcontent
    obtain ⟨-, -, now, settings, hfilled⟩ := hcontent
    exact hr.receives_filled [_] hfilled (hst ▸ rfl) rfl
  | finishing =>
    rw [hst] at hcontent
    obtain ⟨-, now, settings, hemptied⟩ := hcontent
    have hreceives := hemptied.receives
    obtain ⟨w, hw, hwq, -⟩ := hemptied
    exact receives_made [_] (hr.queue_eq hw hwq (.inr (hst ▸ rfl))) rfl hreceives
  | sealing =>
    rw [hst] at hcontent
    obtain ⟨-, now, settings, w, hw, hwq, ⟨-, m, hm, hmerger⟩, -⟩ := hcontent
    rw [sink_eq hw]
    obtain ⟨sources, h⟩ := receives_made [_]
      (hr.queue_eq hw hwq (.inr (hst ▸ rfl))) rfl
      (receives_of_ran true hm (congrArg (·.sink.archive.spills) hmerger))
    exact ⟨sources, h.partly⟩
  | releasing =>
    rw [hst] at hcontent
    obtain ⟨w, opening, closing, hw, hsettled⟩ := hcontent
    obtain ⟨sources, h⟩ := hr.receives_settled hw hsettled (hst ▸ rfl)
    exact ⟨sources, h.partly⟩
  | returned result =>
    rw [hst] at hcontent hconcluded
    cases result with
    | ok outcome =>
      obtain ⟨w, opening, closing, hw, hsettled⟩ := hcontent
      exact hr.receives_settled hw hsettled (hst ▸ rfl)
    | error fault =>
      cases hw : run.worker with
      | none =>
        obtain rfl := hr.made_eq_nil hw (hst ▸ rfl)
        rw [hidle hw]
        exact ⟨[], .nothing _⟩
      | some w =>
        obtain ⟨opening, closing, -, m, hm, hmerger⟩ := hconcluded w hw
        rw [sink_eq hw]
        exact receives_made [closing] (hr.queue_eq hw rfl (.inl (hst ▸ rfl))) rfl
          (receives_of_ran true hm (congrArg (·.sink.archive.spills) hmerger))
  | dropped | crashed =>
    rw [hst] at hconcluded
    exact hconcluded.elim

end

end Session

end ListMode
