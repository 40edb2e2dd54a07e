import ListMode.Proofs.Session.Frame
import ListMode.Proofs.Session.Steps

/-!
# The effect of each action

Whatever the action, the session stays sound, only the call that acts changes, and the queues of the
other calls get nothing but what their tasks hand over.
-/

namespace ListMode.Session

section

variable {s s' : Session} {r : Nat} {run : Run}

theorem Sound.effect_refl (h : s.Sound) (r : Option Nat) (touched : List Nat) :
    Effect r touched [] s s := by
  have hnone : Effect none touched [] s s :=
    .of_runs_eq h rfl (Nat.le_refl _) (List.forall_mem_nil _) fun _ _ => .of_eq rfl rfl
  cases r with
  | none => exact hnone
  | some r => exact hnone.of_none r

theorem Sound.effect_move (h : s.Sound) {i : Nat} {p p' : Producer} {touched : List Nat}
    {handed : List Delivery} (hp : s.producers[i]? = some p) (hm : p.Moves handed p')
    (hheld : i ∈ touched ∨ p'.slot.held = p.slot.held) :
    Effect none touched handed s ((s.setProducer i p').deliver handed) := by
  refine .of_runs_eq (h.move hp hm) ?_ ?_ (fun d hd => ?_) fun n hn => .move hn hp hm hheld
  · rw [runs_deliver]
    rfl
  · rw [length_queues_deliver]
    exact Nat.le_refl _
  · obtain ⟨hr, t, ht, hq⟩ := hm.handed d hd
    exact ⟨hr, i, t.number, p, hp, t, ht, rfl, hq⟩

theorem Sound.effect_ask (h : s.Sound) (i : Nat) :
    Effect none [i] [] s (s.askProducer i).2 ∧ (s.askProducer i).2.runs = s.runs ∧
    (s.askProducer i).2.queues = s.queues := by
  unfold askProducer
  cases hp : s.producers[i]? with
  | none => exact ⟨h.effect_refl none [i], rfl, rfl⟩
  | some p =>
    obtain ⟨hm, hnil, -⟩ := (h.real i p hp).beginStop s.time
    dsimp only
    generalize p.beginStop s.time = result at hm hnil
    obtain ⟨stopping, spills, p'⟩ := result
    obtain rfl : spills = [] := hnil
    exact ⟨h.effect_move hp hm (.inl (by simp)), rfl, rfl⟩

/-- A producer that holds on to a task answers with a request to it. -/
theorem Sound.ask_held (h : s.Sound) {i k : Nat} (hk : s.Holds i k) :
    ∃ alive, (s.askProducer i).1 = .task ⟨k, alive⟩ := by
  obtain ⟨p, hp, hheld⟩ := hk
  obtain ⟨-, -, htask⟩ := (h.real i p hp).beginStop s.time
  obtain ⟨alive, he⟩ := htask k hheld
  refine ⟨alive, ?_⟩
  unfold askProducer
  rw [hp]
  exact he

theorem Sound.effect_await (h : s.Sound) {stop : Nat × Stopping}
    (hs : s.awaitProducer? stop = some s') :
    Effect none [stop.1] [] s s' ∧ s'.runs = s.runs ∧ s'.queues = s.queues ∧
    ∀ request, stop.2 = .task request → ∀ n, ¬s'.Feeds n stop.1 request.number := by
  unfold awaitProducer? at hs
  obtain ⟨p, hp, hs⟩ := Option.bind_eq_some_iff.mp hs
  obtain ⟨⟨wasRunning, spills, p'⟩, he, hs⟩ := Option.bind_eq_some_iff.mp hs
  obtain ⟨hm, rfl, hheld, hgone⟩ := (h.real _ p hp).endStop he
  obtain rfl := Option.some.inj hs
  refine ⟨h.effect_move hp hm (.inr hheld), rfl, rfl, ?_⟩
  rintro request hr n ⟨x, hx, t, ht, hn, -⟩
  rw [producers_deliver, getElem?_setProducer hp, if_pos rfl] at hx
  obtain rfl := Option.some.inj hx
  exact hgone request hr t ht hn

theorem Sound.effect_start (h : s.Sound) {i m : Nat} (hrun : s.runs[r]? = some run)
    (hm : run.Owns m) : Effect (some r) [i] [] s (s.startProducer i m).2 := by
  have hstarts := h.startProducer i m
  refine ⟨hstarts.sound h (h.owns_lt r run m hrun hm), fun _ _ _ => by rw [hstarts.runs_eq],
    fun j x hj hx => ?_, Nat.le_of_eq (by rw [hstarts.queues_eq]), (List.forall_mem_nil _),
    fun n _ hown => hstarts.frame ?_ (by simp)⟩
  · rw [hstarts.runs_eq, List.getElem?_eq_none hj] at hx
    cases hx
  · rintro rfl
    exact hown r run rfl hrun hm

/-- A call goes to another stage and keeps its queue or gives it up. -/
theorem Sound.effect_keep {t : Session} (h : s.Sound) {stage : Run.Stage} {touched : List Nat}
    (hrun : s.runs[r]? = some run) (hp : t.producers = s.producers) (hr : t.runs = s.runs)
    (hq : t.queues = s.queues)
    (ho : ∀ m, stage.queue? = some m → run.stage.queue? = some m) :
    Effect (some r) touched [] s (t.setStage r stage) := by
  refine h.effect_stage hrun hp hr (Nat.le_of_eq (by rw [hq])) (fun n _ _ => ?_)
    fun m hm => .inl (ho m hm)
  rw [queue, hq]
  rfl

/-- A call changes its queue and goes to another stage. -/
theorem Sound.effect_setQueue {t : Session} (h : s.Sound) {stage : Run.Stage} {m : Nat}
    {q : Handoff Spill} {touched : List Nat} (hrun : s.runs[r]? = some run) (hm : run.Owns m)
    (hp : t.producers = s.producers) (hr : t.runs = s.runs) (hq : t.queues = s.queues.set m q)
    (ho : ∀ m, stage.queue? = some m → run.stage.queue? = some m) :
    Effect (some r) touched [] s (t.setStage r stage) := by
  refine h.effect_stage hrun hp hr (Nat.le_of_eq (by rw [hq, List.length_set]))
    (fun n hn hown => ?_) fun m hm => .inl (ho m hm)
  have hne : m ≠ n := fun he => hown (he ▸ hm)
  rw [queue, hq, List.getD_eq_getElem?_getD, List.getElem?_set_ne hne, queue,
    List.getD_eq_getElem?_getD]

/-- A new queue holds what was put into it. -/
theorem queues_open (s : Session) (spill : Spill) :
    (s.openQueue.2.put s.queues.length spill).queues = s.queues ++ [(Handoff.new.put spill).2] := by
  have hnew : s.openQueue.2.queue s.queues.length = .new := by
    simp [openQueue, queue, List.getD_eq_getElem?_getD]
  rw [put, hnew, setQueue, openQueue]
  simp

theorem Sound.effect_openRun (h : s.Sound) {touched : List Nat} (hrun : s.runs[r]? = some run) :
    Effect (some r) touched [] s (s.openRun r run) := by
  unfold openRun
  split
  · exact h.effect_keep (t := { s with phase := .idle }) hrun rfl rfl rfl fun _ hm => nomatch hm
  · have hq := s.queues_open (.boundary (.opening run.id s.now s.detectors s.snapshot))
    refine h.effect_stage (t := s.openQueue.2.put s.queues.length _) hrun rfl rfl ?_ ?_ ?_
    · rw [hq]
      simp
    · intro n hn _
      rw [queue, hq, queue, List.getD_eq_getElem?_getD, List.getD_eq_getElem?_getD,
        List.getElem?_append_left hn]
    · intro m hm
      obtain rfl : s.queues.length = m := Option.some.inj hm
      refine .inr ⟨Nat.le_refl _, ?_⟩
      rw [hq]
      simp

theorem Sound.effect_launchRun (h : s.Sound) {touched : List Nat} {o : Opened} {started : List Nat}
    (hrun : s.runs[r]? = some run) (ho : run.stage.queue? = some o.queue) :
    Effect (some r) touched [] s (s.launchRun r run o started) := by
  unfold launchRun
  split
  · exact h.effect_setQueue (t := { s.setQueue o.queue (s.queue o.queue).stop with phase := .idle })
      hrun (.inl ho) rfl rfl rfl fun _ hm => nomatch hm
  · refine h.effect_run hrun rfl (Nat.le_refl _) (fun _ _ _ => rfl) (runs_setRun hrun _) ?_
    rintro m (hm | ⟨w, hw, hm⟩)
    · obtain rfl : o.queue = m := Option.some.inj hm
      exact .inl (.inl ho)
    · obtain rfl := Option.some.inj hw
      obtain rfl : o.queue = m := hm
      exact .inl (.inl ho)

/-- A call has no queue after such a step, or the one that it had. -/
theorem Turns.queue_eq {phase : Phase} {stage : Run.Stage} (h : s.Turns run phase stage) {m : Nat}
    (hm : stage.queue? = some m) : run.stage.queue? = some m := by
  cases h with
  | letIn | refuse | crash | lose | release => nomatch hm
  | leave hst | watch hst | allAsked hst | sleep hst | wake hst | drained hst | collect hst =>
    rw [hst]
    exact hm

theorem Sound.effect_closeRun (h : s.Sound) {touched : List Nat} {e : Ending}
    (hrun : s.runs[r]? = some run) (ho : run.stage.queue? = some e.queue) :
    Effect (some r) touched [] s (s.closeRun r e) := by
  show Effect _ _ _ s (setStage _ r (.draining e none))
  refine h.effect_setQueue hrun (.inl ho) rfl rfl rfl fun m hm => ?_
  exact ho.trans hm

theorem Sound.effect_seal (h : s.Sound) {touched : List Nat} {e : Ending} {report : Report}
    (hrun : s.runs[r]? = some run) : Effect (some r) touched [] s (s.sealRun r run e report) := by
  unfold sealRun
  refine h.effect_run hrun rfl (Nat.le_refl _) (fun _ _ _ => rfl) (runs_setRun hrun _) ?_
  rintro m (hm | ⟨w, hw, hm⟩)
  · cases hm
  · obtain ⟨w', hw', rfl⟩ := Option.map_eq_some_iff.mp hw
    exact .inl (.inr ⟨w', hw', hm⟩)

/-- What a step of a call does to the rest of the session. -/
theorem Sound.effect_step (h : s.Sound) (hrun : s.runs[r]? = some run) (hs : s.Steps r run s') :
    Effect (some r) run.stage.touched [] s s' := by
  have howns : ∀ {stage : Run.Stage} {n : Nat}, run.stage = stage → stage.queue? = some n →
      run.stage.queue? = some n := fun hst hn => hst ▸ hn
  cases hs with
  | turn hturn =>
    exact h.effect_keep (t := { s with phase := _ }) hrun rfl rfl rfl fun _ => hturn.queue_eq
  | openRun hst => exact h.effect_openRun hrun
  | @start o i todo started hst =>
    have ho := howns hst rfl
    rw [hst]
    have hstart := h.effect_start (i := i) hrun (.inl ho)
    have hruns := (h.startProducer i o.queue).runs_eq
    exact hstart.trans hruns
      (hstart.sound.effect_keep (hruns ▸ hrun) rfl rfl rfl fun m hm => ho.trans hm)
  | launchRun hst => exact h.effect_launchRun hrun (howns hst rfl)
  | @ask e i todo stops hst =>
    have ho := howns hst rfl
    rw [hst]
    obtain ⟨hask, hruns, hqueues⟩ := h.effect_ask i
    exact (hask.of_none r).trans hruns
      (hask.sound.effect_keep (hruns ▸ hrun) rfl rfl rfl fun m hm => ho.trans hm)
  | @await e stop before after t hst hawait =>
    have ho := howns hst rfl
    have hmem : stop.1 ∈ run.stage.touched := by
      rw [hst]
      simp [Run.Stage.touched]
    obtain ⟨hawait, hruns, hqueues, -⟩ := h.effect_await hawait
    exact ((hawait.mono fun i hi => List.mem_singleton.mp hi ▸ hmem).of_none r).trans hruns
      (hawait.sound.effect_keep (hruns ▸ hrun) rfl rfl rfl fun m hm => ho.trans hm)
  | closeRun hst => exact h.effect_closeRun hrun (howns hst rfl)
  | stopQueue hst =>
    have ho := howns hst rfl
    exact h.effect_setQueue hrun (.inl ho) rfl rfl rfl fun m hm => ho.trans hm
  | sealRun hst => exact h.effect_seal hrun

/-! ## Workers, tasks and requests from outside -/

theorem queue_react (w : Worker) (id : Nat) (seen : Handoff.Look Spill) :
    (w.react id seen).queue = w.queue := by
  unfold Worker.react
  split
  · rfl
  · rfl
  · split <;> rfl

theorem queue_step {w w' : Worker} {q q' : Handoff Spill} (h : w.step? q = some (w', q')) :
    w'.queue = w.queue := by
  unfold Worker.step? at h
  split at h
  · obtain ⟨rfl, -⟩ := Prod.mk.inj (Option.some.inj h)
    exact queue_react _ _ _
  · obtain ⟨⟨seen, q₁⟩, -, h⟩ := Option.map_eq_some_iff.mp h
    obtain ⟨rfl, -⟩ := Prod.mk.inj h
    exact queue_react _ _ _
  · cases h
  · cases h

theorem Sound.effect_work (h : s.Sound) (hs : s.work? r = some s') :
    Effect (some r) [] [] s s' := by
  unfold work? at hs
  obtain ⟨run, hrun, hs⟩ := Option.bind_eq_some_iff.mp hs
  obtain ⟨w, hw, hs⟩ := Option.bind_eq_some_iff.mp hs
  obtain ⟨⟨w', q⟩, hstep, hs⟩ := Option.bind_eq_some_iff.mp hs
  obtain rfl := Option.some.inj hs
  have hqueue := queue_step hstep
  refine h.effect_run hrun rfl ?_ ?_ (runs_setRun (s := s.setQueue w'.queue q) hrun _) ?_
  · exact Nat.le_of_eq List.length_set.symm
  · intro n hn hown
    refine (queue_setQueue s w'.queue q hn).trans (if_neg fun hwn => ?_)
    exact hown (.inr ⟨w, hw, hqueue.symm.trans hwn⟩)
  · rintro m (hm | ⟨x, hx, hm⟩)
    · exact .inl (.inl hm)
    · obtain rfl := Option.some.inj hx
      exact .inl (.inr ⟨w, hw, hqueue.symm.trans hm⟩)

theorem Sound.effect_tick (h : s.Sound) {i n : Nat} (hs : s.tick? i n = some s') :
    Effect none [] (s.handed (.tick i n)) s s' := by
  unfold tick? at hs
  obtain ⟨p, hp, hs⟩ := Option.bind_eq_some_iff.mp hs
  obtain ⟨⟨handed, p'⟩, ht, hs⟩ := Option.bind_eq_some_iff.mp hs
  obtain rfl := Option.some.inj hs
  have hh : s.handed (.tick i n) = handed := by simp [Session.handed, hp, ht]
  rw [hh]
  obtain ⟨hm, hheld⟩ := (h.real i p hp).tick ht
  exact h.effect_move hp hm (.inr hheld)

theorem Sound.effect_notice (h : s.Sound) {i n : Nat} (hs : s.notice? i n = some s') :
    Effect none [] (s.handed (.notice i n)) s s' := by
  unfold notice? at hs
  obtain ⟨p, hp, hs⟩ := Option.bind_eq_some_iff.mp hs
  obtain ⟨⟨handed, p'⟩, ht, hs⟩ := Option.bind_eq_some_iff.mp hs
  obtain rfl := Option.some.inj hs
  have hh : s.handed (.notice i n) = handed := by simp [Session.handed, hp, ht]
  rw [hh]
  obtain ⟨hm, hheld⟩ := (h.real i p hp).notice ht
  exact h.effect_move hp hm (.inr hheld)

theorem Sound.effect_boot (h : s.Sound) (i : Nat) : Effect none [] [] s (s.bootProducer i).2 := by
  unfold bootProducer
  cases hp : s.producers[i]? with
  | none => exact h.effect_refl none []
  | some p =>
    obtain ⟨hm, hheld⟩ := (h.real i p hp).boot
    exact h.effect_move hp hm (.inr hheld)

theorem Sound.effect_write (h : s.Sound) (i : Nat) (settings : Tree) :
    Effect none [] [] s (s.writeProducer i settings).2 := by
  unfold writeProducer
  cases hp : s.producers[i]? with
  | none => exact h.effect_refl none []
  | some p =>
    obtain ⟨hm, hheld⟩ := (h.real i p hp).write settings
    exact h.effect_move hp hm (.inr hheld)

theorem Sound.effect_shutdown (h : s.Sound) (i : Nat) :
    Effect none [i] (s.handed (.shutdown i)) s (s.shutdownProducer i).2 := by
  cases hp : s.producers[i]? with
  | none =>
    have hs : (s.shutdownProducer i).2 = s := by simp [shutdownProducer, hp]
    have hh : s.handed (.shutdown i) = [] := by simp [Session.handed, hp]
    rw [hs, hh]
    exact h.effect_refl none [i]
  | some p =>
    have hs : (s.shutdownProducer i).2 = (s.setProducer i (p.shutdown s.time s.now).2.2).deliver
        (p.shutdown s.time s.now).2.1 := by simp [shutdownProducer, hp]
    have hh : s.handed (.shutdown i) = (p.shutdown s.time s.now).2.1 := by
      simp [Session.handed, hp]
    rw [hs, hh]
    exact h.effect_move hp ((h.real i p hp).shutdown s.time s.now) (.inl (by simp))

/-- Somebody else's start has a queue of its own. -/
theorem Sound.effect_outside_start (h : s.Sound) (i : Nat) :
    Effect none [i] [] s (s.openQueue.2.startProducer i s.openQueue.1).2 := by
  have hlen : s.openQueue.2.queues.length = s.queues.length + 1 := by simp [openQueue]
  have hopen : s.openQueue.2.Sound := h.of_eq rfl (by omega) rfl
  have hstarts := hopen.startProducer i s.queues.length
  have hlen' : s.queues.length ≤
      (s.openQueue.2.startProducer i s.queues.length).2.queues.length := by
    rw [hstarts.queues_eq]
    omega
  refine .of_runs_eq (hstarts.sound hopen (by omega)) hstarts.runs_eq hlen'
    (List.forall_mem_nil _) fun n hn => ?_
  have hold : Frame n [i] [] s s.openQueue.2 := by
    refine .of_eq ?_ rfl
    rw [queue, queue, openQueue, List.getD_eq_getElem?_getD, List.getD_eq_getElem?_getD,
      List.getElem?_append_left hn]
  exact hold.trans (hstarts.frame (by omega) (by simp))

theorem Sound.effect_call (h : s.Sound) (id : RunId) (timeout : Option Nat) (faulty : Bool) :
    Effect none [] [] s (s.call id timeout faulty).2 := by
  have hr : ∀ j, (s.call id timeout faulty).2.runs[j]? = if s.runs.length = j then
      some { id, timeout, cancelled := false, faulty, stage := .called, worker := none } else
      s.runs[j]? := by
    intro j
    unfold call
    rw [List.getElem?_append]
    split
    · rw [if_neg (by omega)]
    · split
      · rename_i hj
        simp [← hj]
      · rw [List.getElem?_singleton, if_neg (by omega), List.getElem?_eq_none (by omega)]
  refine ⟨h.set_run rfl (Nat.le_refl _) hr ?_, fun j hj _ => ?_, fun j x hj hx => ?_,
    Nat.le_refl _, (List.forall_mem_nil _), fun _ _ _ => .of_eq rfl rfl⟩
  · rintro m (hm | ⟨w, hw, -⟩)
    · cases hm
    · cases hw
  · rw [hr, if_neg (by omega)]
  · rw [hr] at hx
    split at hx
    · obtain rfl := Option.some.inj hx
      exact ⟨rfl, rfl⟩
    · rw [List.getElem?_eq_none hj] at hx
      cases hx

/-- A request to a call keeps its queue or gives it up. -/
theorem Sound.effect_modify (h : s.Sound) {f : Run → Run} (hp : s'.producers = s.producers)
    (hq : s'.queues = s.queues) (hr : s'.runs = s.runs.modify r f)
    (ho : ∀ run n, (f run).Owns n → run.Owns n) : Effect (some r) [] [] s s' := by
  have hframe : ∀ n, Frame n [] [] s s' := fun n => .of_eq (by rw [queue, hq]; rfl) hp
  cases hrun : s.runs[r]? with
  | none =>
    have hsame : s'.runs = s.runs := by
      refine hr.trans (List.ext_getElem? fun j => ?_)
      rw [List.getElem?_modify]
      split
      · rename_i hj
        rw [← hj, hrun]
        rfl
      · simp
    have hnone : Effect none [] [] s s' :=
      .of_runs_eq (h.of_eq hp (Nat.le_of_eq (by rw [hq])) hsame) hsame (Nat.le_of_eq (by rw [hq]))
        (List.forall_mem_nil _) fun n _ => hframe n
    exact hnone.of_none r
  | some run =>
    have hget : ∀ j, s'.runs[j]? = if r = j then some (f run) else s.runs[j]? := by
      intro j
      rw [hr, List.getElem?_modify]
      split
      · rename_i hj
        rw [← hj, hrun]
        rfl
      · simp
    exact h.effect_run hrun hp (Nat.le_of_eq (by rw [hq])) (fun n _ _ => by rw [queue, hq]; rfl)
      hget fun m hm => .inl (ho run m hm)

theorem Sound.effect_drop (h : s.Sound) (r : Nat) : Effect (some r) [] [] s (s.drop r) := by
  have hdrop : ∀ (run : Run) (n : Nat), ({ run with stage := .dropped } : Run).Owns n →
      run.Owns n := by
    rintro run n (hn | hn)
    · cases hn
    · exact .inr hn
  unfold drop
  cases hrun : s.runs[r]? with
  | none => exact h.effect_refl _ _
  | some run =>
    dsimp only
    split
    · exact h.effect_refl _ _
    · exact h.effect_refl _ _
    · exact h.effect_refl _ _
    · exact h.effect_modify rfl rfl rfl hdrop
    · exact h.effect_modify rfl rfl rfl hdrop

/-- What an action does to the rest of the session. -/
theorem Sound.effect (h : s.Sound) {a : Act} (ha : s.act? a = some s') :
    Effect a.subject (s.touched a) (s.handed a) s s' := by
  cases a with
  | run r =>
    obtain ⟨run, hrun, hs⟩ := steps_of_step? ha
    have ht : s.touched (.run r) = run.stage.touched := by simp [Session.touched, hrun]
    rw [ht]
    exact h.effect_step hrun hs
  | work r => exact h.effect_work ha
  | tick i n => exact h.effect_tick ha
  | notice i n => exact h.effect_notice ha
  | wait ms =>
    obtain rfl := Option.some.inj ha
    exact .of_runs_eq (h.of_eq rfl (Nat.le_refl _) rfl) rfl (Nat.le_refl _) (List.forall_mem_nil _)
      fun _ _ => .of_eq rfl rfl
  | call id timeout faulty =>
    obtain rfl := Option.some.inj ha
    exact h.effect_call id timeout faulty
  | cancel r =>
    obtain rfl := Option.some.inj ha
    exact h.effect_modify rfl rfl rfl fun _ _ hn => hn
  | drop r =>
    obtain rfl := Option.some.inj ha
    exact h.effect_drop r
  | boot i =>
    obtain rfl := Option.some.inj ha
    exact h.effect_boot i
  | write i settings =>
    obtain rfl := Option.some.inj ha
    exact h.effect_write i settings
  | start i =>
    obtain rfl := Option.some.inj ha
    exact h.effect_outside_start i
  | ask i =>
    obtain rfl := Option.some.inj ha
    exact (h.effect_ask i).1
  | await i stopping => exact (h.effect_await ha).1
  | shutdown i =>
    obtain rfl := Option.some.inj ha
    exact h.effect_shutdown i

end

end ListMode.Session
