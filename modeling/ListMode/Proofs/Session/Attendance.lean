import ListMode.Proofs.Producer.Slot
import ListMode.Proofs.Session.Admission
import ListMode.Proofs.Session.Operations

/-!
# Who attends to a polling task

A session that is used in order: producers are booted, started, stopped and shut down only while no
call is in, a call is let in only when the one before has returned, and no call is given up or
crashes between its first start and the end of its worker. Then the call that is in attends to every
task of a producer that nobody else starts: the producer holds the task and the call is still to ask
it, or the call waits for it. Without such a call there is no task.
-/

namespace ListMode

/-- The request to a polling task that a stop waits for. -/
def Stopping.request? : Stopping → Option Polling.Request
  | .task request => some request
  | _ => none

/-- The requests among `stops` that wait for tasks of producer `i`. -/
def Stopping.requests (i : Nat) (stops : List (Nat × Stopping)) : List Polling.Request :=
  stops.filterMap fun stop => if stop.1 = i then stop.2.request? else none

theorem Stopping.requests_append (i : Nat) (stops more : List (Nat × Stopping)) :
    requests i (stops ++ more) = requests i stops ++ requests i more := List.filterMap_append

theorem Stopping.requests_cons_self (stop : Nat × Stopping) (rest : List (Nat × Stopping)) :
    requests stop.1 (stop :: rest) = stop.2.request?.toList ++ requests stop.1 rest := by
  unfold requests
  rw [List.filterMap_cons, if_pos rfl]
  cases stop.2.request? <;> rfl

theorem Stopping.requests_cons_ne {i : Nat} {stop : Nat × Stopping} (h : stop.1 ≠ i)
    (rest : List (Nat × Stopping)) : requests i (stop :: rest) = requests i rest := by
  unfold requests
  rw [List.filterMap_cons, if_neg h]

namespace Run.Stage

/-- Requests by which a call at this stage waits for tasks of producer `i`. -/
def requests (i : Nat) : Run.Stage → List Polling.Request
  | .asking _ _ stops | .awaiting _ stops => Stopping.requests i stops
  | _ => []

/-- Places of the producers that a call at this stage has started and has still to ask to stop. -/
def holding : Run.Stage → List Nat
  | .starting _ _ started => started
  | .running l _ => l.started
  | .asking _ todo _ => todo
  | _ => []

/-- Ending the call here leaves tasks or a worker behind. -/
def isLoaded : Run.Stage → Bool
  | .starting _ _ started => !started.isEmpty
  | .running .. | .asking .. | .awaiting .. | .draining .. | .emptied _ | .finishing _ => true
  | _ => false

/-- The stage of the call that is in; without one, that of a call that has done nothing. -/
def inAmong (stages : List Run.Stage) : Run.Stage := (stages.find? (·.isIn)).getD .called

end Run.Stage

/-- The next step ends the call abnormally. -/
def Run.crashes (run : Run) : Bool :=
  match run.stage with
  | .running _ w => w.crashes run.cancelled
  | _ => false

theorem Run.crashes_of_running {run : Run} {l : Launched} {w : Watch}
    (hst : run.stage = .running l w) : run.crashes = w.crashes run.cancelled := by
  unfold Run.crashes
  rw [hst]

/-- A call tries each producer once, it has no worker before its producers are started, and its
worker is over when it ends. -/
def Run.Coherent (run : Run) : Prop :=
  match run.stage with
  | .called | .opening => run.worker = none
  | .starting _ todo started => run.worker = none ∧ (started ++ todo).Nodup
  | .sealing .. | .releasing _ | .returned _ | .dropped | .crashed =>
    ∀ w, run.worker = some w → w.stage = .ended ∨ w.stage = .lost
  | _ => True

/-- Producer `p` at place `i`, seen by a call at `stage`: at most one task counts, which the producer
holds and the call has still to ask, or the call waits for. -/
structure Producer.Attended (i : Nat) (stage : Run.Stage) (p : Producer) : Prop where
  real : ∀ x, p.device ≠ .scripted x
  sole : p.slot.Sole (stage.requests i)
  held : p.slot.held.isSome = true → i ∈ stage.holding

namespace Producer.Attended

section

variable {i : Nat} {stage stage' : Run.Stage} {p p' : Producer} {handed : List Delivery}

theorem of_stage (h : p.Attended i stage) (hrequests : stage'.requests i = stage.requests i)
    (hholding : i ∈ stage.holding → i ∈ stage'.holding) : p.Attended i stage' :=
  ⟨h.real, hrequests ▸ h.sole, fun hheld => hholding (h.held hheld)⟩

/-- A call that attends to nothing leaves no task. -/
theorem bare (h : p.Attended i stage) (hrequests : stage.requests i = [])
    (hholding : i ∉ stage.holding) :
    p.slot.held = none ∧ p.slot.tasks = [] ∧ p.slot.crashed = [] := by
  have hheld : p.slot.held = none :=
    Option.not_isSome_iff_eq_none.mp fun hsome => hholding (h.held hsome)
  have hsole := h.sole
  rw [hrequests] at hsole
  obtain ⟨htasks, hcrashed⟩ := List.append_eq_nil_iff.mp (hsole.unfinished_eq_nil hheld)
  exact ⟨hheld, List.map_eq_nil_iff.mp htasks, hcrashed⟩

theorem of_slot_eq (h : p.Attended i stage) (hslot : p'.slot = p.slot)
    (hreal : ∀ x, p'.device ≠ .scripted x) : p'.Attended i stage :=
  ⟨hreal, hslot ▸ h.sole, hslot ▸ h.held⟩

theorem boot (h : p.Attended i stage) : p.boot.2.Attended i stage := by
  obtain ⟨status, hboot⟩ := boot_eq p
  rw [hboot]
  exact h.of_slot_eq rfl h.real

theorem write (h : p.Attended i stage) (settings : Tree) :
    (p.write settings).2.Attended i stage := by
  obtain ⟨device, hwrite, hreal⟩ := write_eq p settings
  rw [hwrite]
  exact h.of_slot_eq rfl (hreal h.real)

theorem polls (h : p.Attended i stage) {n : Nat} {slot : Polling.Slot Acquisition}
    (hpolls : Polls p.slot n slot) : ({ p with slot } : Producer).Attended i stage :=
  ⟨h.real, hpolls.sole h.sole, fun hheld => h.held (hpolls.held_eq ▸ hheld)⟩

/-- The call starts the producer, which nobody has started before. -/
theorem start (h : p.Attended i stage) (hrequests : stage.requests i = [])
    (hholding : i ∉ stage.holding) (l : Launch) (hrequests' : stage'.requests i = [])
    (hholding' : (p.start l).1 = true → i ∈ stage'.holding) :
    (p.start l).2.2.Attended i stage' := by
  obtain ⟨hheld, -, -⟩ := h.bare hrequests hholding
  have hsole := h.sole
  rw [hrequests] at hsole
  rcases start_eq h.real l with ⟨-, he⟩ | ⟨-, work, he⟩
  · rw [he]
    refine ⟨h.real, hrequests' ▸ hsole, fun hsome => ?_⟩
    rw [hheld] at hsome
    nomatch hsome
  · rw [he] at hholding' ⊢
    refine ⟨h.real, hrequests' ▸ hsole.start _, fun _ => hholding' ?_⟩
    show (p.slot.start _).1 = true
    unfold Polling.Slot.start
    rw [hheld]
    rfl

/-- The call asks the producer to stop, and waits for the task that the producer held. -/
theorem beginStop (h : p.Attended i stage) (time : Nat)
    (hrequests : stage'.requests i =
      stage.requests i ++ (p.beginStop time).1.request?.toList) :
    (p.beginStop time).2.2.Attended i stage' := by
  have hsole := h.sole.beginStop
  have hheld : p.slot.beginStop.2.held = none := rfl
  rw [beginStop_eq h.real] at hrequests ⊢
  generalize p.slot.beginStop = begun at hsole hheld hrequests ⊢
  obtain ⟨request, slot⟩ := begun
  have hrequest : ((request.map Stopping.task).getD (.complete false)).request? = request := by
    cases request <;> rfl
  rw [hrequest] at hrequests
  refine ⟨h.real, hrequests ▸ hsole, fun hsome => ?_⟩
  replace hheld : slot.held = none := hheld
  rw [hheld] at hsome
  nomatch hsome

/-- A stop that is completed leaves one request less. -/
theorem endStop (h : p.Attended i stage) (before after : List Polling.Request)
    {stopping : Stopping} {time : Nat} {wasRunning : Bool}
    (hrequests : stage.requests i = before ++ (stopping.request?.toList ++ after))
    (hheld : p.slot.held = none)
    (he : p.endStop? time stopping = some (wasRunning, handed, p'))
    (hrequests' : stage'.requests i = before ++ after) : p'.Attended i stage' := by
  have hsole := h.sole
  rw [hrequests] at hsole
  rcases endStop_cases h.real he with ⟨rfl, hnot⟩ | ⟨request, wasAlive, slot, rfl, hslot, rfl⟩
  · have hnone : stopping.request? = none := by
      cases stopping with
      | task request => exact absurd rfl (hnot request)
      | _ => rfl
    rw [hnone] at hsole
    refine ⟨h.real, hrequests' ▸ hsole, fun hsome => ?_⟩
    rw [hheld] at hsome
    nomatch hsome
  · have hmem : request ∈ before ++ ([request] ++ after) :=
      List.mem_append_right _ List.mem_cons_self
    obtain ⟨hsole', hheld', -⟩ := hsole.endStop hmem hslot
    obtain ⟨-, hone⟩ := hsole.waiting_eq hmem
    rw [hone, List.erase_cons_head] at hsole'
    -- The request was the only one, so nothing is waited for any more.
    have hnone : before ++ after = [] := by
      have hlen := congrArg List.length hone
      replace hlen : (before ++ ([request] ++ after)).length = 1 := hlen
      rw [List.length_append, List.length_append, List.length_singleton] at hlen
      refine List.eq_nil_of_length_eq_zero ?_
      rw [List.length_append]
      omega
    refine ⟨h.real, ?_, fun hsome => ?_⟩
    · rw [hrequests', hnone]
      exact hsole'
    · replace hheld' : slot.held = none := hheld'
      rw [hheld'] at hsome
      nomatch hsome

/-! ## Without a call -/

theorem slot_beginStop (h : p.Attended i stage) (hrequests : stage.requests i = [])
    (hholding : i ∉ stage.holding) : p.slot.beginStop = (none, p.slot) := by
  obtain ⟨hheld, -, -⟩ := h.bare hrequests hholding
  exact Polling.Slot.beginStop_of_held_none hheld

theorem ask (h : p.Attended i stage) (hrequests : stage.requests i = [])
    (hholding : i ∉ stage.holding) (time : Nat) :
    (p.beginStop time).2.2.Attended i stage := by
  rw [beginStop_eq h.real, h.slot_beginStop hrequests hholding]
  exact h

theorem await (h : p.Attended i stage) (hrequests : stage.requests i = [])
    (hholding : i ∉ stage.holding) {stopping : Stopping} {time : Nat} {wasRunning : Bool}
    (he : p.endStop? time stopping = some (wasRunning, handed, p')) : p'.Attended i stage := by
  obtain ⟨-, -, hcrashed⟩ := h.bare hrequests hholding
  rcases endStop_cases h.real he with ⟨rfl, -⟩ | ⟨request, wasAlive, slot, -, hslot, rfl⟩
  · exact h
  · refine h.of_slot_eq ?_ h.real
    unfold Polling.Slot.endStop? at hslot
    rw [hcrashed, if_neg List.not_mem_nil] at hslot
    split at hslot
    · nomatch hslot
    · exact (Prod.mk.inj (Option.some.inj hslot)).2.symm

/-- Where there is no task, stopping the producer does nothing to its slot. -/
theorem shutdown (h : p.Attended i stage) (hrequests : stage.requests i = [])
    (hholding : i ∉ stage.holding) (time : Nat) (now : Instant) :
    (p.shutdown time now).2.2.Attended i stage := by
  have hstop : p.stop time now = (false, [], p) := by
    unfold Producer.stop
    rw [beginStop_eq h.real, h.slot_beginStop hrequests hholding]
    rfl
  rw [shutdown_eq h.real, hstop]
  exact h.of_slot_eq rfl h.real

end

end Producer.Attended

namespace Session

/-- The stage of the call that is in. -/
def current (s : Session) : Run.Stage := .inAmong s.stages

/-- The action keeps to the order. -/
def InTurn (s : Session) : Act → Prop
  | .run r => (s.letsIn (.run r) = true → ∀ stage ∈ s.stages, stage.isReleasing = false) ∧
      ∀ run ∈ s.runs[r]?, run.crashes = false
  | .drop r => ∀ stage ∈ s.stages[r]?, stage.isLoaded = false
  | .boot _ | .start _ | .ask _ | .await .. | .shutdown _ =>
    ∀ stage ∈ s.stages, stage.isIn = false
  | _ => True

instance decidableInTurn (s : Session) : (a : Act) → Decidable (s.InTurn a)
  | .run r => inferInstanceAs (Decidable ((s.letsIn (.run r) = true → ∀ stage ∈ s.stages,
      stage.isReleasing = false) ∧ ∀ run ∈ s.runs[r]?, run.crashes = false))
  | .drop r => inferInstanceAs (Decidable (∀ stage ∈ s.stages[r]?, stage.isLoaded = false))
  | .boot _ | .start _ | .ask _ | .await .. | .shutdown _ =>
    inferInstanceAs (Decidable (∀ stage ∈ s.stages, stage.isIn = false))
  | .work _ | .tick .. | .notice .. | .wait _ | .call .. | .cancel _ | .write .. =>
    inferInstanceAs (Decidable True)

/-- Every action keeps to the order. -/
def Orderly (s : Session) : List Act → Prop
  | [] => True
  | a :: rest => s.InTurn a ∧ ∀ s' ∈ s.act? a, s'.Orderly rest

instance decidableOrderly : (acts : List Act) → (s : Session) → Decidable (s.Orderly acts)
  | [], _ => inferInstanceAs (Decidable True)
  | a :: rest, s =>
    have := decidableOrderly rest
    inferInstanceAs (Decidable (s.InTurn a ∧ ∀ s' ∈ s.act? a, s'.Orderly rest))

section

variable {s s' : Session} {a : Act} {r i : Nat} {run : Run} {stage stage' : Run.Stage}
  {stages : List Run.Stage} {p p' : Producer}

/-! ## The call that is in -/

theorem inAmong_eq (hst : stages[r]? = some stage) (hin : stage.isIn = true)
    (hothers : OthersOut r stages) : Run.Stage.inAmong stages = stage := by
  unfold Run.Stage.inAmong
  cases hfind : stages.find? (·.isIn) with
  | none => exact absurd hin (List.find?_eq_none.mp hfind stage (List.mem_of_getElem? hst))
  | some x =>
    obtain ⟨j, hj⟩ := List.mem_iff_getElem?.mp (List.mem_of_find?_eq_some hfind)
    have hx : x.isIn = true := List.find?_some hfind
    by_cases hjr : j = r
    · subst hjr
      exact Option.some.inj (hj.symm.trans hst)
    · exact absurd hx (Bool.eq_false_iff.mp (hothers j x hjr hj))

theorem inAmong_none (h : ∀ stage ∈ stages, stage.isIn = false) :
    Run.Stage.inAmong stages = .called := by
  unfold Run.Stage.inAmong
  rw [List.find?_eq_none.mpr fun x hx => Bool.eq_false_iff.mp (h x hx)]
  rfl

/-- Where only one call may be in, it is the one that is looked for. -/
theorem inAmong_cases (hst : stages[r]? = some stage) (hothers : OthersOut r stages) :
    Run.Stage.inAmong stages = stage ∨
      stage.isIn = false ∧ Run.Stage.inAmong stages = .called := by
  cases hin : stage.isIn with
  | true => exact .inl (inAmong_eq hst hin hothers)
  | false =>
    refine .inr ⟨rfl, inAmong_none fun x hx => ?_⟩
    obtain ⟨j, hj⟩ := List.mem_iff_getElem?.mp hx
    by_cases hjr : j = r
    · subst hjr
      rw [← Option.some.inj (hst.symm.trans hj), hin]
    · exact hothers j x hjr hj

theorem inAmong_append_called (stages : List Run.Stage) :
    Run.Stage.inAmong (stages ++ [.called]) = Run.Stage.inAmong stages := by
  unfold Run.Stage.inAmong
  rw [List.find?_append]
  cases stages.find? (·.isIn) with
  | none => rfl
  | some x => rfl

/-- A call that is not in attends to nothing, and so does one that leaves nothing behind. -/
theorem bare_of_out (h : stage.isIn = false ∨ stage.isLoaded = false) :
    stage.requests i = [] ∧ i ∉ stage.holding := by
  cases stage with
  | starting o todo started =>
    rcases h with h | h
    · nomatch h
    · refine ⟨rfl, fun hi => ?_⟩
      replace h : (!started.isEmpty) = false := h
      rw [Bool.not_eq_false', List.isEmpty_iff] at h
      rw [Run.Stage.holding, h] at hi
      nomatch hi
  | running | asking | awaiting | draining | emptied | finishing =>
    rcases h with h | h <;> nomatch h
  | _ => exact ⟨rfl, List.not_mem_nil⟩

/-- A call that is not in leaves the one that is in where it is. -/
theorem inAmong_set_out (hst : stages[r]? = some stage) (hout : stage.isIn = false)
    (hout' : stage'.isIn = false) :
    Run.Stage.inAmong (stages.set r stage') = Run.Stage.inAmong stages := by
  unfold Run.Stage.inAmong
  congr 1
  induction stages generalizing r with
  | nil => rfl
  | cons x rest ih =>
    cases r with
    | zero =>
      obtain rfl := Option.some.inj hst
      simp [hout, hout']
    | succ r =>
      rw [List.set_cons_succ, List.find?_cons, List.find?_cons, ih hst]

/-! ## Steps of a call -/

theorem getElem?_startProducer (s : Session) (j n : Nat) :
    (s.startProducer j n).2.producers[i]? =
      if j = i then (s.producers[i]?).map fun p => (p.start (s.launch n)).2.2
      else s.producers[i]? := by
  unfold startProducer
  cases hp : s.producers[j]? with
  | none =>
    by_cases hj : j = i
    · rw [if_pos hj, ← hj, hp]
      rfl
    · rw [if_neg hj]
  | some p =>
    rw [producers_deliver]
    refine (getElem?_setProducer (s := { s with launches := s.launches + 1 }) hp _ i).trans ?_
    split
    · rename_i hj
      rw [← hj, hp]
      rfl
    · rfl

theorem getElem?_askProducer (s : Session) (j : Nat) :
    (s.askProducer j).2.producers[i]? =
      if j = i then (s.producers[i]?).map fun p => (p.beginStop s.time).2.2
      else s.producers[i]? := by
  unfold askProducer
  cases hp : s.producers[j]? with
  | none =>
    by_cases hj : j = i
    · rw [if_pos hj, ← hj, hp]
      rfl
    · rw [if_neg hj]
  | some p =>
    rw [producers_deliver]
    refine (getElem?_setProducer hp _ i).trans ?_
    split
    · rename_i hj
      rw [← hj, hp]
      rfl
    · rfl

/-- By a turn a call goes on attending to what it attends to, unless it crashes. -/
theorem Turns.attends {phase : Phase} (h : s.Turns run phase stage)
    (hcrash : run.crashes = false) :
    stage.requests i = run.stage.requests i ∧ (i ∈ run.stage.holding → i ∈ stage.holding) := by
  cases h with
  | crash hst hdead =>
    rw [Run.crashes_of_running hst, hdead] at hcrash
    nomatch hcrash
  | letIn hst | refuse hst | leave hst | watch hst | allAsked hst | sleep hst | wake hst
  | drained hst | collect hst | lose hst | release hst =>
    rw [hst]
    exact ⟨rfl, id⟩

/-- The step by which a call starts producer `j`. -/
theorem attended_start (h : ∀ p, s.producers[i]? = some p → p.Attended i run.stage) {o : Opened}
    {j : Nat} {todo started : List Nat} (hst : run.stage = .starting o (j :: todo) started)
    (hnot : j ∉ started) (hp : (s.startProducer j o.queue).2.producers[i]? = some p) :
    p.Attended i (.starting o todo
      (if (s.startProducer j o.queue).1 then started ++ [j] else started)) := by
  rw [getElem?_startProducer] at hp
  rw [hst] at h
  by_cases hj : j = i
  · subst hj
    rw [if_pos rfl] at hp
    obtain ⟨q, hq, rfl⟩ := Option.map_eq_some_iff.mp hp
    have haccepted : (s.startProducer j o.queue).1 = (q.start (s.launch o.queue)).1 := by
      unfold startProducer
      rw [hq]
    rw [haccepted]
    refine (h q hq).start rfl hnot _ rfl fun hstarted => ?_
    rw [if_pos hstarted]
    exact List.mem_append_right _ List.mem_cons_self
  · rw [if_neg hj] at hp
    refine (h p hp).of_stage rfl fun hi => ?_
    show i ∈ if _ then _ else _
    split
    · exact List.mem_append_left _ hi
    · exact hi

/-- The step by which a call asks producer `j` to stop. -/
theorem attended_ask (h : ∀ p, s.producers[i]? = some p → p.Attended i run.stage) {e : Ending}
    {j : Nat} {todo : List Nat} {stops : List (Nat × Stopping)}
    (hst : run.stage = .asking e (j :: todo) stops)
    (hp : (s.askProducer j).2.producers[i]? = some p) :
    p.Attended i (.asking e todo (stops ++ [(j, (s.askProducer j).1)])) := by
  rw [getElem?_askProducer] at hp
  rw [hst] at h
  by_cases hj : j = i
  · subst hj
    rw [if_pos rfl] at hp
    obtain ⟨q, hq, rfl⟩ := Option.map_eq_some_iff.mp hp
    have hstopping : (s.askProducer j).1 = (q.beginStop s.time).1 := by
      unfold askProducer
      rw [hq]
    rw [hstopping]
    refine (h q hq).beginStop s.time ?_
    have hlast := Stopping.requests_cons_self (j, (q.beginStop s.time).1) []
    exact (Stopping.requests_append j stops _).trans
      (congrArg _ (hlast.trans (List.append_nil _)))
  · rw [if_neg hj] at hp
    refine (h p hp).of_stage ?_ fun hi => ?_
    · exact (Stopping.requests_append i stops _).trans
        ((congrArg _ (Stopping.requests_cons_ne hj [])).trans (List.append_nil _))
    · exact (List.mem_cons.mp hi).resolve_left fun he => hj he.symm

/-- The step by which a call completes a stop. -/
theorem attended_await (h : ∀ p, s.producers[i]? = some p → p.Attended i run.stage) {e : Ending}
    {stop : Nat × Stopping} {before after : List (Nat × Stopping)}
    (hst : run.stage = .awaiting e (before ++ stop :: after))
    (hs : s.awaitProducer? stop = some s') (hp : s'.producers[i]? = some p) :
    p.Attended i (.awaiting e (before ++ after)) := by
  obtain ⟨q, handed, q', hq, hop, hproducers, -⟩ := operates_await hs
  rw [hst] at h
  rw [hproducers] at hp
  by_cases hj : stop.1 = i
  · subst hj
    rw [List.getElem?_set_self (List.getElem?_eq_some_iff.mp hq).1] at hp
    obtain rfl := Option.some.inj hp
    obtain ⟨⟨wasRunning, result⟩, he, rfl⟩ := Option.map_eq_some_iff.mp hop
    have hattended := h q hq
    have hheld : q.slot.held = none :=
      Option.not_isSome_iff_eq_none.mp fun hsome => nomatch hattended.held hsome
    exact hattended.endStop (Stopping.requests stop.1 before) (Stopping.requests stop.1 after)
      ((Stopping.requests_append _ _ _).trans
        (congrArg _ (Stopping.requests_cons_self stop after))) hheld he
      (Stopping.requests_append _ _ _)
  · rw [List.getElem?_set_ne hj] at hp
    refine (h p hp).of_stage ?_ id
    show Stopping.requests i (before ++ after) = Stopping.requests i (before ++ stop :: after)
    rw [Stopping.requests_append, Stopping.requests_append, Stopping.requests_cons_ne hj]

/-- By a step of a call that does not crash, whoever it attended to is attended to at its new
stage. -/
theorem attended_steps (h : ∀ p, s.producers[i]? = some p → p.Attended i run.stage)
    (hcoherent : run.Coherent) (hcrash : run.crashes = false) (hs : s.Steps r run s') :
    ∃ stage', s'.stages = s.stages.set r stage' ∧
      ∀ p, s'.producers[i]? = some p → p.Attended i stage' := by
  cases hs with
  | @turn phase stage hturn =>
    obtain ⟨hrequests, hholding⟩ := hturn.attends hcrash
    exact ⟨stage, stages_setStage _ _ _, fun p hp => (h p hp).of_stage hrequests hholding⟩
  | openRun hst =>
    rw [hst] at h
    unfold openRun
    split
    · exact ⟨_, stages_setStage _ _ _, fun p hp => (h p hp).of_stage rfl id⟩
    · exact ⟨_, stages_setStage _ _ _, fun p hp => (h p hp).of_stage rfl id⟩
  | @start o j todo started hst =>
    unfold Run.Coherent at hcoherent
    rw [hst] at hcoherent
    have hnot : j ∉ started := fun hj =>
      (List.nodup_append.mp hcoherent.2).2.2 j hj j List.mem_cons_self rfl
    exact ⟨_, stages_setStage_of_eq (rests_startProducer s j o.queue).2 _,
      fun p hp => attended_start h hst hnot hp⟩
  | launchRun hst =>
    rw [hst] at h
    unfold launchRun
    split
    · rename_i hnone
      refine ⟨_, stages_setStage _ _ _, fun p hp => (h p hp).of_stage rfl fun hi => ?_⟩
      rw [Run.Stage.holding, List.isEmpty_iff.mp hnone] at hi
      nomatch hi
    · exact ⟨_, stages_setRun _ _ _, fun p hp => (h p hp).of_stage rfl id⟩
  | @ask e j todo stops hst =>
    exact ⟨_, stages_setStage_of_eq (rests_askProducer s j).2 _,
      fun p hp => attended_ask h hst hp⟩
  | await hst hawait =>
    exact ⟨_, stages_setStage_of_eq (rests_awaitProducer hawait).2 _,
      fun p hp => attended_await h hst hawait hp⟩
  | closeRun hst | stopQueue hst =>
    rw [hst] at h
    exact ⟨_, stages_setStage _ _ _, fun p hp => (h p hp).of_stage rfl id⟩
  | sealRun hst =>
    rw [hst] at h
    exact ⟨_, stages_setRun _ _ _, fun p hp => (h p hp).of_stage rfl id⟩

/-! ## Every action -/

/-- What anybody does to a producer but to start it. Only while no call attends to the producer may
it be stopped. -/
theorem attended_operate {op : Producer.Operation} {time : Nat} {now : Instant}
    {handed : List Delivery} (h : p.Attended i stage)
    (hop : p.operate? time now op = some (handed, p')) (hstart : ∀ l, op ≠ .start l)
    (hbare : op = .ask ∨ op = .shutdown ∨ (∃ stopping, op = .await stopping) →
      stage.requests i = [] ∧ i ∉ stage.holding) : p'.Attended i stage := by
  cases op with
  | boot => exact (Prod.mk.inj (Option.some.inj hop)).2 ▸ h.boot
  | start l => exact absurd rfl (hstart l)
  | ask =>
    obtain ⟨hrequests, hholding⟩ := hbare (.inl rfl)
    exact (Prod.mk.inj (Option.some.inj hop)).2 ▸ h.ask hrequests hholding time
  | await stopping =>
    obtain ⟨hrequests, hholding⟩ := hbare (.inr (.inr ⟨stopping, rfl⟩))
    obtain ⟨⟨wasRunning, result⟩, he, rfl⟩ := Option.map_eq_some_iff.mp hop
    exact h.await hrequests hholding he
  | tick n =>
    obtain ⟨slot, hpolls, rfl⟩ := Producer.polls_of_tick? hop
    exact h.polls hpolls
  | notice n =>
    obtain ⟨slot, hpolls, rfl⟩ := Producer.polls_of_notice? hop
    exact h.polls hpolls
  | shutdown =>
    obtain ⟨hrequests, hholding⟩ := hbare (.inr (.inl rfl))
    exact (Prod.mk.inj (Option.some.inj hop)).2 ▸ h.shutdown hrequests hholding time now
  | write settings => exact (Prod.mk.inj (Option.some.inj hop)).2 ▸ h.write settings

/-- The producer at place `i` is attended to by the call that is in. -/
def AttendedAt (s : Session) (i : Nat) : Prop :=
  ∀ p, s.producers[i]? = some p → p.Attended i s.current

/-- Actions that are no steps of a call. -/
theorem AttendedAt.other (h : s.AttendedAt i) (ha : s.act? a = some s') (hturn : s.InTurn a)
    (hrun : ∀ r, a ≠ .run r) (hstart : a ≠ .start i) :
    ∀ p, s'.producers[i]? = some p → p.Attended i s.current := by
  rcases operates ha with hrests | ⟨j, q, op, handed, ho⟩
  · rw [hrests.producers_eq]
    exact h
  · obtain ⟨q', hop, hproducers⟩ := ho.after
    intro p hp
    rw [hproducers] at hp
    by_cases hj : j = i
    · subst hj
      rw [List.getElem?_set_self (List.getElem?_eq_some_iff.mp ho.before).1] at hp
      obtain rfl := Option.some.inj hp
      refine attended_operate (h q ho.before) hop ?_ fun hdisturbs => ?_
      · rintro l rfl
        rcases ho.permits with ⟨he, -⟩ | ⟨r, run, o, todo, started, he, -⟩
        · exact hstart he
        · exact hrun r he
      · -- Whoever stops a producer does so while no call is in.
        have hnone : ∀ stage ∈ s.stages, stage.isIn = false := by
          rcases hdisturbs with rfl | rfl | ⟨stopping, rfl⟩
          · rcases ho.permits with rfl | ⟨r, he⟩
            · exact hturn
            · exact absurd he (hrun r)
          · obtain rfl : a = .shutdown j := ho.permits
            exact hturn
          · rcases ho.permits with rfl | ⟨r, he⟩
            · exact hturn
            · exact absurd he (hrun r)
        rw [current, inAmong_none hnone]
        exact bare_of_out (.inl rfl)
    · rw [List.getElem?_set_ne hj] at hp
      exact h p hp

/-- A call that passes to another stage is the one that is in, if any is. -/
theorem attended_current (hr : r < s.stages.length) (hothers : OthersOut r s.stages)
    (hstages : s'.stages = s.stages.set r stage') (h : p.Attended i stage') :
    p.Attended i s'.current := by
  have hst' : (s.stages.set r stage')[r]? = some stage' := List.getElem?_set_self hr
  rw [current, hstages]
  rcases inAmong_cases hst' fun j x hj hx => hothers j x hj
    ((List.getElem?_set_ne (Ne.symm hj)).symm.trans hx) with he | ⟨hout, he⟩
  · rw [he]
    exact h
  · rw [he]
    obtain ⟨hrequests, hholding⟩ := bare_of_out (i := i) (.inl hout)
    exact h.of_stage hrequests.symm fun hi => absurd hi hholding

theorem AttendedAt.step (h : s.AttendedAt i) (hexclusive : Exclusive s.phase s.stages)
    (hcoherent : ∀ run ∈ s.runs, run.Coherent) (ha : s.act? (.run r) = some s')
    (hturn : s.InTurn (.run r)) : s'.AttendedAt i := by
  obtain ⟨run, hrun, hs⟩ := steps_of_step? ha
  have hst := stages_getElem? hrun
  have hr := (List.getElem?_eq_some_iff.mp hst).1
  have hcrash : run.crashes = false := hturn.2 run hrun
  -- The call is in, or it is let in, or another one is in and it is refused.
  have hgoes : OthersOut r s.stages → s.current = run.stage → s'.AttendedAt i := by
    intro hothers hcurrent
    unfold AttendedAt at h
    rw [hcurrent] at h
    obtain ⟨stage', hstages, hall⟩ :=
      attended_steps h (hcoherent run (List.mem_of_getElem? hrun)) hcrash hs
    exact fun p hp => attended_current hr hothers hstages (hall p hp)
  cases hin : run.stage.isIn with
  | true =>
    have hothers := hexclusive.others hst hin
    exact hgoes hothers (inAmong_eq hst hin hothers)
  | false =>
    cases hs with
    | @turn phase stage hturns =>
      cases hturns with
      | letIn hcalled hidle =>
        rw [hidle] at hexclusive
        have hin' : s.letsIn (.run r) = true := by
          rw [hcalled] at hst
          unfold letsIn
          dsimp only
          rw [hst]
          exact decide_eq_true hidle
        have hnone := hexclusive.none_in (hturn.1 hin')
        refine hgoes (othersOut_of_none hnone) ?_
        rw [current, inAmong_none hnone, hcalled]
      | refuse hcalled hbusy =>
        have hcurrent : ({ s with phase := s.phase }.setStage r
            (.returned (.error .sessionBusy))).current = s.current := by
          rw [current, stages_setStage]
          exact inAmong_set_out hst hin rfl
        intro p hp
        rw [hcurrent]
        exact h p hp
      | crash hst | leave hst | watch hst | allAsked hst | sleep hst | wake hst | drained hst
      | collect hst | lose hst | release hst =>
        rw [hst] at hin
        nomatch hin
    | openRun hst | start hst | launchRun hst | ask hst | await hst | closeRun hst | stopQueue hst
    | sealRun hst =>
      rw [hst] at hin
      nomatch hin

theorem AttendedAt.act (h : s.AttendedAt i) (hexclusive : Exclusive s.phase s.stages)
    (hcoherent : ∀ run ∈ s.runs, run.Coherent) (ha : s.act? a = some s') (hturn : s.InTurn a)
    (hstart : a ≠ .start i) : s'.AttendedAt i := by
  by_cases hrun : ∃ r, a = .run r
  · obtain ⟨r, rfl⟩ := hrun
    exact h.step hexclusive hcoherent ha hturn
  · have hrun : ∀ r, a ≠ .run r := fun r he => hrun ⟨r, he⟩
    have hother := h.other ha hturn hrun hstart
    cases shifts_of_act ha with
    | rests hphase hstages =>
      unfold AttendedAt current
      rw [hstages]
      exact hother
    | calls hphase hstages =>
      unfold AttendedAt current
      rw [hstages, inAmong_append_called]
      exact hother
    | @passes r stage stage' hact hst hstages hpasses =>
      obtain ⟨rfl, rfl⟩ := hact.resolve_left (hrun r)
      have hloaded : stage.isLoaded = false := hturn stage hst
      cases hin : stage.isIn with
      | true =>
        have hothers := hexclusive.others hst hin
        obtain ⟨hrequests, hholding⟩ := bare_of_out (i := i) (.inr hloaded)
        intro p hp
        have hp := hother p hp
        rw [current, inAmong_eq hst hin hothers] at hp
        refine attended_current (List.getElem?_eq_some_iff.mp hst).1 hothers hstages ?_
        exact hp.of_stage hrequests.symm fun hi => absurd hi hholding
      | false =>
        unfold AttendedAt current
        rw [hstages, inAmong_set_out hst hin rfl]
        exact hother

end

end Session

end ListMode
