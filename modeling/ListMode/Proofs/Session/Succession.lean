import ListMode.Proofs.Session.Rest

/-!
# Runs one after the other

A session in which a call is made only when every call before has ended, and each call goes on until
it returns. Nobody but the calls starts or stops a producer; producers are booted between the calls.
Then the last call is the only one that can be under way, and what a polling task works on changes
only by a readout or a start.
-/

namespace ListMode

/-- Nothing more comes of a call at this stage. -/
def Run.Stage.isOver : Run.Stage → Bool
  | .returned _ | .dropped | .crashed => true
  | _ => false

theorem Run.isOver_eq (run : Run) : run.isOver = run.stage.isOver := rfl

theorem Run.stage_eq_of_result? {run : Run} {result : Except Fault Outcome}
    (h : run.result? = some result) : run.stage = .returned result := by
  unfold Run.result? at h
  split at h
  · rename_i hst
    rw [hst, Option.some.inj h]
  · nomatch h

/-- What an operation may do to a digitizer or a replay. -/
inductive Producer.Alters (p : Producer) : Producer.Operation → Producer → Prop where
  | boots {status : Status} : Alters p .boot { p with status }
  | refuses {l : Launch} : Alters p (.start l) p
  | starts {l : Launch} {work : Acquisition.Work} (hcan : p.status.canRun = true) :
      Alters p (.start l) { p with slot := (p.slot.start ⟨l.queue, l.time, work⟩).2 }
  | asks : Alters p .ask { p with slot := p.slot.beginStop.2 }
  | awaits {stopping : Stopping} : Alters p (.await stopping) p
  | ends {stopping : Stopping} {request : Polling.Request} {wasAlive : Bool}
      {slot : Polling.Slot Acquisition} (hslot : p.slot.endStop? request = some (wasAlive, slot)) :
      Alters p (.await stopping) { p with slot }
  | ticks {n : Nat} {slot : Polling.Slot Acquisition} (hpolls : Polls p.slot n slot) :
      Alters p (.tick n) { p with slot }
  | notices {n : Nat} : Alters p (.notice n) { p with slot := p.slot.finish n }
  | writes {settings : Tree} {device : Device} (hreal : ∀ x, device ≠ .scripted x) :
      Alters p (.write settings) { p with device }

namespace Producer

section

variable {p p' : Producer} {op : Operation} {time : Nat} {now : Instant} {handed : List Delivery}

theorem notice?_eq {n : Nat} (h : p.notice? n time now = some (handed, p')) :
    p' = { p with slot := p.slot.finish n } := by
  unfold notice? at h
  split at h
  · split at h
    · exact (Prod.mk.inj (Option.some.inj h)).2.symm
    · nomatch h
  · nomatch h

/-- A stop of a digitizer or a replay hands nothing over when it is completed. -/
theorem handed_of_endStop? (hreal : ∀ x, p.device ≠ .scripted x) {stopping : Stopping}
    {wasRunning : Bool} (h : p.endStop? time stopping = some (wasRunning, handed, p')) :
    handed = [] := by
  unfold endStop? at h
  split at h
  · exact (Prod.mk.inj (Prod.mk.inj (Option.some.inj h)).2).1.symm
  · obtain ⟨_, -, hresult⟩ := Option.map_eq_some_iff.mp h
    exact (Prod.mk.inj (Prod.mk.inj hresult).2).1.symm
  · split at h
    · split at h
      · rename_i x hx
        exact absurd hx (hreal x)
      · exact (Prod.mk.inj (Prod.mk.inj (Option.some.inj h)).2).1.symm
    · nomatch h

/-- What a task hands over goes to its queue. -/
theorem queue_of_tick? {n : Nat} (h : p.tick? n time now = some (handed, p')) :
    ∀ d ∈ handed, ∃ t ∈ p.slot.tasks, d.queue = t.work.queue := by
  unfold tick? at h
  obtain ⟨t, ht, h⟩ := Option.map_eq_some_iff.mp h
  intro d hd
  refine ⟨t, (Polling.Slot.task?_eq_some ht).1, ?_⟩
  split at h
  · obtain ⟨rfl, -⟩ := Prod.mk.inj h
    nomatch hd
  · obtain ⟨rfl, -⟩ := Prod.mk.inj h
    obtain ⟨_, -, rfl⟩ := List.mem_map.mp hd
    rfl

theorem queue_of_notice? {n : Nat} (h : p.notice? n time now = some (handed, p')) :
    ∀ d ∈ handed, ∃ t ∈ p.slot.tasks, d.queue = t.work.queue := by
  unfold notice? at h
  split at h
  · rename_i t ht
    split at h
    · obtain ⟨rfl, -⟩ := Prod.mk.inj (Option.some.inj h)
      intro d hd
      exact ⟨t, (Polling.Slot.task?_eq_some ht).1, by rw [List.mem_singleton.mp hd]⟩
    · nomatch h
  · nomatch h

/-- What any operation but a shutdown does. -/
theorem alters_of_operate (hreal : ∀ x, p.device ≠ .scripted x)
    (h : p.operate? time now op = some (handed, p')) (hop : op ≠ .shutdown) : p.Alters op p' := by
  cases op with
  | boot =>
    obtain ⟨status, hboot⟩ := boot_eq p
    obtain ⟨-, rfl⟩ := Prod.mk.inj (Option.some.inj h)
    exact hboot ▸ .boots
  | start l =>
    have hresult : (p.start l).2 = (handed, p') := Option.some.inj h
    rcases start_eq hreal l with ⟨-, he⟩ | ⟨hcan, work, he⟩
    · rw [he] at hresult
      exact (Prod.mk.inj hresult).2 ▸ .refuses
    · rw [he] at hresult
      exact (Prod.mk.inj hresult).2 ▸ .starts hcan
  | ask =>
    have hresult : (p.beginStop time).2 = (handed, p') := Option.some.inj h
    rw [beginStop_eq hreal] at hresult
    exact (Prod.mk.inj hresult).2 ▸ .asks
  | await stopping =>
    obtain ⟨⟨wasRunning, result⟩, he, rfl⟩ := Option.map_eq_some_iff.mp h
    rcases endStop_cases hreal he with ⟨rfl, -⟩ | ⟨request, wasAlive, slot, -, hslot, rfl⟩
    · exact .awaits
    · exact .ends hslot
  | tick n =>
    obtain ⟨slot, hpolls, rfl⟩ := polls_of_tick? h
    exact .ticks hpolls
  | notice n => exact notice?_eq h ▸ .notices
  | shutdown => exact absurd rfl hop
  | write settings =>
    obtain ⟨device, hwrite, hkind⟩ := write_eq p settings
    obtain ⟨-, rfl⟩ := Prod.mk.inj (Option.some.inj h)
    exact hwrite ▸ .writes (hkind hreal)

theorem Alters.id_eq (h : p.Alters op p') : p'.id = p.id := by
  cases h with
  | boots | refuses | starts | asks | awaits | ends | ticks | notices | writes => rfl

theorem Alters.status_eq (h : p.Alters op p') (hboot : op ≠ .boot) : p'.status = p.status := by
  cases h with
  | boots => exact absurd rfl hboot
  | refuses | starts | asks | awaits | ends | ticks | notices | writes => rfl

theorem mem_tasks_modify {slot : Polling.Slot Acquisition} {n : Nat}
    {f : Polling.Task Acquisition → Polling.Task Acquisition} {t : Polling.Task Acquisition}
    (ht : t ∈ (slot.modify n f).tasks) : t ∈ slot.tasks ∨ ∃ t' ∈ slot.tasks, t'.number = n ∧ t = f t' := by
  obtain ⟨t', ht', rfl⟩ := List.mem_map.mp ht
  by_cases hn : t'.number = n
  · rw [if_pos (beq_iff_eq.mpr hn)]
    exact .inr ⟨t', ht', hn, rfl⟩
  · rw [if_neg fun he => hn (beq_iff_eq.mp he)]
    exact .inl ht'

theorem tasks_start {slot : Polling.Slot Acquisition} {work : Acquisition}
    {t : Polling.Task Acquisition} (ht : t ∈ (slot.start work).2.tasks) :
    (∃ t' ∈ slot.tasks, t.work = t'.work) ∨ t.work = work := by
  unfold Polling.Slot.start at ht
  split at ht
  · exact .inl ⟨t, ht, rfl⟩
  · rcases List.mem_append.mp ht with ht | ht
    · obtain ⟨t', ht', -, hwork⟩ := Polling.Slot.mem_letGo ht
      exact .inl ⟨t', ht', hwork.symm⟩
    · obtain rfl := List.mem_singleton.mp ht
      exact .inr rfl

theorem tasks_endStop {slot slot' : Polling.Slot Acquisition} {request : Polling.Request}
    {wasAlive : Bool} (h : slot.endStop? request = some (wasAlive, slot')) :
    slot'.tasks = slot.tasks := by
  unfold Polling.Slot.endStop? at h
  split at h
  · nomatch h
  · split at h
    · exact (Prod.mk.inj (Option.some.inj h)).2 ▸ rfl
    · exact (Prod.mk.inj (Option.some.inj h)).2 ▸ rfl

/-- Only a readout or a start gives a task something else to work on. -/
theorem Alters.work_eq (h : p.Alters op p') (hstart : ∀ l, op ≠ .start l) (htick : ∀ n, op ≠ .tick n)
    {t' : Polling.Task Acquisition} (ht : t' ∈ p'.slot.tasks) :
    ∃ t ∈ p.slot.tasks, t'.work = t.work := by
  cases h with
  | boots | awaits | writes => exact ⟨t', ht, rfl⟩
  | refuses => exact ⟨t', ht, rfl⟩
  | starts => exact absurd rfl (hstart _)
  | asks =>
    obtain ⟨t, hold, -, hwork⟩ := Polling.Slot.mem_letGo ht
    exact ⟨t, hold, hwork.symm⟩
  | ends hslot => exact ⟨t', tasks_endStop hslot ▸ ht, rfl⟩
  | ticks => exact absurd rfl (htick _)
  | notices => exact ⟨t', (List.mem_filter.mp ht).1, rfl⟩

/-- A task hands its spills to the queue that it was started into. -/
theorem Alters.queue_eq (h : p.Alters op p') {t' : Polling.Task Acquisition}
    (ht : t' ∈ p'.slot.tasks) :
    (∃ t ∈ p.slot.tasks, t'.work.queue = t.work.queue) ∨
      ∃ l, op = .start l ∧ t'.work.queue = l.queue := by
  by_cases hstart : ∃ l, op = .start l
  · obtain ⟨l, rfl⟩ := hstart
    cases h with
    | refuses => exact .inl ⟨t', ht, rfl⟩
    | starts =>
      rcases tasks_start ht with ⟨t, ht, hwork⟩ | hwork
      · exact .inl ⟨t, ht, congrArg Acquisition.queue hwork⟩
      · exact .inr ⟨l, rfl, congrArg Acquisition.queue hwork⟩
  · by_cases htick : ∃ n, op = .tick n
    · obtain ⟨n, rfl⟩ := htick
      cases h with
      | ticks hpolls =>
        cases hpolls with
        | goesOn htask hqueue =>
          rcases mem_tasks_modify ht with ht | ⟨t, ht, -, rfl⟩
          · exact .inl ⟨t', ht, rfl⟩
          · exact .inl ⟨_, (Polling.Slot.task?_eq_some htask).1, hqueue⟩
        | ends | crashes => exact .inl ⟨t', (List.mem_filter.mp ht).1, rfl⟩
    · obtain ⟨t, ht, hwork⟩ := h.work_eq (fun l he => hstart ⟨l, he⟩) (fun n he => htick ⟨n, he⟩) ht
      exact .inl ⟨t, ht, congrArg Acquisition.queue hwork⟩

end

end Producer

namespace Session

/-- A call is made, and a producer booted, only when every call before has ended. No call is given up
or ends abnormally, and nobody else starts, stops or shuts down a producer. -/
def InSuccession (s : Session) : Act → Prop
  | .run r => ∀ run ∈ s.runs[r]?, run.crashes = false
  | .call .. | .boot _ => ∀ stage ∈ s.stages, stage.isOver = true
  | .drop _ | .start _ | .ask _ | .await .. | .shutdown _ => False
  | .work _ | .tick .. | .notice .. | .wait _ | .cancel _ | .write .. => True

instance decidableInSuccession (s : Session) : (a : Act) → Decidable (s.InSuccession a)
  | .run r => inferInstanceAs (Decidable (∀ run ∈ s.runs[r]?, run.crashes = false))
  | .call .. | .boot _ => inferInstanceAs (Decidable (∀ stage ∈ s.stages, stage.isOver = true))
  | .drop _ | .start _ | .ask _ | .await .. | .shutdown _ => inferInstanceAs (Decidable False)
  | .work _ | .tick .. | .notice .. | .wait _ | .cancel _ | .write .. =>
    inferInstanceAs (Decidable True)

/-- Every action comes in its turn, and the calls one after the other. -/
def Succession (s : Session) : List Act → Prop
  | [] => True
  | a :: rest => s.InSuccession a ∧ ∀ s' ∈ s.act? a, s'.Succession rest

instance decidableSuccession : (acts : List Act) → (s : Session) → Decidable (s.Succession acts)
  | [], _ => inferInstanceAs (Decidable True)
  | a :: rest, s =>
    have := decidableSuccession rest
    inferInstanceAs (Decidable (s.InSuccession a ∧ ∀ s' ∈ s.act? a, s'.Succession rest))

/-- The actions of a list, each with the session in which it is done. -/
def moments (s : Session) : List Act → List (Session × Act)
  | [] => []
  | a :: rest => (s, a) :: ((s.act? a).map fun s => s.moments rest).getD []

/-- What holds of a session in which the runs follow one after the other. -/
structure Successive (s : Session) : Prop where
  reserved : ∀ i, Reserved i s
  last : ∀ (r : Nat) (stage : Run.Stage), s.stages[r]? = some stage → stage.isOver = false →
    r + 1 = s.stages.length

section

variable {s s' t : Session} {a : Act} {acts : List Act} {r i : Nat} {run : Run}
  {stage : Run.Stage} {phase phase' : Phase} {stage' : Run.Stage}

/-! ## The last call -/

theorem not_over_of_isIn (h : stage.isIn = true) : stage.isOver = false := by
  cases stage with
  | returned | dropped | crashed => nomatch h
  | _ => rfl

theorem not_in_of_over (h : stage.isOver = true) : stage.isIn = false := by
  cases stage with
  | returned | dropped | crashed => rfl
  | _ => nomatch h

/-- Only a call that is not over goes anywhere. -/
theorem Passes.not_over (h : Passes phase stage phase' stage') : stage.isOver = false := by
  cases h with
  | letIn | refuse | giveUp => rfl
  | goOn hst | settle hst => exact not_over_of_isIn (isIn_of_isActive hst)
  | leave hst => exact not_over_of_isIn hst

theorem Successive.tidy (h : s.Successive) : Tidy s := (h.reserved 0).toTidy

/-- At most one call is not over. -/
theorem Successive.unique (h : s.Successive) (hst : s.stages[r]? = some stage)
    (hover : stage.isOver = false) {r' : Nat} (hst' : s.stages[r']? = some stage')
    (hover' : stage'.isOver = false) : r' = r := by
  have hr := h.last r stage hst hover
  have hr' := h.last r' stage' hst' hover'
  omega

theorem Successive.inTurn (h : s.Successive) (hin : s.InSuccession a) : s.InTurn a := by
  cases a with
  | run r =>
    refine ⟨fun hlets x hx => ?_, hin⟩
    obtain ⟨j, hj⟩ := List.mem_iff_getElem?.mp hx
    unfold letsIn at hlets
    dsimp only at hlets
    split at hlets
    · rename_i hcalled
      -- Another call that is not over would be the last one as well.
      cases hover : x.isOver with
      | true =>
        cases x with
        | returned | dropped | crashed => rfl
        | _ => nomatch hover
      | false =>
        obtain rfl := h.unique hcalled rfl hj hover
        obtain rfl := Option.some.inj (hj.symm.trans hcalled)
        rfl
    · nomatch hlets
  | boot i => exact fun x hx => not_in_of_over (hin x hx)
  | drop | start | ask | await | shutdown => exact hin.elim
  | work | tick | notice | wait | call | cancel | write => trivial

theorem Successive.act (h : s.Successive) (ha : s.act? a = some s') (hin : s.InSuccession a) :
    s'.Successive := by
  have hstart : ∀ i, a ≠ .start i := fun i he => by
    rw [he] at hin
    exact hin
  refine ⟨fun i => (h.reserved i).act ha (h.inTurn hin) (hstart i), fun r stage hst hover => ?_⟩
  cases shifts_of_act ha with
  | rests hphase hstages =>
    rw [hstages] at hst ⊢
    exact h.last r stage hst hover
  | calls hphase hstages hcall =>
    obtain ⟨id, timeout, faulty, rfl⟩ := hcall
    rw [hstages] at hst ⊢
    rw [List.length_append, List.length_singleton]
    rw [List.getElem?_append] at hst
    split at hst
    · have hended := hin stage (List.mem_of_getElem? hst)
      exact absurd (hover.symm.trans hended) nofun
    · have hr := (List.getElem?_eq_some_iff.mp hst).1
      rw [List.length_singleton] at hr
      omega
  | @passes j old new hact hold hstages hpasses =>
    rw [hstages] at hst ⊢
    rw [List.length_set]
    have hj := h.last j old hold hpasses.not_over
    by_cases hjr : j = r
    · exact hjr ▸ hj
    · rw [List.getElem?_set_ne hjr] at hst
      exact h.last r stage hst hover

/-- A call that is over takes no step, and its worker none either. -/
theorem step?_eq_none (hrun : s.runs[r]? = some run) (hover : run.stage.isOver = true) :
    s.step? r = none := by
  unfold step?
  rw [hrun]
  cases hst : run.stage with
  | returned | dropped | crashed => simp [hst]
  | _ =>
    rw [hst] at hover
    nomatch hover

theorem work?_eq_none (h : Tidy s) (hrun : s.runs[r]? = some run)
    (hover : run.stage.isOver = true) : s.work? r = none := by
  have hcoherent := h.coherent run (List.mem_of_getElem? hrun)
  have hloaded : run.stage.isLoaded = false := by
    cases hst : run.stage with
    | returned | dropped | crashed => rfl
    | _ =>
      rw [hst] at hover
      nomatch hover
  unfold work?
  rw [hrun]
  cases hw : run.worker with
  | none => simp [hw]
  | some w =>
    rcases over_of_coherent hcoherent hloaded w hw with hended | hlost
    · simp [hw, Worker.step?, hended]
    · simp [hw, Worker.step?, hlost]

/-- While a call is under way, no other call and no other worker does anything. -/
theorem Successive.alone (h : s.Successive) (hst : s.stages[r]? = some stage)
    (hover : stage.isOver = false) {r' : Nat} (ha : s.act? a = some s')
    (hact : a = .run r' ∨ a = .work r') : r' = r := by
  have hget : ∃ x, s.runs[r']? = some x := by
    rcases hact with rfl | rfl
    · obtain ⟨x, hx, -⟩ := Option.bind_eq_some_iff.mp (show s.step? r' = some s' from ha)
      exact ⟨x, hx⟩
    · obtain ⟨x, hx, -⟩ := Option.bind_eq_some_iff.mp (show s.work? r' = some s' from ha)
      exact ⟨x, hx⟩
  obtain ⟨x, hx⟩ := hget
  refine h.unique hst hover (stages_getElem? hx) (Bool.eq_false_iff.mpr fun hover' => ?_)
  rcases hact with rfl | rfl
  · exact nomatch (step?_eq_none hx hover').symm.trans ha
  · exact nomatch (work?_eq_none h.tidy hx hover').symm.trans ha

/-! ## Producers -/

theorem Successive.real (h : s.Successive) {p : Producer} (hp : s.producers[i]? = some p) :
    ∀ x, p.device ≠ .scripted x :=
  ((h.reserved i).attended p hp).real

/-- What an action does to the producers. -/
theorem Successive.alters (h : s.Successive) (ha : s.act? a = some s') (hin : s.InSuccession a) :
    s.Rests a s' ∨ ∃ i p op handed p', s.Operates a i p op handed s' ∧
      p.operate? s.time s.now op = some (handed, p') ∧ p.Alters op p' ∧
      s'.producers = s.producers.set i p' := by
  rcases operates ha with hrests | ⟨i, p, op, handed, ho⟩
  · exact .inl hrests
  · obtain ⟨p', hop, hproducers⟩ := ho.after
    refine .inr ⟨i, p, op, handed, p', ho, hop, ?_, hproducers⟩
    refine Producer.alters_of_operate (h.real ho.before) hop ?_
    rintro rfl
    obtain rfl : a = .shutdown i := ho.permits
    exact hin

/-- What an action does to one of them. -/
theorem Successive.alters_at (h : s.Successive) (ha : s.act? a = some s') (hin : s.InSuccession a)
    {p' : Producer} (hp' : s'.producers[i]? = some p') :
    ∃ p, s.producers[i]? = some p ∧ (p' = p ∨ ∃ op handed, s.Permits a i op ∧
      p.operate? s.time s.now op = some (handed, p') ∧ p.Alters op p') := by
  rcases h.alters ha hin with hrests | ⟨j, p, op, handed, q, ho, hop, halters, hproducers⟩
  · exact ⟨p', hrests.producers_eq ▸ hp', .inl rfl⟩
  · rw [hproducers] at hp'
    by_cases hj : j = i
    · subst hj
      rw [List.getElem?_set_self (List.getElem?_eq_some_iff.mp ho.before).1] at hp'
      obtain rfl := Option.some.inj hp'
      exact ⟨p, ho.before, .inr ⟨op, handed, ho.permits, hop, halters⟩⟩
    · rw [List.getElem?_set_ne hj] at hp'
      exact ⟨p', hp', .inl rfl⟩

theorem map_set_eq {α β : Type} {f : α → β} {l : List α} {x y : α} (hx : l[i]? = some x)
    (hf : f y = f x) : (l.set i y).map f = l.map f := by
  have hi := (List.getElem?_eq_some_iff.mp hx).1
  refine List.ext_getElem? fun j => ?_
  rw [List.getElem?_map, List.getElem?_map]
  by_cases hij : i = j
  · subst hij
    rw [List.getElem?_set_self hi, hx, Option.map_some, Option.map_some, hf]
  · rw [List.getElem?_set_ne hij]

theorem Successive.ids_eq (h : s.Successive) (ha : s.act? a = some s') (hin : s.InSuccession a) :
    s'.producers.map (·.id) = s.producers.map (·.id) := by
  rcases h.alters ha hin with hrests | ⟨i, p, op, handed, p', ho, -, halters, hproducers⟩
  · rw [hrests.producers_eq]
  · rw [hproducers]
    exact map_set_eq ho.before halters.id_eq

/-- Only a boot changes a status. -/
theorem Successive.statuses_eq (h : s.Successive) (ha : s.act? a = some s')
    (hin : s.InSuccession a) (hboot : ∀ i, a ≠ .boot i) :
    s'.producers.map (·.status) = s.producers.map (·.status) := by
  rcases h.alters ha hin with hrests | ⟨i, p, op, handed, p', ho, -, halters, hproducers⟩
  · rw [hrests.producers_eq]
  · rw [hproducers]
    refine map_set_eq ho.before (halters.status_eq ?_)
    rintro rfl
    exact hboot i ho.permits

/-- A task of the session after an action was there before, or the call has started it. -/
theorem Successive.queue_of_task (h : s.Successive) (ha : s.act? a = some s')
    (hin : s.InSuccession a) {p' : Producer} (hp' : s'.producers[i]? = some p')
    {t' : Polling.Task Acquisition} (ht' : t' ∈ p'.slot.tasks) :
    (∃ p, s.producers[i]? = some p ∧ ∃ t ∈ p.slot.tasks, t'.work.queue = t.work.queue) ∨
      ∃ r run o todo started, a = .run r ∧ s.runs[r]? = some run ∧
        run.stage = .starting o (i :: todo) started ∧ t'.work.queue = o.queue := by
  obtain ⟨p, hp, rfl | ⟨op, handed, hpermits, -, halters⟩⟩ := h.alters_at ha hin hp'
  · exact .inl ⟨p', hp, t', ht', rfl⟩
  · rcases halters.queue_eq ht' with ⟨t, ht, hqueue⟩ | ⟨l, rfl, hqueue⟩
    · exact .inl ⟨p, hp, t, ht, hqueue⟩
    · rcases hpermits with ⟨rfl, -⟩ | ⟨r, run, o, todo, started, ha, hrun, hst, hl⟩
      · exact hin.elim
      · exact .inr ⟨r, run, o, todo, started, ha, hrun, hst, hqueue.trans hl⟩

/-- A call that attends to nothing of a producer leaves it no task. -/
theorem Successive.tasks_eq_nil (h : s.Successive) (hst : s.stages[r]? = some stage)
    (hover : stage.isOver = false) (hrequests : stage.requests i = [])
    (hholding : i ∉ stage.holding) {p : Producer} (hp : s.producers[i]? = some p) :
    p.slot.tasks = [] := by
  have hattended := (h.reserved i).attended p hp
  have hothers : OthersOut r s.stages := fun j x hj hx => by
    refine Bool.eq_false_iff.mpr fun hin => hj ?_
    exact h.unique hst hover hx (not_over_of_isIn hin)
  rcases inAmong_cases hst hothers with he | ⟨-, he⟩
  · rw [current, he] at hattended
    exact (hattended.bare hrequests hholding).2.1
  · rw [current, he] at hattended
    exact (hattended.bare rfl List.not_mem_nil).2.1

/-- Unless a call is in, no producer has a task, and none seems to run. -/
theorem Successive.rest_out (h : s.Successive) (hout : ∀ stage ∈ s.stages, stage.isIn = false) :
    ∀ p ∈ s.producers, p.slot.tasks = [] ∧ p.isRunning = false := by
  intro p hp
  obtain ⟨i, hi⟩ := List.mem_iff_getElem?.mp hp
  have hattended := (h.reserved i).attended p hi
  rw [current, inAmong_none hout] at hattended
  obtain ⟨-, htasks, hcrashed⟩ := hattended.bare rfl List.not_mem_nil
  have halive : p.slot.alive = false := by
    rw [← Bool.not_eq_true, hattended.sole.alive, Polling.Slot.unfinished, htasks, hcrashed]
    exact fun hne => hne rfl
  exact ⟨htasks, (Producer.isRunning_eq hattended.real).trans halive⟩

/-- When every call has ended, the session is idle and no producer has a task. -/
theorem Successive.rest (h : s.Successive) (hover : ∀ stage ∈ s.stages, stage.isOver = true) :
    s.phase = .idle ∧ ∀ p ∈ s.producers, p.slot.tasks = [] ∧ p.isRunning = false := by
  have hout : ∀ stage ∈ s.stages, stage.isIn = false := fun x hx => not_in_of_over (hover x hx)
  refine ⟨Decidable.not_not.mp fun hbusy => ?_, h.rest_out hout⟩
  obtain ⟨x, hx, hactive⟩ := h.tidy.exclusive.active.mp hbusy
  exact absurd (isIn_of_isActive hactive) (Bool.eq_false_iff.mp (hout x hx))

/-! ## Along a list of actions -/

theorem successive_new (timing : Timing) (detectors : List Detector) {producers : List Producer}
    (clock : Nat → Instant) (entropy : Nat → Random.Source) (hfresh : ∀ p ∈ producers, p.Fresh) :
    (new timing detectors producers clock entropy).Successive :=
  ⟨fun _ => reserved_new timing detectors clock entropy fun p hp =>
    hfresh p (List.mem_of_getElem? hp), fun _ _ hst => nomatch hst⟩

/-- What every action keeps, given what was done before, holds after any list of actions. -/
theorem Successive.after {P : Session → List (Session × Act) → Prop} (h : s.Successive)
    (hstep : ∀ (s s' : Session) (a : Act) (past : List (Session × Act)), s.Successive → P s past →
      s.act? a = some s' → s.InSuccession a → P s' (past ++ [(s, a)]))
    (past : List (Session × Act)) (hP : P s past) (ha : s.after? acts = some t)
    (horder : s.Succession acts) : t.Successive ∧ P t (past ++ s.moments acts) := by
  induction acts generalizing s past with
  | nil =>
    obtain rfl := Option.some.inj ha
    rw [moments, List.append_nil]
    exact ⟨h, hP⟩
  | cons a rest ih =>
    obtain ⟨s₁, hs₁, ha⟩ := Option.bind_eq_some_iff.mp ha
    have hrest := ih (h.act hs₁ horder.1) _ (hstep s s₁ a past h hP hs₁ horder.1) ha
      (horder.2 s₁ hs₁)
    rw [moments, hs₁, Option.map_some, Option.getD_some]
    rwa [List.append_assoc] at hrest

theorem Successive.at_end (h : s.Successive) (ha : s.after? acts = some t)
    (horder : s.Succession acts) : t.Successive :=
  (h.after (P := fun _ _ => True) (fun _ _ _ _ _ _ _ _ => trivial) [] trivial ha horder).1

end

end Session

end ListMode
