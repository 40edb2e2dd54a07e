import ListMode.Proofs.Session.Attendance

/-!
# Sessions at rest

In a session that is used in order, idle means that nothing of the calls before goes on: no
producer that the calls alone have started has a polling task, and every worker is over. So the next
call can start every digitizer and replay that can run.
-/

namespace ListMode

/-- A digitizer or a replay that has never been started. -/
structure Producer.Fresh (p : Producer) : Prop where
  real : ∀ x, p.device ≠ .scripted x
  slot_eq : p.slot = .empty

namespace Session

/-- There is a digitizer or a replay at place `i`, and it can run. -/
def CanStart (s : Session) (i : Nat) : Prop :=
  ∃ p, s.producers[i]? = some p ∧ p.status.canRun = true ∧ ∀ x, p.device ≠ .scripted x

/-- A call at this stage has started a producer, or is still to start the one at place `i`. -/
def Promises (s : Session) (i : Nat) : Run.Stage → Prop
  | .opening => s.CanStart i
  | .starting _ todo started => started ≠ [] ∨ i ∈ todo ∧ s.CanStart i
  | .called => False
  | .returned result => result ≠ .error .noProducerStarted
  | _ => True

section

variable {s s' t : Session} {a : Act} {r i : Nat} {run x : Run} {stage : Run.Stage}

/-! ## Workers -/

theorem mem_setStage (hrun : s.runs[r]? = some run) (hx : x ∈ (s.setStage r stage).runs) :
    x ∈ s.runs ∨ x = { run with stage } := by
  obtain ⟨j, hj⟩ := List.mem_iff_getElem?.mp hx
  rw [runs_setStage hrun] at hj
  split at hj
  · exact .inr (Option.some.inj hj).symm
  · exact .inl (List.mem_of_getElem? hj)

theorem mem_setRun {run' : Run} (hrun : s.runs[r]? = some run) (hx : x ∈ (s.setRun r run').runs) :
    x ∈ s.runs ∨ x = run' := by
  obtain ⟨j, hj⟩ := List.mem_iff_getElem?.mp hx
  rw [runs_setRun hrun] at hj
  split at hj
  · exact .inr (Option.some.inj hj).symm
  · exact .inl (List.mem_of_getElem? hj)

/-- A call that leaves nothing behind has no worker that is not over. -/
theorem over_of_coherent (h : run.Coherent) (hloaded : run.stage.isLoaded = false) :
    ∀ w, run.worker = some w → w.stage = .ended ∨ w.stage = .lost := by
  intro w hw
  unfold Run.Coherent at h
  cases hst : run.stage with
  | called | opening =>
    rw [hst] at h
    exact absurd (h.symm.trans hw) nofun
  | starting o todo started =>
    rw [hst] at h
    exact absurd (h.1.symm.trans hw) nofun
  | sealing | releasing | returned | dropped | crashed =>
    rw [hst] at h
    exact h w hw
  | running | asking | awaiting | draining | emptied | finishing =>
    rw [hst] at hloaded
    nomatch hloaded

theorem Turns.coherent {phase : Phase} (h : s.Turns run phase stage) (hcoherent : run.Coherent)
    (hcrash : run.crashes = false) : ({ run with stage } : Run).Coherent := by
  cases h with
  | letIn hst =>
    unfold Run.Coherent at hcoherent
    rw [hst] at hcoherent
    exact hcoherent
  | refuse hst | release hst =>
    have hover := over_of_coherent hcoherent (hst ▸ rfl)
    exact hover
  | crash hst hdead =>
    rw [Run.crashes_of_running hst, hdead] at hcrash
    nomatch hcrash
  | leave | watch | allAsked | sleep | wake | drained => trivial
  | collect hst hw hended =>
    intro w hw'
    obtain rfl := Option.some.inj (hw.symm.trans hw')
    exact .inl hended
  | lose hst hw hlost =>
    intro w hw'
    obtain rfl := Option.some.inj (hw.symm.trans hw')
    exact .inr hlost

/-- A step of a call that does not crash keeps the calls coherent. -/
theorem coherent_steps (h : ∀ x ∈ s.runs, x.Coherent) (hrun : s.runs[r]? = some run)
    (hcrash : run.crashes = false) (hs : s.Steps r run s') : ∀ x ∈ s'.runs, x.Coherent := by
  have hcoherent := h run (List.mem_of_getElem? hrun)
  have hstage : ∀ {t : Session} {stage : Run.Stage}, t.runs = s.runs →
      ({ run with stage } : Run).Coherent → ∀ x ∈ (t.setStage r stage).runs, x.Coherent := by
    intro t stage hruns hnew x hx
    rcases mem_setStage (hruns ▸ hrun) hx with hx | rfl
    · exact h x (hruns ▸ hx)
    · exact hnew
  cases hs with
  | @turn phase stage hturn =>
    exact hstage (t := { s with phase }) rfl (hturn.coherent hcoherent hcrash)
  | openRun hst =>
    unfold Run.Coherent at hcoherent
    rw [hst] at hcoherent
    unfold openRun
    split
    · exact hstage (t := { s with phase := .idle }) rfl fun w hw => nomatch hcoherent.symm.trans hw
    · exact hstage rfl ⟨hcoherent, List.nodup_range.filter _⟩
  | @start o j todo started hst =>
    unfold Run.Coherent at hcoherent
    rw [hst] at hcoherent
    obtain ⟨hw, hnodup⟩ := hcoherent
    refine hstage (rests_startProducer s j o.queue).2 ⟨hw, ?_⟩
    split
    · rwa [List.append_assoc]
    · exact hnodup.sublist ((List.sublist_cons_self j todo).append_left started)
  | launchRun hst =>
    unfold Run.Coherent at hcoherent
    rw [hst] at hcoherent
    unfold launchRun
    split
    · exact hstage (t := { s.setQueue _ _ with phase := .idle }) rfl
        fun w hw => nomatch hcoherent.1.symm.trans hw
    · intro x hx
      rcases mem_setRun (s := { s with phase := .running }) hrun hx with hx | rfl
      · exact h x hx
      · trivial
  | @ask e j todo stops hst => exact hstage (rests_askProducer s j).2 trivial
  | await hst hawait => exact hstage (rests_awaitProducer hawait).2 trivial
  | closeRun hst | stopQueue hst => exact hstage rfl trivial
  | sealRun hst =>
    intro x hx
    rcases mem_setRun (s := { s with phase := .idle }) hrun hx with hx | rfl
    · exact h x hx
    · intro w hw
      obtain ⟨w₀, hw₀, rfl⟩ := Option.map_eq_some_iff.mp hw
      exact over_of_coherent hcoherent (hst ▸ rfl) w₀ hw₀

theorem coherent_work (h : ∀ x ∈ s.runs, x.Coherent) (hs : s.work? r = some s') :
    ∀ x ∈ s'.runs, x.Coherent := by
  unfold work? at hs
  obtain ⟨run, hrun, hs⟩ := Option.bind_eq_some_iff.mp hs
  obtain ⟨w, hw, hs⟩ := Option.bind_eq_some_iff.mp hs
  obtain ⟨⟨w', q⟩, hstep, hs⟩ := Option.bind_eq_some_iff.mp hs
  obtain rfl := Option.some.inj hs
  have hcoherent := h run (List.mem_of_getElem? hrun)
  -- A worker that is over does nothing.
  have hover : ¬(w.stage = .ended ∨ w.stage = .lost) := by
    unfold Worker.step? at hstep
    rintro (hended | hlost)
    · rw [hended] at hstep
      nomatch hstep
    · rw [hlost] at hstep
      nomatch hstep
  intro x hx
  rcases mem_setRun (s := s.setQueue w'.queue q) hrun hx with hx | rfl
  · exact h x hx
  · have hloaded : run.stage.isLoaded = true :=
      Bool.of_not_eq_false fun hloaded => hover (over_of_coherent hcoherent hloaded w hw)
    unfold Run.Coherent at hcoherent ⊢
    cases hst : run.stage with
    | starting o todo started =>
      rw [hst] at hcoherent
      exact absurd (hcoherent.1.symm.trans hw) nofun
    | running | asking | awaiting | draining | emptied | finishing => trivial
    | _ =>
      rw [hst] at hloaded
      nomatch hloaded

theorem coherent_act (h : ∀ x ∈ s.runs, x.Coherent) (ha : s.act? a = some s')
    (hturn : s.InTurn a) : ∀ x ∈ s'.runs, x.Coherent := by
  cases a with
  | run r =>
    obtain ⟨run, hrun, hs⟩ := steps_of_step? ha
    exact coherent_steps h hrun (hturn.2 run hrun) hs
  | work r => exact coherent_work h ha
  | call id timeout faulty =>
    obtain rfl := Option.some.inj ha
    intro x hx
    rcases List.mem_append.mp hx with hx | hx
    · exact h x hx
    · obtain rfl := List.mem_singleton.mp hx
      exact rfl
  | cancel r =>
    obtain rfl := Option.some.inj ha
    intro x hx
    obtain ⟨j, hj⟩ := List.mem_iff_getElem?.mp hx
    unfold cancel at hj
    rw [List.getElem?_modify] at hj
    obtain ⟨run, hrun, rfl⟩ := Option.map_eq_some_iff.mp hj
    have hcoherent := h run (List.mem_of_getElem? hrun)
    split
    · exact hcoherent
    · exact hcoherent
  | drop r =>
    obtain rfl := Option.some.inj ha
    show ∀ x ∈ (s.drop r).runs, x.Coherent
    unfold drop
    split
    · exact h
    · rename_i run hrun
      have hover := over_of_coherent (h run (List.mem_of_getElem? hrun))
        (hturn run.stage (stages_getElem? hrun))
      split
      · exact h
      · exact h
      · exact h
      · intro x hx
        rcases mem_setStage hrun hx with hx | rfl
        · exact h x hx
        · exact hover
      · intro x hx
        rcases mem_setStage (s := { s with phase := .idle }) hrun hx with hx | rfl
        · exact h x hx
        · exact hover
  | tick | notice | wait | boot | write | start | ask | await | shutdown =>
    rw [(rests_of_act ha rfl fun _ _ _ => nofun).2]
    exact h

/-! ## The next call -/

theorem mem_runnable (h : s.CanStart i) : i ∈ s.runnable := by
  obtain ⟨p, hp, hcan, -⟩ := h
  refine List.mem_filter.mpr ⟨List.mem_range.mpr (List.getElem?_eq_some_iff.mp hp).1, ?_⟩
  rw [hp]
  exact hcan

/-- A producer that can start is accepted, if the call that starts it attends to it. -/
theorem accepted_of_canStart (h : s.CanStart i)
    (hattended : ∀ p, s.producers[i]? = some p → p.Attended i stage)
    (hrequests : stage.requests i = []) (hholding : i ∉ stage.holding) (n : Nat) :
    (s.startProducer i n).1 = true := by
  obtain ⟨p, hp, hcan, hreal⟩ := h
  obtain ⟨hheld, -, -⟩ := (hattended p hp).bare hrequests hholding
  have haccepted : (s.startProducer i n).1 = (p.start (s.launch n)).1 := by
    unfold startProducer
    rw [hp]
  rw [haccepted]
  rcases Producer.start_eq hreal (s.launch n) with ⟨hcannot, -⟩ | ⟨-, work, he⟩
  · exact absurd (hcan.symm.trans hcannot) nofun
  · rw [he]
    show (p.slot.start _).1 = true
    unfold Polling.Slot.start
    rw [hheld]
    rfl

/-- A call that promises to start a producer keeps the promise. -/
theorem promises_steps (h : s.Promises i run.stage)
    (hattended : ∀ p, s.producers[i]? = some p → p.Attended i run.stage)
    (hs : s.Steps r run s') : ∃ stage, s'.stages = s.stages.set r stage ∧ s'.Promises i stage := by
  cases hs with
  | turn hturn =>
    refine ⟨_, stages_setStage _ _ _, ?_⟩
    cases hturn with
    | letIn hst | refuse hst =>
      rw [hst] at h
      exact h.elim
    | lose | release => exact nofun
    | _ => trivial
  | openRun hst =>
    rw [hst] at h
    have hmem := mem_runnable h
    unfold openRun
    split
    · rename_i hempty
      rw [List.isEmpty_iff.mp hempty] at hmem
      nomatch hmem
    · exact ⟨_, stages_setStage _ _ _, .inr ⟨hmem, h⟩⟩
  | @start o j todo started hst =>
    rw [hst] at h hattended
    refine ⟨_, stages_setStage_of_eq (rests_startProducer s j o.queue).2 _, ?_⟩
    by_cases hnone : started = []
    · obtain ⟨hi, hcan⟩ := h.resolve_left fun hne => hne hnone
      have hnot : i ∉ started := hnone ▸ List.not_mem_nil
      by_cases hj : j = i
      · subst hj
        rw [accepted_of_canStart hcan hattended rfl hnot o.queue]
        exact .inl (List.concat_ne_nil j started)
      · obtain ⟨p, hp, hcan⟩ := hcan
        refine .inr ⟨(List.mem_cons.mp hi).resolve_left fun he => hj he.symm, p, ?_, hcan⟩
        exact (getElem?_startProducer s j o.queue).trans ((if_neg hj).trans hp)
    · refine .inl ?_
      split
      · exact List.append_ne_nil_of_left_ne_nil hnone [j]
      · exact hnone
  | launchRun hst =>
    rw [hst] at h
    have hstarted := h.resolve_right fun hi => nomatch hi.1
    unfold launchRun
    split
    · rename_i hempty
      exact absurd (List.isEmpty_iff.mp hempty) hstarted
    · exact ⟨_, stages_setRun _ _ _, trivial⟩
  | @ask e j todo stops hst =>
    exact ⟨_, stages_setStage_of_eq (rests_askProducer s j).2 _, trivial⟩
  | await hst hawait => exact ⟨_, stages_setStage_of_eq (rests_awaitProducer hawait).2 _, trivial⟩
  | closeRun | stopQueue => exact ⟨_, stages_setStage _ _ _, trivial⟩
  | sealRun => exact ⟨_, stages_setRun _ _ _, trivial⟩

/-- While a call is in, nobody else changes whether a producer can start. -/
theorem canStart_other (h : s.CanStart i) (hexclusive : Exclusive s.phase s.stages)
    (hst : s.stages[r]? = some stage) (hin : stage.isIn = true) (ha : s.act? a = some s')
    (hturn : s.InTurn a) (hrun : a ≠ .run r) : s'.CanStart i := by
  have hsome : ¬∀ stage ∈ s.stages, stage.isIn = false := fun hnone =>
    absurd hin (Bool.eq_false_iff.mp (hnone stage (List.mem_of_getElem? hst)))
  have hsame : s'.producers = s.producers → s'.CanStart i := fun he => by
    unfold CanStart
    rw [he]
    exact h
  by_cases hrun' : ∃ r', a = .run r'
  · obtain ⟨r', rfl⟩ := hrun'
    obtain ⟨run', hget, hs⟩ := steps_of_step? ha
    have hout : run'.stage.isIn = false := hexclusive.others hst hin r' run'.stage
      (fun he => hrun (he ▸ rfl)) (stages_getElem? hget)
    cases hs with
    | turn => exact hsame rfl
    | openRun hst | start hst | launchRun hst | ask hst | await hst | closeRun hst | stopQueue hst
    | sealRun hst =>
      rw [hst] at hout
      nomatch hout
  · obtain ⟨p, hp, hcan, hreal⟩ := h
    rcases operates ha with hrests | ⟨j, q, op, handed, ho⟩
    · exact hsame hrests.producers_eq
    · obtain ⟨q', hop, hproducers⟩ := ho.after
      by_cases hj : j = i
      · subst hj
        obtain rfl := Option.some.inj (ho.before.symm.trans hp)
        refine ⟨q', ?_, ?_⟩
        · rw [hproducers]
          exact List.getElem?_set_self (List.getElem?_eq_some_iff.mp hp).1
        · have hpermits := ho.permits
          cases op with
          | boot =>
            obtain rfl : a = .boot j := hpermits
            exact absurd hturn hsome
          | start l =>
            rcases hpermits with ⟨rfl, -⟩ | ⟨r', _, _, _, _, rfl, -⟩
            · exact absurd hturn hsome
            · exact absurd ⟨r', rfl⟩ hrun'
          | ask =>
            rcases hpermits with rfl | hcall
            · exact absurd hturn hsome
            · exact absurd hcall hrun'
          | await stopping =>
            rcases hpermits with rfl | hcall
            · exact absurd hturn hsome
            · exact absurd hcall hrun'
          | tick n =>
            obtain ⟨slot, -, rfl⟩ := Producer.polls_of_tick? hop
            exact ⟨hcan, hreal⟩
          | notice n =>
            obtain ⟨slot, -, rfl⟩ := Producer.polls_of_notice? hop
            exact ⟨hcan, hreal⟩
          | shutdown =>
            obtain rfl : a = .shutdown j := hpermits
            exact absurd hturn hsome
          | write settings =>
            obtain ⟨-, rfl⟩ := Prod.mk.inj (Option.some.inj hop)
            obtain ⟨device, hwrite, hkind⟩ := Producer.write_eq q settings
            rw [hwrite]
            exact ⟨hcan, hkind hreal⟩
      · refine ⟨p, ?_, hcan, hreal⟩
        rw [hproducers, List.getElem?_set_ne hj]
        exact hp

theorem Promises.mono (h : s.Promises i stage)
    (hcan : stage.isIn = true → s.CanStart i → s'.CanStart i) : s'.Promises i stage := by
  cases stage with
  | opening => exact hcan rfl h
  | starting o todo started => exact h.imp_right fun hi => ⟨hi.1, hcan rfl hi.2⟩
  | _ => exact h

/-- No action breaks the promise of a call. -/
theorem promises_act (h : s.Promises i stage) (hst : s.stages[r]? = some stage)
    (hexclusive : Exclusive s.phase s.stages) (hattended : s.AttendedAt i)
    (ha : s.act? a = some s') (hturn : s.InTurn a) :
    ∃ stage', s'.stages[r]? = some stage' ∧ s'.Promises i stage' := by
  have hr := (List.getElem?_eq_some_iff.mp hst).1
  by_cases hrun : a = .run r
  · subst hrun
    obtain ⟨run, hget, hs⟩ := steps_of_step? ha
    obtain rfl := Option.some.inj ((stages_getElem? hget).symm.trans hst)
    have hin : run.stage.isIn = true := by
      refine Bool.of_not_eq_false fun hout => ?_
      cases hs with
      | turn hturns =>
        cases hturns with
        | letIn hst | refuse hst =>
          rw [hst] at h
          exact h
        | crash hst | leave hst | watch hst | allAsked hst | sleep hst | wake hst | drained hst
        | collect hst | lose hst | release hst =>
          rw [hst] at hout
          nomatch hout
      | openRun hst | start hst | launchRun hst | ask hst | await hst | closeRun hst
      | stopQueue hst | sealRun hst =>
        rw [hst] at hout
        nomatch hout
    unfold AttendedAt at hattended
    rw [current, inAmong_eq hst hin (hexclusive.others hst hin)] at hattended
    obtain ⟨stage', hstages, hpromises⟩ := promises_steps h hattended hs
    exact ⟨stage', hstages ▸ List.getElem?_set_self hr, hpromises⟩
  · have hmono : s'.Promises i stage :=
      h.mono fun hin hcan => canStart_other hcan hexclusive hst hin ha hturn hrun
    cases shifts_of_act ha with
    | rests hphase hstages => exact ⟨stage, hstages ▸ hst, hmono⟩
    | calls hphase hstages =>
      exact ⟨stage, by rw [hstages, List.getElem?_append_left hr, hst], hmono⟩
    | @passes r' old new hact hold hstages =>
      by_cases hrr : r' = r
      · subst hrr
        obtain ⟨-, rfl⟩ := hact.resolve_left hrun
        exact ⟨.dropped, hstages ▸ List.getElem?_set_self hr, trivial⟩
      · exact ⟨stage, by rw [hstages, List.getElem?_set_ne hrr, hst], hmono⟩

/-! ## Runs -/

/-- What holds of a session that is used in order. -/
structure Tidy (s : Session) : Prop where
  exclusive : Exclusive s.phase s.stages
  coherent : ∀ run ∈ s.runs, run.Coherent

/-- What holds besides of a producer that nobody but the calls starts. -/
structure Reserved (i : Nat) (s : Session) : Prop extends Tidy s where
  attended : s.AttendedAt i

theorem Tidy.act (h : Tidy s) (ha : s.act? a = some s') (hturn : s.InTurn a) : Tidy s' := by
  refine ⟨h.exclusive.act ha fun hin => ?_, coherent_act h.coherent ha hturn⟩
  cases a with
  | run r => exact hturn.1 hin
  | _ => nomatch hin

theorem Tidy.after {acts : List Act} (h : Tidy s) (ha : s.after? acts = some t)
    (horder : s.Orderly acts) : Tidy t := by
  induction acts generalizing s with
  | nil =>
    obtain rfl := Option.some.inj ha
    exact h
  | cons a rest ih =>
    obtain ⟨s₁, hs₁, ha⟩ := Option.bind_eq_some_iff.mp ha
    exact ih (h.act hs₁ horder.1) ha (horder.2 s₁ hs₁)

theorem Reserved.act (h : Reserved i s) (ha : s.act? a = some s') (hturn : s.InTurn a)
    (hstart : a ≠ .start i) : Reserved i s' :=
  ⟨h.toTidy.act ha hturn, h.attended.act h.exclusive h.coherent ha hturn hstart⟩

theorem Reserved.after {acts : List Act} (h : Reserved i s) (ha : s.after? acts = some t)
    (horder : s.Orderly acts) (hstart : ∀ a ∈ acts, a ≠ .start i) : Reserved i t := by
  induction acts generalizing s with
  | nil =>
    obtain rfl := Option.some.inj ha
    exact h
  | cons a rest ih =>
    obtain ⟨s₁, hs₁, ha⟩ := Option.bind_eq_some_iff.mp ha
    exact ih (h.act hs₁ horder.1 (hstart a List.mem_cons_self)) ha (horder.2 s₁ hs₁)
      fun b hb => hstart b (List.mem_cons_of_mem _ hb)

theorem promises_after {acts : List Act} (h : Reserved i s) (hst : s.stages[r]? = some stage)
    (hpromises : s.Promises i stage) (ha : s.after? acts = some t) (horder : s.Orderly acts)
    (hstart : ∀ a ∈ acts, a ≠ .start i) :
    ∃ stage', t.stages[r]? = some stage' ∧ t.Promises i stage' := by
  induction acts generalizing s stage with
  | nil =>
    obtain rfl := Option.some.inj ha
    exact ⟨stage, hst, hpromises⟩
  | cons a rest ih =>
    obtain ⟨s₁, hs₁, ha⟩ := Option.bind_eq_some_iff.mp ha
    have hfirst := hstart a List.mem_cons_self
    obtain ⟨stage₁, hst₁, hpromises₁⟩ :=
      promises_act hpromises hst h.exclusive h.attended hs₁ horder.1
    exact ih (h.act hs₁ horder.1 hfirst) hst₁ hpromises₁ ha (horder.2 s₁ hs₁)
      fun b hb => hstart b (List.mem_cons_of_mem _ hb)

theorem tidy_new (timing : Timing) (detectors : List Detector) (producers : List Producer)
    (clock : Nat → Instant) (entropy : Nat → Random.Source) :
    Tidy (new timing detectors producers clock entropy) :=
  ⟨exclusive_nil, fun _ hrun => nomatch hrun⟩

theorem reserved_new (timing : Timing) (detectors : List Detector) {producers : List Producer}
    (clock : Nat → Instant) (entropy : Nat → Random.Source)
    (hfresh : ∀ p, producers[i]? = some p → p.Fresh) :
    Reserved i (new timing detectors producers clock entropy) := by
  refine ⟨tidy_new timing detectors producers clock entropy, fun p hp => ?_⟩
  obtain ⟨hreal, hslot⟩ := hfresh p hp
  refine ⟨hreal, hslot ▸ Polling.Slot.sole_empty, fun hheld => ?_⟩
  rw [hslot] at hheld
  nomatch hheld

/-- A call that is in an idle session has started nothing, or stopped it all. -/
theorem unloaded_of_idle (h : Exclusive .idle s.stages) {stage : Run.Stage}
    (hst : stage ∈ s.stages) : stage.isLoaded = false := by
  refine Bool.eq_false_iff.mpr fun hloaded => h.active.mpr ⟨stage, hst, ?_⟩ rfl
  cases stage with
  | starting | running | asking | awaiting | draining | emptied | finishing => rfl
  | _ => nomatch hloaded

theorem Reserved.idle (h : Reserved i s) (hidle : s.phase = .idle) {p : Producer}
    (hp : s.producers[i]? = some p) : p.slot.tasks = [] := by
  have hexclusive := h.exclusive
  rw [hidle] at hexclusive
  have hloaded : s.current.isIn = false ∨ s.current.isLoaded = false := by
    unfold current Run.Stage.inAmong
    cases hfind : s.stages.find? (·.isIn) with
    | none => exact .inl rfl
    | some stage => exact .inr (unloaded_of_idle hexclusive (List.mem_of_find?_eq_some hfind))
  obtain ⟨hrequests, hholding⟩ := bare_of_out (i := i) hloaded
  exact ((h.attended p hp).bare hrequests hholding).2.1

/-- A session that is used in order: producers are booted, started, stopped and shut down only while
no call is in, a call is let in only when the one before has returned, and no call is given up or
crashes between its first start and the end of its worker. Whenever it is idle, no digitizer or
replay that nobody but the calls has ever started has a polling task, and the workers of all calls
are over. And a call that finds such a producer ready to run starts a producer. -/
theorem idle_is_rest {timing : Timing} {detectors : List Detector} {producers : List Producer}
    {clock : Nat → Instant} {entropy : Nat → Random.Source} {acts : List Act}
    (hacts : (new timing detectors producers clock entropy).after? acts = some t)
    (horder : (new timing detectors producers clock entropy).Orderly acts) :
    (t.phase = .idle → ∀ run ∈ t.runs, ∀ w, run.worker = some w →
      w.stage = .ended ∨ w.stage = .lost) ∧
    ∀ i, (∀ p, producers[i]? = some p → p.Fresh) → (∀ a ∈ acts, a ≠ .start i) →
      (t.phase = .idle → ∀ p, t.producers[i]? = some p → p.slot.tasks = []) ∧
      ∀ (r : Nat) (rest : List Act) (t' : Session), t.stages[r]? = some .opening →
        t.CanStart i → t.Orderly rest → (∀ a ∈ rest, a ≠ .start i) → t.after? rest = some t' →
        t'.stages[r]? ≠ some (.returned (.error .noProducerStarted)) := by
  constructor
  · intro hidle run hrun
    have h := (tidy_new timing detectors producers clock entropy).after hacts horder
    have hexclusive := h.exclusive
    rw [hidle] at hexclusive
    exact over_of_coherent (h.coherent run hrun)
      (unloaded_of_idle hexclusive (List.mem_map_of_mem hrun))
  · intro i hfresh hstart
    have h := (reserved_new timing detectors clock entropy hfresh).after hacts horder hstart
    refine ⟨fun hidle p hp => h.idle hidle hp, ?_⟩
    intro r rest t' hst hcan horder' hstart' ht' hfail
    obtain ⟨stage, hst', hpromises⟩ := promises_after h hst hcan ht' horder' hstart'
    obtain rfl := Option.some.inj (hst'.symm.trans hfail)
    exact hpromises rfl

/-- Booting, or shutting down, all producers is to do so with one after the other. -/
theorem acts_of_all (s : Session) :
    (∃ boots : List Act, (∀ a ∈ boots, ∃ i, a = .boot i) ∧ s.after? boots = some s.bootAll.2) ∧
    ∃ shutdowns : List Act, (∀ a ∈ shutdowns, ∃ i, a = .shutdown i) ∧
      s.after? shutdowns = some s.shutdownAll := by
  constructor
  · refine acts_of_foldl Prod.snd (fun state i => ?_) s.places (0, s)
    refine ⟨[.boot i], fun a ha => ⟨i, List.mem_singleton.mp ha⟩, ?_⟩
    obtain ⟨booted, s⟩ := state
    show some (s.bootProducer i).2 = _
    dsimp only
    split
    · rename_i hresult
      rw [hresult]
    · rename_i hresult
      rw [hresult]
  · refine acts_of_foldl id (fun s i => ?_) s.places s
    exact ⟨[.shutdown i], fun a ha => ⟨i, List.mem_singleton.mp ha⟩, rfl⟩

end

/-- A replay that is run, shut down, booted, and run again. -/
theorem idle_is_rest_replay :
    let left := Producer.replay "left" [.events "recorded" [⟨0, 10, 7, .empty⟩]] 5
    let s := new ⟨10, 10⟩ [] [left] (fun _ => default) fun _ => default
    let acts : List Act :=
      [.boot 0, .call default none false, .run 0, .run 0, .run 0, .run 0, .tick 0 0, .work 0,
        .cancel 0, .run 0, .run 0, .run 0, .work 0, .notice 0 0, .run 0, .run 0, .run 0, .wait 10,
        .run 0, .work 0, .work 0, .run 0, .run 0, .work 0, .run 0, .run 0, .run 0,
        .shutdown 0, .boot 0, .call default none false]
    s.Orderly acts ∧ (∀ p, [left][0]? = some p → p.Fresh) ∧
    (∃ t, s.after? acts = some t ∧ t.phase = .idle ∧
      ∀ p, t.producers[0]? = some p → p.slot.tasks = []) ∧
    ∃ t t', s.after? (acts ++ [.run 1]) = some t ∧
      t.after? [.run 1, .run 1, .run 1] = some t' ∧
      t'.stages[1]? ≠ some (.returned (.error .noProducerStarted)) := by
  intro left s acts
  have hfirst : s.Orderly acts ∧ (s.after? acts).any (·.phase = .idle) = true := by
    decide +kernel
  have hsecond : s.Orderly (acts ++ [.run 1]) ∧ (s.after? (acts ++ [.run 1])).any (fun t =>
      ((t.stages[1]?).any fun | .opening => true | _ => false) &&
      ((t.producers[0]?).any fun
        | ⟨_, status, .replay .., _⟩ => status.canRun
        | _ => false) &&
      (decide (t.Orderly [.run 1, .run 1, .run 1]) &&
      (t.after? [.run 1, .run 1, .run 1]).isSome)) = true := by decide +kernel
  have hfresh : ∀ p, [left][0]? = some p → p.Fresh := by
    intro p hp
    obtain rfl := Option.some.inj hp
    exact ⟨fun _ => nofun, rfl⟩
  obtain ⟨horder, hidle⟩ := hfirst
  obtain ⟨horder', hready⟩ := hsecond
  refine ⟨horder, hfresh, ?_, ?_⟩
  · obtain ⟨t, ht, hidle⟩ := (Option.any_eq_true _ _).mp hidle
    have hidle := of_decide_eq_true hidle
    obtain ⟨-, hall⟩ := idle_is_rest ht horder
    exact ⟨t, ht, hidle, (hall 0 hfresh (by simp [acts])).1 hidle⟩
  · obtain ⟨t, ht, hready⟩ := (Option.any_eq_true _ _).mp hready
    obtain ⟨hstart, hrest⟩ := Bool.and_eq_true_iff.mp hready
    obtain ⟨hopening, hcan⟩ := Bool.and_eq_true_iff.mp hstart
    obtain ⟨horder'', hrest⟩ := Bool.and_eq_true_iff.mp hrest
    obtain ⟨t', ht'⟩ := Option.isSome_iff_exists.mp hrest
    obtain ⟨stage, hst, hopening⟩ := (Option.any_eq_true _ _).mp hopening
    obtain rfl : stage = .opening := by
      cases stage with
      | opening => rfl
      | _ => nomatch hopening
    have hcan : t.CanStart 0 := by
      obtain ⟨⟨id, status, device, slot⟩, hp, hcan⟩ := (Option.any_eq_true _ _).mp hcan
      cases device with
      | replay recording interval settings => exact ⟨_, hp, hcan, fun _ => nofun⟩
      | synthetic | scripted => nomatch hcan
    obtain ⟨-, hall⟩ := idle_is_rest ht horder'
    refine ⟨t, t', ht, ht', ?_⟩
    exact (hall 0 hfresh (by simp [acts])).2 1 _ t' hst hcan (of_decide_eq_true horder'')
      (by simp) ht'

/-- What does not hold of every use. A call that is given up while it runs leaves the session idle
with a task and a worker, and the next call cannot start the producer. So does one that crashes
because the poll interval is zero. And a producer that can run may refuse to start. -/
theorem idle_without_rest :
    let left := Producer.replay "left" [.events "recorded" [⟨0, 10, 7, .empty⟩]] 5
    let refusing := Producer.scripted "refusing" .booted ⟨none, none, none, none, true, [], [],
      false, none, .null, []⟩
    let call : Act := .call default none false
    let begins : List Act := [.boot 0, call, .run 0, .run 0, .run 0, .run 0]
    let next : List Act := [call, .run 1, .run 1, .run 1, .run 1]
    let leaves (t : Session) := (t.phase, t.producers.map (·.slot.tasks.length),
      t.runs.map (·.worker.map (·.stage)))
    let fails (r : Nat) (t : Session) := (t.stages[r]?).any fun
      | .returned (.error .noProducerStarted) => true
      | _ => false
    let s (poll : Nat) (p : Producer) := new ⟨poll, 10⟩ [] [p] (fun _ => default) fun _ => default
    ((s 10 left).after? (begins ++ [.drop 0])).map leaves =
      some (.idle, [1], [some .ready]) ∧
    ((s 10 left).after? (begins ++ [.drop 0] ++ next)).map (fails 1) = some true ∧
    ((s 0 left).after? (begins ++ [.run 0])).map leaves = some (.idle, [1], [some .ready]) ∧
    ((s 0 left).after? (begins ++ [.run 0] ++ next)).map (fails 1) = some true ∧
    ((s 10 refusing).after? begins).map (fails 0) = some true := by
  decide +kernel

end Session

end ListMode
