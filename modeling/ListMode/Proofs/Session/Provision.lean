import ListMode.Proofs.Session.Supply

/-!
# Runs of digitizers

In a session of digitizers whose settings nobody writes, a call that keeps to the protocol gets what
the acquisitions of its digitizers gave. `Provision` ties the protocol of the call to the supply of
its queue. Every action keeps this up.
-/

namespace ListMode

open Synthetic (Member)

/-- The queue of a call, and the names of the digitizers that it has started into it. -/
def Run.fed? (members : List Member) (run : Run) : Option (Nat × List String) :=
  match run.stage with
  | .starting o _ started => some (o.queue, Session.namesOf members started)
  | .running l _ => some (l.queue, Session.namesOf members l.started)
  | .asking e _ _ | .awaiting e _ | .draining e _ | .emptied e | .finishing e | .sealing e _ =>
    some (e.queue, Session.namesOf members e.started)
  | .releasing outcome | .returned (.ok outcome) =>
    (run.worker.map (·.queue)).map (·, outcome.started)
  | _ => none

namespace Session

/-- A run of digitizers begins with the merger of a session that has them. -/
def originOf (members : List Member) (detectors : List Detector) : Origin where
  places started m := ∃ t : Session, t.Manned members ∧ t.detectors = detectors ∧
    m = t.merger started
  names names m := ∃ (t : Session) (started : List Nat), t.Manned members ∧
    t.detectors = detectors ∧ names = namesOf members started ∧ m = t.merger started

/-- Call `r` keeps to the protocol, and the digitizers supply its queue. `reads n` are the
acquisitions read out into queue `n`, each as it was before. -/
structure Provision (members : List Member) (detectors : List Detector) (r : Nat)
    (handed : List Delivery) (reads : Nat → List Synthetic.Acquisition) (s : Session) : Prop where
  invariant : Invariant (originOf members detectors) r handed s
  manned : s.Manned members
  detectors_eq : s.detectors = detectors
  late : ∀ n, s.queues.length ≤ n → reads n = []
  supply : ∀ (run : Run) (n : Nat) (names : List String), s.runs[r]? = some run →
    run.fed? members = some (n, names) → Supply members handed (reads n) n names s

section

variable {members : List Member} {detectors : List Detector} {s s' : Session} {a : Act} {r n : Nat}
  {run run' : Run} {names : List String} {handed : List Delivery} {origin : Origin}
  {reads : Nat → List Synthetic.Acquisition}

theorem Manned.fits (h : s.Manned members) : (originOf members s.detectors).Fits s := by
  refine ⟨fun started => ⟨s, h, rfl, rfl⟩, ?_⟩
  rintro started m ⟨t, ht, hdetectors, rfl⟩
  exact ⟨t, started, ht, hdetectors, h.names_eq started, rfl⟩

/-! ## The queue of a call -/

theorem owns_of_fed (h : run.fed? members = some (n, names)) : run.Owns n := by
  unfold Run.fed? at h
  cases hst : run.stage with
  | releasing outcome =>
    rw [hst] at h
    obtain ⟨q, hq, he⟩ := Option.map_eq_some_iff.mp h
    obtain ⟨w, hw, rfl⟩ := Option.map_eq_some_iff.mp hq
    exact .inr ⟨w, hw, (Prod.mk.inj he).1⟩
  | returned result =>
    rw [hst] at h
    cases result with
    | error fault => nomatch h
    | ok outcome =>
      obtain ⟨q, hq, he⟩ := Option.map_eq_some_iff.mp h
      obtain ⟨w, hw, rfl⟩ := Option.map_eq_some_iff.mp hq
      exact .inr ⟨w, hw, (Prod.mk.inj he).1⟩
  | starting | running | asking | awaiting | draining | emptied | finishing | sealing =>
    rw [hst] at h
    refine .inl ?_
    rw [hst]
    exact congrArg some (Prod.mk.inj (Option.some.inj h)).1
  | called | opening | dropped | crashed =>
    rw [hst] at h
    nomatch h

theorem fed_congr (hst : run'.stage = run.stage)
    (hw : run'.worker.map (·.queue) = run.worker.map (·.queue)) :
    run'.fed? members = run.fed? members := by
  unfold Run.fed?
  rw [hst, hw]

/-- A digitizer that feeds the queue of a call has been started by it. -/
theorem Follows.mem_fed (h : s.Follows origin handed run) (hids : (members.map (·.id)).Nodup)
    (hfed : run.fed? members = some (n, names)) {i k : Nat} (hk : s.Feeds n i k) {m : Member}
    (hm : members[i]? = some m) : m.id ∈ names := by
  have ha := h.accounts n i k (owns_of_fed hfed) hk
  have hmem : ∀ {q : Nat} {started : List Nat}, i ∈ started →
      some (q, namesOf members started) = some (n, names) → m.id ∈ names := by
    intro q started hi he
    rw [← (Prod.mk.inj (Option.some.inj he)).2]
    exact (mem_namesOf hids hm).mpr hi
  unfold Run.fed? at hfed
  cases hst : run.stage with
  | starting | running | asking | awaiting =>
    rw [hst] at hfed ha
    exact hmem ha.1 hfed
  | draining | emptied | finishing | sealing | releasing =>
    rw [hst] at ha
    exact ha.elim
  | returned result =>
    rw [hst] at hfed ha
    cases result with
    | error fault => nomatch hfed
    | ok outcome => exact ha.elim
  | called | opening | dropped | crashed =>
    rw [hst] at hfed
    nomatch hfed

/-! ## Actions -/

/-- Every action that does not start a digitizer for the call. -/
theorem Provision.keeps (h : Provision members detectors r handed reads s)
    (hids : (members.map (·.id)).Nodup) (hintervals : ∀ m ∈ members, m.config.interval ≠ 0)
    (ha : s.act? a = some s') (hwrite : ∀ i settings, a ≠ .write i settings)
    (hrun : s.runs[r]? = some run) (hfed : run.fed? members = some (n, names))
    (hstart : ∀ o i todo started, a = .run r → run.stage ≠ .starting o (i :: todo) started) :
    Supply members (handed ++ s.handed a) (reads n ++ s.readsInto n a) n names s' := by
  have hsound := h.invariant.sound
  have hsupply := h.supply run n names hrun hfed
  rcases hsound.operates ha with hrests | ⟨i, p, op, ho⟩
  · exact hsupply.rests hrests
  · refine hsupply.performs hsound h.manned hids hintervals ho ?_ ?_ fun k m hk hm =>
      (h.invariant.upholds run hrun).mem_fed hids hfed hk hm
    · rintro l rfl hl
      have hown := owns_of_fed hfed
      rcases ho.permits with ⟨-, hnew⟩ | ⟨r', run', o, todo, started, rfl, hrun', hst, hqueue⟩
      · have := hsound.owns_lt r run n hrun hown
        omega
      · have hown' : run'.Owns n := .inl (by rw [hst, ← hl, hqueue]; rfl)
        obtain rfl := hsound.owns_unique r r' run run' n hrun hrun' hown hown'
        obtain rfl := Option.some.inj (hrun.symm.trans hrun')
        exact hstart o i todo started rfl hst
    · rintro settings rfl
      exact hwrite i settings ho.permits

/-- The step by which the call starts a digitizer. -/
theorem Provision.starts (h : Provision members detectors r handed reads s)
    (hids : (members.map (·.id)).Nodup) (hrun : s.runs[r]? = some run) {o : Opened} {i : Nat}
    {todo started : List Nat} (hst : run.stage = .starting o (i :: todo) started)
    (stage : Run.Stage) :
    Supply members (handed ++ s.handed (.run r)) (reads o.queue ++ s.readsInto o.queue (.run r))
      o.queue (namesOf members started) ((s.startProducer i o.queue).2.setStage r stage) := by
  have hsound := h.invariant.sound
  have hfollows := h.invariant.upholds run hrun
  have hfed : run.fed? members = some (o.queue, namesOf members started) := by
    unfold Run.fed?
    rw [hst]
  have hsupply := h.supply run _ _ hrun hfed
  obtain ⟨⟨-, hnodup, -⟩, hown, haccounts⟩ := hfollows.at_stage hst
  have hnot : i ∉ started := fun hi =>
    (List.nodup_append.mp hnodup).2.2 i hi i List.mem_cons_self rfl
  rcases hsound.operates_starting hrun hst stage with hrests | ⟨p, ho⟩
  · exact hsupply.rests hrests
  · obtain ⟨m, hm, -, -⟩ := h.manned.member ho.before
    refine hsupply.start hids ho rfl hm ?_ fun hname => hnot ((mem_namesOf hids hm).mp hname)
    exact fun k hk => hnot (haccounts o.queue i k (hown o.queue (.inl rfl)) hk).1

theorem stage_after {t : Session} {stage : Run.Stage} (hrun : t.runs[r]? = some run)
    (hrun' : (t.setStage r stage).runs[r]? = some run') : run' = { run with stage } := by
  rw [runs_setStage hrun, if_pos rfl] at hrun'
  exact (Option.some.inj hrun').symm

/-- How a call `run` has come, by a step from `s` to `s'`, to queue `n` with digitizers `names`. -/
inductive Advance (members : List Member) (s s' : Session) (r : Nat) (run : Run) (n : Nat)
    (names : List String) : Prop where
  | kept (hfed : run.fed? members = some (n, names))
      (hst : ∀ o i todo started, run.stage ≠ .starting o (i :: todo) started)
  | opened (hproducers : s'.producers = s.producers) (hn : n = s.queues.length)
      (hnames : names = [])
  | started (o : Opened) (i : Nat) (todo started : List Nat) (stage : Run.Stage)
      (hst : run.stage = .starting o (i :: todo) started)
      (hs : s' = (s.startProducer i o.queue).2.setStage r stage) (hn : n = o.queue)
      (hsub : namesOf members started ⊆ names)

theorem Advance.of_eq {t : Session} {stage stage' : Run.Stage} (ht : t.runs[r]? = some run)
    (hst : run.stage = stage) (hno : ∀ o i todo started, stage ≠ .starting o (i :: todo) started)
    (hrun' : (t.setStage r stage').runs[r]? = some run')
    (hfed : run'.fed? members = some (n, names))
    (he : ({ run with stage } : Run).fed? members =
      ({ run with stage := stage' } : Run).fed? members) :
    Advance members s s' r run n names := by
  subst hst
  refine .kept ?_ hno
  rw [← hfed, stage_after ht hrun']
  exact he

/-- A step that leaves all but the stage and the phase as they are keeps the queue of the call, or
gives it up. -/
theorem Advance.turn (hrun : s.runs[r]? = some run) {phase : Phase} {stage : Run.Stage}
    (hturn : s.Turns run phase stage)
    (hrun' : ({ s with phase }.setStage r stage).runs[r]? = some run')
    (hfed : run'.fed? members = some (n, names)) : Advance members s s' r run n names := by
  have hafter : run' = { run with stage } := stage_after (t := { s with phase }) hrun hrun'
  cases hturn with
  | letIn | refuse | crash | lose =>
    rw [hafter] at hfed
    nomatch hfed
  | leave hst | watch hst | allAsked hst | sleep hst | wake hst | drained hst | collect hst
  | release hst =>
    exact .of_eq (t := { s with phase := _ }) hrun hst nofun hrun' hfed rfl

theorem Advance.openRun (hrun : s.runs[r]? = some run)
    (hrun' : (s.openRun r run).runs[r]? = some run')
    (hfed : run'.fed? members = some (n, names)) :
    Advance members s (s.openRun r run) r run n names := by
  unfold Session.openRun at hrun' ⊢
  split at hrun'
  · rw [stage_after (t := { s with phase := .idle }) hrun hrun'] at hfed
    nomatch hfed
  · rename_i hrunnable
    obtain rfl := stage_after (t := s.openQueue.2.put s.queues.length _) hrun hrun'
    obtain ⟨rfl, rfl⟩ := Prod.mk.inj (Option.some.inj hfed)
    rw [if_neg hrunnable]
    exact .opened rfl rfl rfl

theorem Advance.launchRun (hrun : s.runs[r]? = some run) {o : Opened} {started : List Nat}
    (hst : run.stage = .starting o [] started)
    (hrun' : (s.launchRun r run o started).runs[r]? = some run')
    (hfed : run'.fed? members = some (n, names)) : Advance members s s' r run n names := by
  unfold Session.launchRun at hrun'
  split at hrun'
  · rw [stage_after (t := { s.setQueue o.queue (s.queue o.queue).stop with phase := .idle }) hrun
      hrun'] at hfed
    nomatch hfed
  · rw [runs_setRun (s := { s with phase := .running }) hrun, if_pos rfl] at hrun'
    obtain rfl := Option.some.inj hrun'
    refine .kept ?_ fun _ _ _ _ he => nomatch hst.symm.trans he
    unfold Run.fed? at hfed ⊢
    rw [hst]
    exact hfed

theorem Advance.start (hs : s.Sound) (hrun : s.runs[r]? = some run) {o : Opened} {i : Nat}
    {todo started : List Nat} (hst : run.stage = .starting o (i :: todo) started)
    (hrun' : ((s.startProducer i o.queue).2.setStage r (.starting o todo
      (if (s.startProducer i o.queue).1 then started ++ [i] else started))).runs[r]? = some run')
    (hfed : run'.fed? members = some (n, names)) :
    Advance members s ((s.startProducer i o.queue).2.setStage r (.starting o todo
      (if (s.startProducer i o.queue).1 then started ++ [i] else started))) r run n names := by
  obtain ⟨-, hruns, -⟩ := hs.startProducer i o.queue
  obtain rfl := stage_after (hruns ▸ hrun) hrun'
  obtain ⟨rfl, rfl⟩ := Prod.mk.inj (Option.some.inj hfed)
  refine .started o i todo started _ hst rfl rfl ?_
  generalize (s.startProducer i o.queue).1 = accepted
  cases accepted with
  | true =>
    unfold namesOf
    rw [if_pos rfl, List.filterMap_append]
    exact List.subset_append_left _ _
  | false => exact List.Subset.refl _

theorem Advance.sealRun (hmanned : s.Manned members) (hf : s.Follows origin handed run)
    (hrun : s.runs[r]? = some run) {e : Ending} {report : Report}
    (hst : run.stage = .sealing e report)
    (hrun' : (s.sealRun r run e report).runs[r]? = some run')
    (hfed : run'.fed? members = some (n, names)) : Advance members s s' r run n names := by
  obtain ⟨⟨-, -, -, w, hw, hqueue, -⟩, -, -⟩ := hf.at_stage hst
  unfold Session.sealRun at hrun'
  dsimp only at hrun'
  rw [runs_setRun (s := { s with phase := .idle }) hrun, if_pos rfl] at hrun'
  obtain rfl := Option.some.inj hrun'
  refine .kept ?_ fun _ _ _ _ he => nomatch hst.symm.trans he
  rw [← hfed]
  unfold Run.fed?
  rw [hst, hw, hmanned.names_eq]
  show some (e.queue, _) = some (w.queue, _)
  rw [hqueue]

/-- Every step of a call keeps its queue, opens one or starts a digitizer. -/
theorem Provision.advance (h : Provision members detectors r handed reads s)
    (hrun : s.runs[r]? = some run) (hs : s.Steps r run s') (hrun' : s'.runs[r]? = some run')
    (hfed : run'.fed? members = some (n, names)) : Advance members s s' r run n names := by
  have hsound := h.invariant.sound
  cases hs with
  | turn hturn => exact .turn hrun hturn hrun' hfed
  | openRun => exact .openRun hrun hrun' hfed
  | start hst => exact .start hsound hrun hst hrun' hfed
  | launchRun hst => exact .launchRun hrun hst hrun' hfed
  | @ask e i todo stops hst =>
    obtain ⟨-, hruns, -⟩ := hsound.effect_ask i
    exact .of_eq (hruns ▸ hrun) hst nofun hrun' hfed rfl
  | await hst hawait =>
    obtain ⟨-, hruns, -⟩ := hsound.effect_await hawait
    exact .of_eq (hruns ▸ hrun) hst nofun hrun' hfed rfl
  | @closeRun e hst =>
    exact .of_eq (t := ({ s with phase := .draining } : Session).put e.queue _) hrun hst nofun hrun'
      hfed rfl
  | @stopQueue e hst =>
    exact .of_eq (t := s.setQueue e.queue _) hrun hst nofun hrun' hfed rfl
  | sealRun hst => exact .sealRun h.manned (h.invariant.upholds run hrun) hrun hst hrun' hfed

/-- A call that is given up has no queue any more, unless nothing more would have come of it. -/
theorem fed_drop (hrun' : (s.drop r).runs[r]? = some run')
    (hfed : run'.fed? members = some (n, names)) :
    ∃ run, s.runs[r]? = some run ∧ run.fed? members = some (n, names) := by
  unfold Session.drop at hrun'
  split at hrun'
  · exact ⟨run', hrun', hfed⟩
  · rename_i run hrun
    split at hrun'
    · exact ⟨run', hrun', hfed⟩
    · exact ⟨run', hrun', hfed⟩
    · exact ⟨run', hrun', hfed⟩
    · rw [stage_after hrun hrun'] at hfed
      nomatch hfed
    · rw [stage_after (t := { s with phase := .idle }) hrun hrun'] at hfed
      nomatch hfed

/-- What the call and its worker do themselves. -/
theorem Provision.own (h : Provision members detectors r handed reads s)
    (hids : (members.map (·.id)).Nodup) (hintervals : ∀ m ∈ members, m.config.interval ≠ 0)
    (ha : s.act? a = some s') (hwrite : ∀ i settings, a ≠ .write i settings)
    (hsub : a.subject = some r) (hrun' : s'.runs[r]? = some run')
    (hfed : run'.fed? members = some (n, names)) :
    Supply members (handed ++ s.handed a) (reads n ++ s.readsInto n a) n names s' := by
  cases a with
  | run r' =>
    obtain rfl := Option.some.inj hsub
    obtain ⟨run, hrun, hs⟩ := steps_of_step? ha
    cases h.advance hrun hs hrun' hfed with
    | kept hfed hst =>
      exact h.keeps hids hintervals ha hwrite hrun hfed fun _ _ _ _ _ => hst _ _ _ _
    | opened hproducers hn hnames =>
      subst hn hnames
      have hinto : into s.queues.length handed = [] :=
        into_eq_nil fun d hd => Nat.ne_of_lt (h.invariant.past d hd).2
      have hsupply := h.manned.supply h.invariant.sound (Nat.le_refl _) hinto
      rw [h.late _ (Nat.le_refl _)]
      show Supply members (handed ++ []) [] _ [] s'
      rw [List.append_nil]
      exact hsupply.of_producers_eq hproducers
    | started o i todo started stage hst hs hn hsub =>
      subst hs hn
      exact (h.starts hids hrun hst stage).mono hsub
  | work r' =>
    obtain rfl := Option.some.inj hsub
    have hs : s.work? r' = some s' := ha
    unfold work? at hs
    obtain ⟨run, hrun, hs⟩ := Option.bind_eq_some_iff.mp hs
    obtain ⟨w, hw, hs⟩ := Option.bind_eq_some_iff.mp hs
    obtain ⟨⟨w', q⟩, hstep, hs⟩ := Option.bind_eq_some_iff.mp hs
    obtain rfl := Option.some.inj hs
    rw [runs_setRun (s := s.setQueue w'.queue q) hrun, if_pos rfl] at hrun'
    obtain rfl := Option.some.inj hrun'
    refine h.keeps hids hintervals ha hwrite hrun ?_ nofun
    rw [← hfed]
    refine fed_congr rfl ?_
    rw [hw]
    exact congrArg some (queue_step hstep).symm
  | cancel r' =>
    obtain rfl := Option.some.inj hsub
    obtain rfl := Option.some.inj ha
    unfold Session.cancel at hrun'
    rw [List.getElem?_modify_eq] at hrun'
    obtain ⟨run, hrun, rfl⟩ := Option.map_eq_some_iff.mp hrun'
    exact h.keeps hids hintervals (a := .cancel r') rfl hwrite hrun hfed nofun
  | drop r' =>
    obtain rfl := Option.some.inj hsub
    obtain rfl := Option.some.inj ha
    obtain ⟨run, hrun, hfed⟩ := fed_drop hrun' hfed
    exact h.keeps hids hintervals (a := .drop r') rfl hwrite hrun hfed nofun
  | _ => nomatch hsub

/-- An action keeps the provision, if nobody but the call starts or stops its producers and nobody
writes settings. -/
theorem Provision.act (h : Provision members detectors r handed reads s)
    (hids : (members.map (·.id)).Nodup) (hintervals : ∀ m ∈ members, m.config.interval ≠ 0)
    (ha : s.act? a = some s') (hwrite : ∀ i settings, a ≠ .write i settings)
    (hu : a = .run r ∨ ∀ i ∈ s.touched a, i ∉ s.engaged r) :
    Provision members detectors r (handed ++ s.handed a) (fun n => reads n ++ s.readsInto n a)
      s' := by
  have hsound := h.invariant.sound
  have heffect := hsound.effect ha
  have hfits := h.detectors_eq ▸ h.manned.fits
  refine ⟨h.invariant.act hfits ha hu, ?_, ?_, fun n hn => ?_, fun run' n names hrun' hfed => ?_⟩
  · rcases hsound.operates ha with hrests | ⟨i, p, op, ho⟩
    · exact (congrArg _ hrests.producers_eq).trans h.manned
    · refine h.manned.performs hsound hintervals ho ?_
      rintro settings rfl
      exact hwrite i settings ho.permits
  · rcases hsound.operates ha with hrests | ⟨i, p, op, ho⟩
    · exact hrests.detectors_eq.trans h.detectors_eq
    · exact ho.detectors_eq.trans h.detectors_eq
  · have hlen := heffect.length_le
    rw [h.late n (by omega), List.nil_append]
    rcases hsound.operates ha with hrests | ⟨i, p, op, ho⟩
    · exact hrests.reads_eq n
    · rw [ho.reads_eq]
      refine List.eq_nil_iff_forall_not_mem.mpr fun x hx => ?_
      obtain ⟨t, ht, hq⟩ := Producer.feeds_of_readsBy hx
      have := hsound.feeds_lt n i t.number ⟨p, ho.before, t, ht, rfl, hq⟩
      omega
  · by_cases hsub : a.subject = some r
    · exact h.own hids hintervals ha hwrite hsub hrun' hfed
    · by_cases hr : r < s.runs.length
      · rw [heffect.runs_eq r hr hsub] at hrun'
        refine h.keeps hids hintervals ha hwrite hrun' hfed fun _ _ _ _ he => ?_
        rw [he] at hsub
        exact absurd rfl hsub
      · obtain ⟨hst, -⟩ := heffect.runs_new r run' (Nat.le_of_not_lt hr) hrun'
        unfold Run.fed? at hfed
        rw [hst] at hfed
        nomatch hfed

/-- The provision holds along every undisturbed list of actions. -/
theorem Provision.after {acts : List Act} (h : Provision members detectors r handed reads s)
    (hids : (members.map (·.id)).Nodup) (hintervals : ∀ m ∈ members, m.config.interval ≠ 0)
    (ha : s.after? acts = some s') (hwrite : ∀ a ∈ acts, ∀ i settings, a ≠ .write i settings)
    (hu : s.Undisturbed r acts) :
    Provision members detectors r (handed ++ s.handedDuring acts)
      (fun n => reads n ++ s.readsDuring n acts) s' := by
  induction acts generalizing s handed reads with
  | nil =>
    obtain rfl := Option.some.inj ha
    simpa only [handedDuring, readsDuring, List.append_nil] using h
  | cons a rest ih =>
    obtain ⟨s₁, hs₁, ha⟩ := Option.bind_eq_some_iff.mp ha
    obtain ⟨hfirst, hwrites⟩ := List.forall_mem_cons.mp hwrite
    have hrest := ih (h.act hids hintervals hs₁ hfirst hu.1) ha hwrites (hu.2 s₁ hs₁)
    simpa only [handedDuring, readsDuring, hs₁, Option.map_some, Option.getD_some,
      List.append_assoc] using hrest

end

end Session

end ListMode
