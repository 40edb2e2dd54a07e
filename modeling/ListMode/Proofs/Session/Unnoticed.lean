import ListMode.Proofs.Session.Twins

/-!
# Settings written during a run

What a run uses of a producer's settings it has when it enters running: its tasks, its decoders and
the channels it awaits. So nobody can tell from a run whether settings were written in the meantime,
but for what the closing boundary shows of the producers that were written to.
-/

namespace ListMode.Session

/-- A move in two executions, of which one has more writes. -/
inductive Move where
  /-- An action in both. -/
  | common (a : Act)
  /-- Settings are written to producer `i` in one of them. -/
  | extra (i : Nat) (settings : Tree)

namespace Move

/-- The move in the execution without the writes. -/
def base? : Move → Option Act
  | common a => some a
  | extra _ _ => none

/-- The move in the execution with the writes. -/
def act : Move → Act
  | common a => a
  | extra i settings => .write i settings

/-- The identifier of the producer written to, if it is an additional write. -/
def id? (s : Session) : Move → Option String
  | common _ => none
  | extra i _ => (s.producers[i]?).map (·.id)

end Move

/-- Identifiers of the producers to which there are additional writes. -/
def idsWritten (s : Session) (plan : List Move) : List String := plan.filterMap (Move.id? s)

/-- Nobody but call `r` starts a producer anew, or begins a run over it, once it has been written
to; `written` are the places of those that have been. -/
def KeepsOff (r : Nat) : List Nat → Session → List Move → Prop
  | _, _, [] => True
  | written, s, .common a :: rest => (a = .run r ∨ ∀ i ∈ s.consults a, i ∉ written) ∧
      ∀ s', s.act? a = some s' → KeepsOff r written s' rest
  | written, s, .extra i _ :: rest => KeepsOff r (i :: written) s rest

section

variable {names : List String} {written : List Nat} {s s' t : Session} {r : Nat} {run : Run}
  {a : Act} {plan : List Move}

/-- Only a call that has been let in and has still to set its worker going looks at settings. -/
theorem consults_eq_nil (h : ∀ run, s.runs[r]? = some run → run.stage.isPreparing = false) :
    s.consults (.run r) = [] := by
  show ((s.runs[r]?).map fun run => s.consultedAt run.stage).getD [] = []
  cases hrun : s.runs[r]? with
  | none => rfl
  | some run =>
    have hpreparing := h run hrun
    show s.consultedAt run.stage = []
    cases hstage : run.stage with
    | opening | starting =>
      rw [hstage] at hpreparing
      nomatch hpreparing
    | _ => rfl

theorem not_preparing_of_out {stage : Run.Stage} (h : stage.isIn = false) :
    stage.isPreparing = false := by
  cases stage with
  | opening | starting => nomatch h
  | _ => rfl

/-- While call `r` is in, no other call is, unless one is let in between its last transition and its
return. So everybody keeps off, if nobody starts a producer besides. -/
theorem keepsOff_of_unhurried (h : Exclusive s.phase s.stages)
    (hgap : s.Unhurried (plan.filterMap Move.base?))
    (hin : ∀ m ∈ s.moments (plan.filterMap Move.base?), (m.1.stages[r]?).any (·.isIn) = true)
    (hstart : ∀ i, .common (.start i) ∉ plan) (written : List Nat) :
    s.KeepsOff r written plan := by
  induction plan generalizing s written with
  | nil => trivial
  | cons move rest ih =>
    have hstart' : ∀ i, .common (.start i) ∉ rest :=
      fun i hi => hstart i (List.mem_cons_of_mem _ hi)
    cases move with
    | extra i settings => exact ih h hgap hin hstart' (i :: written)
    | common a =>
      refine ⟨?_, fun s' ha => ?_⟩
      · obtain ⟨stage, hstage, hisIn⟩ := (Option.any_eq_true _ _).mp (hin (s, a) List.mem_cons_self)
        have hothers := h.others hstage hisIn
        cases a with
        | run r' =>
          by_cases hr : r' = r
          · exact .inl (congrArg Act.run hr)
          · have hout : s.consults (.run r') = [] := consults_eq_nil fun x hx =>
              not_preparing_of_out (hothers r' x.stage hr (stages_getElem? hx))
            rw [hout]
            exact .inr (List.forall_mem_nil _)
        | start i => exact absurd List.mem_cons_self (hstart i)
        | _ => exact .inr (List.forall_mem_nil _)
      · refine ih (h.act ha hgap.1) (hgap.2 s' ha) (fun m hm => hin m ?_) hstart' written
        refine List.mem_cons_of_mem _ ?_
        rw [ha]
        exact hm

/-! ## What stays as it is -/

/-- Producers keep their identifiers. -/
theorem ids_of_act (hreal : ∀ p ∈ s.producers, ∀ x, p.device ≠ .scripted x)
    (ha : s.act? a = some s') : s'.producers.map (·.id) = s.producers.map (·.id) := by
  rcases operates ha with hrests | ⟨i, p, op, handed, ho⟩
  · rw [hrests.producers_eq]
  · obtain ⟨p', hop, hproducers⟩ := ho.after
    rw [hproducers]
    refine map_set_eq ho.before ?_
    by_cases hwrite : ∃ settings, op = .write settings
    · obtain ⟨settings, rfl⟩ := hwrite
      obtain ⟨-, rfl⟩ := Prod.mk.inj (Option.some.inj hop)
      obtain ⟨device, hwritten, -⟩ := p.write_eq settings
      rw [hwritten]
    · exact (Producer.device_of_operate (hreal p (List.mem_of_getElem? ho.before)) hop
        fun settings he => hwrite ⟨settings, he⟩).1

/-- Call `r` has got its worker going or is over. -/
def Decided (s : Session) (r : Nat) : Prop :=
  ∃ run, s.runs[r]? = some run ∧ (run.stage.isLaunched = true ∨ run.stage.isOver = true)

theorem Decided.act (h : s.Decided r) (ha : s.act? a = some s') : s'.Decided r := by
  obtain ⟨run, hrun, hst⟩ := h
  cases meets_act hrun ha with
  | steps hs =>
    have hon : run.stage.isOver = false := by
      refine Bool.eq_false_iff.mpr fun hover => ?_
      nomatch (step?_eq_none hrun hover).symm.trans ha
    have hlaunched := hst.resolve_right fun hover => nomatch hon.symm.trans hover
    obtain ⟨run', hrun', hlaunched'⟩ := launched_of_steps hrun hs hlaunched
    exact ⟨run', hrun', .inl hlaunched'⟩
  | drops hover hrun' => exact ⟨_, hrun', .inr rfl⟩
  | cancels hrun' => exact ⟨_, hrun', hst⟩
  | rests _ hrun' => exact ⟨_, hrun', hst⟩

/-- It no longer looks at anybody's settings. -/
theorem Decided.consults_eq (h : s.Decided r) : s.consults (.run r) = [] := by
  obtain ⟨run, hrun, hst⟩ := h
  refine consults_eq_nil fun x hx => ?_
  obtain rfl := Option.some.inj (hrun.symm.trans hx)
  cases hstage : run.stage with
  | opening | starting =>
    rw [hstage] at hst
    rcases hst with hst | hst <;> nomatch hst
  | _ => rfl

/-! ## Both executions -/

theorem Twin.real (h : Twin names written s s') :
    ∀ p ∈ s.producers, ∀ x, p.device ≠ .scripted x := by
  intro p hp
  obtain ⟨i, hi⟩ := List.mem_iff_getElem?.mp hp
  rcases rel_cases (h.producers i) with ⟨hx, -⟩ | ⟨q, q', hx, -, hq⟩
  · nomatch hx.symm.trans hi
  · obtain rfl := Option.some.inj (hx.symm.trans hi)
    exact hq.1.real

/-- A session is its own twin. -/
theorem Twin.refl (names : List String) (hreal : ∀ p ∈ s.producers, ∀ x, p.device ≠ .scripted x) :
    Twin names [] s s := by
  refine ⟨rfl, fun i => ?_, rfl, rfl⟩
  cases hp : s.producers[i]? with
  | none => exact .none
  | some p => exact .some ⟨.refl (hreal p (List.mem_of_getElem? hp)), .inl rfl⟩

/-- Settings are written in one of two twins. -/
theorem Twin.write (h : Twin names written s s') (i : Nat) (settings : Tree)
    (hname : ∀ id, (s.producers.map (·.id))[i]? = some id → id ∈ names) :
    Twin names (i :: written) s (s'.writeProducer i settings).2 := by
  have hmore : Twin names (i :: written) s s' := by
    refine ⟨h.bare, fun j => ?_, h.queues, h.runs⟩
    refine rel_mono (h.producers j) fun p p' ⟨halike, hp⟩ => ⟨halike, ?_⟩
    exact hp.imp_right fun hmem => ⟨List.mem_cons_of_mem _ hmem.1, hmem.2⟩
  unfold writeProducer
  rcases rel_cases (h.producers i) with ⟨hx, hy⟩ | ⟨p, p', hx, hy, halike, -⟩
  · rw [hy]
    exact hmore
  · have hid : p.id ∈ names := hname p.id (by rw [List.getElem?_map, hx]; rfl)
    have hakin : Producer.Akin names (i :: written) i p (p'.write settings).2 :=
      ⟨halike.written settings, .inr ⟨List.mem_cons_self, hid⟩⟩
    have hset := hmore.setProducer hakin
    rw [setProducer_self hx] at hset
    rw [hy]
    exact hset

/-- Twins stay twins until the end of both executions. -/
theorem twins_after (h : Twin names written s s') (hdecided : s.Decided r)
    (hnames : ∀ i settings, .extra i settings ∈ plan → ∀ id,
      (s.producers.map (·.id))[i]? = some id → id ∈ names) (hoff : s.KeepsOff r written plan) :
    Option.Rel (fun t t' => t.Decided r ∧ ∃ written', Twin names written' t t')
      (s.after? (plan.filterMap Move.base?)) (s'.after? (plan.map Move.act)) := by
  induction plan generalizing written s s' with
  | nil => exact .some ⟨hdecided, written, h⟩
  | cons move rest ih =>
    cases move with
    | common a =>
      -- The run itself has settled everything it needs, so its own steps look at nobody.
      have hconsults : ∀ i ∈ s.consults a, i ∉ written := by
        rcases hoff.1 with rfl | hkeeps
        · rw [hdecided.consults_eq]
          exact List.forall_mem_nil _
        · exact hkeeps
      show Option.Rel _ ((s.act? a).bind _) ((s'.act? a).bind _)
      rcases rel_cases (h.act hconsults) with ⟨hx, hy⟩ | ⟨u, u', hx, hy, hu⟩
      · rw [hx, hy]
        exact .none
      · rw [hx, hy]
        refine ih hu (hdecided.act hx) (fun i settings hmem id hid => ?_) (hoff.2 u hx)
        rw [ids_of_act h.real hx] at hid
        exact hnames i settings (List.mem_cons_of_mem _ hmem) id hid
    | extra i settings =>
      exact ih (h.write i settings (hnames i settings List.mem_cons_self)) hdecided
        (fun j settings' hmem => hnames j settings' (List.mem_cons_of_mem _ hmem)) hoff

/-- A call that goes on at once is one for every producer named. -/
theorem writes_of_call (s : Session) (settings : Tree) :
    ∃ writes : List (Nat × Tree),
      (∀ w ∈ writes, ∃ trees p, settings = .obj trees ∧ s.producers[w.1]? = some p ∧
        Tree.field? p.id trees = some w.2) ∧
      s.after? (writes.map fun w => .write w.1 w.2) = some (s.writeSettings settings).2 := by
  by_cases hobj : ∃ trees, settings = .obj trees
  · obtain ⟨trees, rfl⟩ := hobj
    obtain ⟨writes, hnamed, hafter⟩ := writes_of_settledTo trees s (Nat.le_refl _)
    refine ⟨writes, fun w hw => ?_, ?_⟩
    · obtain ⟨p, hp, hfield⟩ := hnamed w hw
      exact ⟨trees, p, rfl, hp, hfield⟩
    · rw [hafter, writeSettings_obj, settledTo_length]
  · refine ⟨[], nofun, ?_⟩
    unfold writeSettings
    split
    · rename_i trees
      exact absurd ⟨trees, rfl⟩ hobj
    · rfl

theorem sink_relabel (f : RunInfo → RunInfo) (run : Run) :
    (run.relabel f).sink = run.sink.relabel f := by
  unfold Run.sink Run.relabel
  cases run.worker with
  | none | some => rfl

/-- Take a session of digitizers and replays in which a run is running, and two executions from
there on with the same actions, one of which has more writes. As long as nobody else starts a
producer that has been written to, one is possible if and only if the other is. The run comes
equally far in both and returns the same result, and its sink has received the same but for the
settings of closing metadata, which differ at most at the identifiers of the producers written to.
Writing settings by identifiers is such writes, to the producers that are named. -/
theorem writes_unnoticed {l : Launched} {w : Watch}
    (hreal : ∀ p ∈ s.producers, ∀ x, p.device ≠ .scripted x) (hrun : s.runs[r]? = some run)
    (hrunning : run.stage = .running l w) (hoff : s.KeepsOff r [] plan) :
    let base := s.after? (plan.filterMap Move.base?)
    let full := s.after? (plan.map Move.act)
    let veil := RunInfo.veiled (s.idsWritten plan)
    full.isSome = base.isSome ∧
    (∀ t t', base = some t → full = some t' → ∃ run run', t.runs[r]? = some run ∧
      t'.runs[r]? = some run' ∧ run'.stage = run.stage ∧ run'.result? = run.result? ∧
      run'.sink.relabel veil = run.sink.relabel veil) ∧
    ∀ (u : Session) (settings : Tree), ∃ writes : List (Nat × Tree),
      (∀ w ∈ writes, ∃ trees p, settings = .obj trees ∧ u.producers[w.1]? = some p ∧
        Tree.field? p.id trees = some w.2) ∧
      u.after? (writes.map fun w => .write w.1 w.2) = some (u.writeSettings settings).2 := by
  intro base full veil
  have hdecided : s.Decided r := ⟨run, hrun, .inl (hrunning ▸ rfl)⟩
  have hnames : ∀ i settings, .extra i settings ∈ plan → ∀ id,
      (s.producers.map (·.id))[i]? = some id → id ∈ s.idsWritten plan := by
    intro i settings hmem id hid
    rw [List.getElem?_map] at hid
    exact List.mem_filterMap.mpr ⟨_, hmem, hid⟩
  have htwins := twins_after (.refl _ hreal) hdecided hnames hoff
  refine ⟨?_, fun t t' ht ht' => ?_, writes_of_call⟩
  · rcases rel_cases htwins with ⟨hx, hy⟩ | ⟨t, t', hx, hy, -⟩
    · exact (congrArg Option.isSome hy).trans (congrArg Option.isSome hx).symm
    · exact (congrArg Option.isSome hy).trans (congrArg Option.isSome hx).symm
  · rcases rel_cases htwins with ⟨hx, -⟩ | ⟨u, u', hx, hy, ⟨x, hrun, -⟩, written, hu⟩
    · nomatch hx.symm.trans ht
    obtain rfl := Option.some.inj (hx.symm.trans ht)
    obtain rfl := Option.some.inj (hy.symm.trans ht')
    rcases rel_cases (hu.calls r) with ⟨hnone, -⟩ | ⟨y, y', hy, hy', hsame⟩
    · nomatch hnone.symm.trans hrun
    have hstage : y'.stage = y.stage := by rw [(eq_of_relabel hsame).1]
    refine ⟨y, y', hy, hy', hstage, ?_, ?_⟩
    · unfold Run.result?
      rw [hstage]
    · rw [← sink_relabel, ← sink_relabel, hsame]

/-- A run of two digitizers is cancelled. Meanwhile the first is moved to another channel, the
second refuses settings that are no configuration, and another call finds the session busy. -/
theorem writes_unnoticed_pair :
    let running : List Act := [.boot 0, .boot 1, .call default none false, .run 0, .run 0, .run 0,
      .run 0, .run 0]
    let plan : List Move :=
      [.common (.tick 0 0), .extra 0 (moved 9), .common (.work 0), .common (.work 0),
        .common (.tick 1 0), .common (.call default none false), .common (.run 1),
        .common (.work 0), .extra 1 .null, .common (.cancel 0), .common (.run 0),
        .common (.run 0), .common (.run 0), .common (.run 0), .common (.notice 0 0),
        .common (.notice 1 0), .common (.run 0), .common (.run 0), .common (.run 0),
        .common (.work 0), .common (.work 0), .common (.work 0), .common (.work 0),
        .common (.run 0), .common (.run 0), .common (.work 0), .common (.run 0), .common (.run 0),
        .common (.run 0)]
    ∃ s t t', pairSession.after? running = some s ∧
      s.after? (plan.filterMap Move.base?) = some t ∧ s.after? (plan.map Move.act) = some t' ∧
      t.producers.map (·.channels) = [[0], [1]] ∧ t'.producers.map (·.channels) = [[9], [1]] ∧
      s.idsWritten plan = ["a", "b"] ∧ s.KeepsOff 0 [] plan ∧
      ∃ run run', t.runs[0]? = some run ∧ t'.runs[0]? = some run' ∧
        (run.result?.bind Except.toOption).map (·.reason) = some .cancelled ∧
        run'.result? = run.result? ∧ run.sink.archive.spills.length = 6 ∧
        run'.sink.relabel (.veiled ["a", "b"]) = run.sink.relabel (.veiled ["a", "b"]) := by
  intro running plan
  obtain ⟨s, run, l, w, hs, hrun, hrunning, ⟨hgap, hin⟩, hends⟩ : ∃ (s : Session) (run : Run)
      (l : Launched) (w : Watch),
      pairSession.after? running = some s ∧ s.runs[0]? = some run ∧ run.stage = .running l w ∧
      (s.Unhurried (plan.filterMap Move.base?) ∧
        ∀ m ∈ s.moments (plan.filterMap Move.base?), (m.1.stages[0]?).any (·.isIn) = true) ∧
      (((s.after? (plan.filterMap Move.base?)).any fun t =>
          decide (t.producers.map (·.channels) = [[0], [1]]) && (t.runs[0]?).any fun x : Run =>
            decide ((x.result?.bind Except.toOption).map (·.reason) = some .cancelled) &&
            x.sink.archive.spills.length == 6) &&
        ((s.after? (plan.map Move.act)).any fun t' =>
          decide (t'.producers.map (·.channels) = [[9], [1]])) &&
        decide (s.idsWritten plan = ["a", "b"])) = true :=
    ⟨_, _, _, _, rfl, rfl, rfl, by decide +kernel, by decide +kernel⟩
  obtain ⟨hends, hids⟩ := Bool.and_eq_true_iff.mp hends
  obtain ⟨hbase, hfull⟩ := Bool.and_eq_true_iff.mp hends
  obtain ⟨t, ht, hbase⟩ := (Option.any_eq_true _ _).mp hbase
  obtain ⟨hchannels, hbase⟩ := Bool.and_eq_true_iff.mp hbase
  obtain ⟨run₁, hrun₁, hbase⟩ := (Option.any_eq_true _ _).mp hbase
  obtain ⟨hreason, hlength⟩ := Bool.and_eq_true_iff.mp hbase
  obtain ⟨t', ht', hchannels'⟩ := (Option.any_eq_true _ _).mp hfull
  have hids := of_decide_eq_true hids
  obtain ⟨members, hstaffed⟩ :=
    staffed_ofSetup (fun d _ _ => Registry.digitizes_builtin d) ofSetup_pair
  obtain ⟨members', hstaffed', -⟩ := hstaffed.after hs
  have hreal : ∀ p ∈ s.producers, ∀ x, p.device ≠ .scripted x := by
    intro p hp x hx
    obtain ⟨i, hi⟩ := List.mem_iff_getElem?.mp hp
    obtain ⟨m, -, -, hdevice⟩ := hstaffed'.member hi
    nomatch hx.symm.trans hdevice
  have hexclusive : Exclusive s.phase s.stages :=
    exclusive_nil.after hs (by decide +kernel : pairSession.Unhurried running)
  have hoff : s.KeepsOff 0 [] plan :=
    keepsOff_of_unhurried hexclusive hgap hin (fun i hi => by simp [plan] at hi) []
  obtain ⟨-, hsame, -⟩ := writes_unnoticed hreal hrun hrunning hoff
  obtain ⟨run₂, run', hrun₂, hrun', -, hresult, hsink⟩ := hsame t t' ht ht'
  obtain rfl := Option.some.inj (hrun₂.symm.trans hrun₁)
  rw [hids] at hsink
  exact ⟨s, t, t', hs, ht, ht', of_decide_eq_true hchannels, of_decide_eq_true hchannels', hids,
    hoff, run₂, run', hrun₂, hrun', of_decide_eq_true hreason, hresult, beq_iff_eq.mp hlength,
    hsink⟩

end

end ListMode.Session
