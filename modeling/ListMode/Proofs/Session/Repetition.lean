import ListMode.Proofs.Session.Relay

/-!
# The same draws in every run

A digitizer with a seed starts each acquisition from the seed, and what a readout draws depends on
the readouts before it alone, not on the time, the queue or an earlier run. So what it acquires in a
run is a first part of one list that the settings determine.
-/

namespace ListMode

/-- A call at this stage has still to try producer `i`. -/
def Run.Stage.isAhead (i : Nat) : Run.Stage → Bool
  | .called | .opening => true
  | .starting _ todo _ => decide (i ∈ todo)
  | _ => false

namespace Synthetic.Acquisition

/-- The acquisition after `k` readouts, if none of them crashes. -/
def course (a : Acquisition) : Nat → Option Acquisition
  | 0 => some a
  | k + 1 => (a.course k).bind fun b => b.draw?.map (·.2)

/-- Event data of the next readout. -/
def payload? (a : Acquisition) : Option Payload :=
  a.draw?.map fun d => (a.spill (d.1.flatMap (·.2))).payload

/-- Event data of the readout that comes after `k` others. -/
def payloadAt (a : Acquisition) (k : Nat) : Option Payload := (a.course k).bind (·.payload?)

theorem payload_of_read? {a a' : Acquisition} {r : Reading} {s : Spill}
    (h : a.read? r = some (s, a')) :
    a.payload? = some s.payload ∧ a.draw?.map (·.2) = some a' := by
  obtain ⟨⟨drawn, after⟩, hdraw, h⟩ := Option.bind_eq_some_iff.mp h
  obtain ⟨rfl, rfl⟩ := Prod.mk.inj (Option.some.inj h)
  rw [payload?, hdraw, Spill.foldl_withStats]
  exact ⟨rfl, rfl⟩

end Synthetic.Acquisition

/-- A readout of a digitizer hands its event data over first. -/
theorem Acquisition.tick?_synthetic {x : Acquisition} {b : Synthetic.Acquisition} {r : Reading}
    {o : Readout Acquisition} (hwork : x.work = .synthetic b) (h : x.tick? r = some o) :
    ∃ spill rest b', o.spills = spill :: rest ∧ b.payload? = some spill.payload ∧
      b.draw?.map (·.2) = some b' ∧ ∀ y, o.next = some y → y.work = .synthetic b' := by
  unfold tick? at h
  rw [hwork] at h
  obtain ⟨o', ho', rfl⟩ := Option.map_eq_some_iff.mp h
  obtain ⟨⟨spill, b'⟩, hread, hresult⟩ := Option.bind_eq_some_iff.mp ho'
  obtain rfl := Option.some.inj hresult
  obtain ⟨hpayload, hdraw⟩ := Synthetic.Acquisition.payload_of_read? hread
  by_cases hcomplete : b'.isComplete = true
  · rw [if_pos hcomplete]
    exact ⟨spill, _, b', rfl, hpayload, hdraw, nofun⟩
  · rw [if_neg hcomplete]
    refine ⟨spill, [], b', rfl, hpayload, hdraw, fun y hy => ?_⟩
    obtain rfl := Option.some.inj hy
    rfl

namespace Producer

section

variable {p p' : Producer} {b : Synthetic.Acquisition} {handed : List Delivery} {time : Nat}
  {now : Instant} {t : Polling.Task Acquisition}

/-- A readout by the only task: it crashes, or the task goes on with the readouts to come. -/
theorem readout_of_tick? {n : Nat} (htasks : p.slot.tasks = [t])
    (hwork : t.work.work = .synthetic b) (h : p.tick? n time now = some (handed, p')) :
    handed = [] ∧ p'.slot.tasks = [] ∨ ∃ d rest b', handed = d :: rest ∧
      b.payload? = some d.spill.payload ∧ b.draw?.map (·.2) = some b' ∧
        ∀ t' ∈ p'.slot.tasks, t'.work.work = .synthetic b' := by
  unfold tick? at h
  obtain ⟨x, hx, h⟩ := Option.map_eq_some_iff.mp h
  obtain ⟨hmem, hnumber⟩ := Polling.Slot.task?_eq_some hx
  rw [htasks] at hmem
  obtain rfl := List.mem_singleton.mp hmem
  have hfinish : p.slot.tasks.filter (·.number != n) = [] := by
    rw [htasks]
    exact List.filter_eq_nil_iff.mpr fun y hy => by simp [List.mem_singleton.mp hy, hnumber]
  split at h
  · obtain ⟨rfl, rfl⟩ := Prod.mk.inj h
    exact .inl ⟨rfl, hfinish⟩
  · rename_i o ho
    obtain ⟨rfl, rfl⟩ := Prod.mk.inj h
    obtain ⟨spill, rest, b', hspills, hpayload, hdraw, hnext⟩ :=
      Acquisition.tick?_synthetic hwork ho
    refine .inr ⟨⟨x.work.queue, spill⟩, rest.map (⟨x.work.queue, ·⟩), b', by rw [hspills]; rfl,
      hpayload, hdraw, fun t' ht' => ?_⟩
    cases hgoes : o.next with
    | none =>
      rw [hgoes] at ht'
      replace ht' : t' ∈ p.slot.tasks.filter (·.number != n) := ht'
      rw [hfinish] at ht'
      nomatch ht'
    | some work =>
      rw [hgoes] at ht'
      obtain ⟨y, hy, rfl⟩ := List.mem_map.mp ht'
      rw [htasks] at hy
      obtain rfl := List.mem_singleton.mp hy
      rw [if_pos (beq_iff_eq.mpr hnumber)]
      exact hnext work hgoes

/-- A digitizer with a seed is started from it. -/
theorem work_of_start {config : Synthetic.Config} {seed : UInt64} (l : Launch)
    (hdevice : p.device = .synthetic config) (hseed : config.seed = some seed)
    (ht : t ∈ (p.start l).2.2.slot.tasks) : (∃ t' ∈ p.slot.tasks, t.work = t'.work) ∨
      t.work.work = .synthetic (.start p.id config (.ofSeed seed)) := by
  unfold start at ht
  rw [hdevice] at ht
  dsimp only at ht
  rw [hseed] at ht
  split at ht
  · rcases tasks_start ht with ht | hwork
    · exact .inl ht
    · rw [hwork]
      exact .inr rfl
  · exact .inl ⟨t, ht, rfl⟩

end

end Producer

namespace Session

/-- What producer `i` acquires by an action while call `r` is in: the first spill of a readout. At the
readout limit another one follows, without event data. -/
def acquired (r i : Nat) (moment : Session × Act) : List Spill :=
  match moment.2 with
  | .tick j _ => if j = i then ((produced r moment).take 1).map (·.spill) else []
  | _ => []

def acquiredIn (r i : Nat) (past : List (Session × Act)) : List Spill := past.flatMap (acquired r i)

/-- The device at place `i`, with its settings, when call `r` tries to start it. -/
def tried (r i : Nat) (moment : Session × Act) : List Device :=
  match moment.2, moment.1.stages[r]? with
  | .run r', some (.starting _ (j :: _) _) =>
    if r' = r ∧ j = i then ((moment.1.producers[i]?).map (·.device)).toList else []
  | _, _ => []

def triedIn (r i : Nat) (past : List (Session × Act)) : List Device := past.flatMap (tried r i)

/-- What producer `i` has acquired in call `r` is what the readouts of `a` give, and its task goes on
from there. -/
structure Repeats (s : Session) (a : Synthetic.Acquisition) (r i : Nat) (data : List Spill) :
    Prop where
  payloads : data.map (some ·.payload) = (List.range data.length).map a.payloadAt
  ahead : (s.stages[r]?).all (·.isAhead i) = true → data = []
  work : ∀ stage, s.stages[r]? = some stage → stage.isOver = false → ∀ p,
    s.producers[i]? = some p → ∀ t ∈ p.slot.tasks,
      ∃ b, t.work.work = .synthetic b ∧ a.course data.length = some b

section

variable {s s' t : Session} {a : Act} {r i : Nat} {run : Run} {stage : Run.Stage}
  {data : List Spill} {b : Synthetic.Acquisition}

/-! ## Before the producer is tried -/

/-- A call that has still to try a producer attends to no task of it. -/
theorem Successive.tasks_ahead (h : s.Successive) (hst : s.stages[r]? = some stage)
    (hahead : stage.isAhead i = true) {p : Producer} (hp : s.producers[i]? = some p) :
    p.slot.tasks = [] := by
  obtain ⟨run, hrun, rfl⟩ := Option.map_eq_some_iff.mp ((List.getElem?_map).symm.trans hst)
  have hcoherent := h.tidy.coherent run (List.mem_of_getElem? hrun)
  unfold Run.Coherent at hcoherent
  cases hs : run.stage with
  | called | opening => exact h.tasks_eq_nil (hs ▸ hst) rfl rfl List.not_mem_nil hp
  | starting o todo started =>
    rw [hs] at hahead hcoherent
    refine h.tasks_eq_nil (hs ▸ hst) rfl rfl (fun hi => ?_) hp
    exact (List.nodup_append.mp hcoherent.2).2.2 i hi i (of_decide_eq_true hahead) rfl
  | _ =>
    rw [hs] at hahead
    nomatch hahead

theorem Turns.ahead {phase : Phase} (h : s.Turns run phase stage)
    (hahead : stage.isAhead i = true) : run.stage.isAhead i = true := by
  cases h with
  | letIn hst =>
    rw [hst]
    rfl
  | refuse | crash | leave | watch | allAsked | sleep | wake | drained | collect | lose
  | release => nomatch hahead

/-- Whoever is to be tried after a step was to be tried before. -/
theorem ahead_of_steps (hs : s.Steps r run s') :
    ∃ stage, s'.stages = s.stages.set r stage ∧
      (stage.isAhead i = true → run.stage.isAhead i = true) := by
  cases hs with
  | turn hturn => exact ⟨_, stages_setStage _ _ _, hturn.ahead⟩
  | openRun hst =>
    rw [hst]
    unfold Session.openRun
    split
    · exact ⟨_, stages_setStage _ _ _, fun _ => rfl⟩
    · exact ⟨_, stages_setStage _ _ _, fun _ => rfl⟩
  | @start o j todo started hst =>
    rw [hst]
    refine ⟨_, stages_setStage_of_eq (rests_startProducer s j o.queue).2 _, fun hahead => ?_⟩
    exact decide_eq_true (List.mem_cons_of_mem j (of_decide_eq_true hahead))
  | launchRun hst =>
    unfold Session.launchRun
    split
    · exact ⟨_, stages_setStage _ _ _, nofun⟩
    · exact ⟨_, stages_setRun _ _ _, nofun⟩
  | @ask e j todo stops hst =>
    exact ⟨_, stages_setStage_of_eq (rests_askProducer s j).2 _, nofun⟩
  | await hst hawait => exact ⟨_, stages_setStage_of_eq (rests_awaitProducer hawait).2 _, nofun⟩
  | closeRun | stopQueue => exact ⟨_, stages_setStage _ _ _, nofun⟩
  | sealRun => exact ⟨_, stages_setRun _ _ _, nofun⟩

theorem ahead_act (ha : s.act? a = some s') (hahead : (s'.stages[r]?).all (·.isAhead i) = true) :
    (s.stages[r]?).all (·.isAhead i) = true := by
  by_cases hrun : a = .run r
  · subst hrun
    obtain ⟨run, hget, hs⟩ := steps_of_step? ha
    have hr := (List.getElem?_eq_some_iff.mp (stages_getElem? hget)).1
    obtain ⟨stage, hstages, hback⟩ := ahead_of_steps hs
    rw [hstages, List.getElem?_set_self hr, Option.all_some] at hahead
    rw [stages_getElem? hget, Option.all_some]
    exact hback hahead
  · cases shifts_of_act ha with
    | rests hphase hstages => rwa [hstages] at hahead
    | calls hphase hstages =>
      rw [hstages, List.getElem?_append] at hahead
      split at hahead
      · exact hahead
      · rename_i hr
        rw [List.getElem?_eq_none (Nat.le_of_not_lt hr)]
        rfl
    | @passes r' old new hact hold hstages =>
      by_cases hr : r' = r
      · subst hr
        obtain he | ⟨-, rfl⟩ := hact
        · exact absurd he hrun
        · rw [hstages, List.getElem?_set_self (List.getElem?_eq_some_iff.mp hold).1] at hahead
          nomatch hahead
      · rwa [hstages, List.getElem?_set_ne hr] at hahead

/-- A call that is not over was not over before, or is new. -/
theorem over_act (ha : s.act? a = some s') (hst : s'.stages[r]? = some stage)
    (hover : stage.isOver = false) :
    stage = .called ∨ ∃ stage', s.stages[r]? = some stage' ∧ stage'.isOver = false := by
  cases shifts_of_act ha with
  | rests hphase hstages => exact .inr ⟨stage, hstages ▸ hst, hover⟩
  | calls hphase hstages =>
    rw [hstages, List.getElem?_append] at hst
    split at hst
    · exact .inr ⟨stage, hst, hover⟩
    · exact .inl (List.mem_singleton.mp (List.mem_of_getElem? hst))
  | @passes r' old new hact hold hstages hpasses =>
    by_cases hr : r' = r
    · exact .inr ⟨old, hr ▸ hold, hpasses.not_over⟩
    · rw [hstages, List.getElem?_set_ne hr] at hst
      exact .inr ⟨stage, hst, hover⟩

/-- A call that is neither over nor in has just been made. -/
theorem called_of_out (hout : stage.isIn = false) (hover : stage.isOver = false) :
    stage = .called := by
  cases stage with
  | called => rfl
  | returned | dropped | crashed => nomatch hover
  | _ => nomatch hout

/-! ## Readouts -/

/-- One more readout. -/
theorem Repeats.read (hf : s.Repeats b r i data) {b' : Synthetic.Acquisition} {spill : Spill}
    (hcourse : b.course data.length = some b') (hpayload : b'.payload? = some spill.payload) :
    (data ++ [spill]).map (some ·.payload) =
      (List.range (data ++ [spill]).length).map b.payloadAt := by
  have hlast : b.payloadAt data.length = some spill.payload := by
    rw [Synthetic.Acquisition.payloadAt, hcourse, Option.bind_some, hpayload]
  rw [List.map_append, hf.payloads, List.length_append, List.length_singleton, List.range_succ,
    List.map_append, List.map_singleton, List.map_singleton, hlast]

theorem acquired_tick (s : Session) (r i n : Nat) : acquired r i (s, .tick i n) =
    ((if (s.stages[r]?).any (·.isIn) then s.handed (.tick i n) else []).take 1).map (·.spill) :=
  if_pos rfl

/-- The producer that reads out has one task, and hands over what the action does. -/
theorem Successive.reads {n : Nat} (h : s.Successive) (ha : s.act? (.tick i n) = some s') :
    ∃ p p' x, s.producers[i]? = some p ∧ s'.producers[i]? = some p' ∧ p.slot.tasks = [x] ∧
      p.tick? n s.time s.now = some (s.handed (.tick i n), p') := by
  obtain ⟨p, hp, hs⟩ := Option.bind_eq_some_iff.mp (show s.tick? i n = some s' from ha)
  obtain ⟨⟨handed, p'⟩, htick, hs⟩ := Option.bind_eq_some_iff.mp hs
  obtain rfl := Option.some.inj hs
  obtain ⟨x, hx, -⟩ := Option.map_eq_some_iff.mp htick
  refine ⟨p, p', x, hp, ?_, (((h.reserved i).attended p hp).sole.task hx).1, ?_⟩
  · rw [producers_deliver]
    exact List.getElem?_set_self (List.getElem?_eq_some_iff.mp hp).1
  · simp [Session.handed, hp, htick]

theorem Repeats.tick {n : Nat} (hf : s.Repeats b r i data) (h : s.Successive)
    (ha : s.act? (.tick i n) = some s') :
    s'.Repeats b r i (data ++ acquired r i (s, .tick i n)) := by
  have hstages : s'.stages = s.stages :=
    stages_of_runs_eq (rests_of_act ha rfl fun _ _ _ he => by cases he).2
  obtain ⟨p, p', x, hp, hp', htasks, htick⟩ := h.reads ha
  -- The producer has a task, so each call that is not over has tried it.
  have htried : ∀ stage, s.stages[r]? = some stage → stage.isAhead i = false := by
    refine fun stage hst => Bool.eq_false_iff.mpr fun hahead => ?_
    exact List.cons_ne_nil x [] (htasks.symm.trans (h.tasks_ahead hst hahead hp))
  rw [acquired_tick]
  cases hisIn : (s.stages[r]?).any (·.isIn) with
  | false =>
    rw [if_neg Bool.false_ne_true, List.take_nil, List.map_nil, List.append_nil]
    refine ⟨hf.payloads, hstages ▸ hf.ahead, fun stage hst hover => ?_⟩
    rw [hstages] at hst
    rw [hst, Option.any_some] at hisIn
    rw [called_of_out hisIn hover] at hst
    exact absurd rfl (Bool.eq_false_iff.mp (htried _ hst))
  | true =>
    obtain ⟨stage, hst, hisIn⟩ := (Option.any_eq_true _ _).mp hisIn
    have hlate : (s'.stages[r]?).all (·.isAhead i) ≠ true := by
      rw [hstages, hst, Option.all_some, htried stage hst]
      exact Bool.false_ne_true
    obtain ⟨b', hwork, hcourse⟩ := hf.work stage hst (not_over_of_isIn hisIn) p hp x
      (htasks ▸ List.mem_singleton_self x)
    rw [if_pos rfl]
    rcases Producer.readout_of_tick? htasks hwork htick with ⟨hnothing, hnone⟩ |
      ⟨d, rest, b'', hhanded, hpayload, hdraw, hnext⟩
    · rw [hnothing, List.take_nil, List.map_nil, List.append_nil]
      refine ⟨hf.payloads, fun hahead => absurd hahead hlate, fun _ _ _ q hq t ht => ?_⟩
      obtain rfl := Option.some.inj (hp'.symm.trans hq)
      exact absurd ht (hnone ▸ List.not_mem_nil)
    · rw [hhanded]
      refine ⟨hf.read hcourse hpayload, fun hahead => absurd hahead hlate,
        fun _ _ _ q hq t ht => ⟨b'', ?_, ?_⟩⟩
      · obtain rfl := Option.some.inj (hp'.symm.trans hq)
        exact hnext t ht
      · rw [List.length_append, List.length_map, List.take_succ_cons, List.take_zero,
          List.length_singleton, Synthetic.Acquisition.course, hcourse, Option.bind_some, hdraw]

/-! ## Every action -/

/-- Where a task of producer `i` comes from that has not just read out: it was there before, or the
call has started it. -/
theorem Successive.work_of_task (h : s.Successive) (ha : s.act? a = some s')
    (hin : s.InSuccession a) (htick : ∀ n, a ≠ .tick i n) {p' : Producer}
    (hp' : s'.producers[i]? = some p') {x : Polling.Task Acquisition} (hx : x ∈ p'.slot.tasks) :
    ∃ p, s.producers[i]? = some p ∧ ((∃ y ∈ p.slot.tasks, x.work = y.work) ∨
      ∃ r run o todo started l, a = .run r ∧ s.runs[r]? = some run ∧
        run.stage = .starting o (i :: todo) started ∧ x ∈ (p.start l).2.2.slot.tasks) := by
  obtain ⟨p, hp, rfl | ⟨op, handed, hpermits, hop, halters⟩⟩ := h.alters_at ha hin hp'
  · exact ⟨p', hp, .inl ⟨x, hx, rfl⟩⟩
  · refine ⟨p, hp, ?_⟩
    by_cases hstart : ∃ l, op = .start l
    · obtain ⟨l, rfl⟩ := hstart
      have hresult : (p.start l).2.2 = p' := congrArg Prod.snd (Option.some.inj hop)
      rcases hpermits with ⟨rfl, -⟩ | ⟨r, run, o, todo, started, ha, hrun, hst, -⟩
      · exact hin.elim
      · exact .inr ⟨r, run, o, todo, started, l, ha, hrun, hst, hresult ▸ hx⟩
    · refine .inl (halters.work_eq (fun l he => hstart ⟨l, he⟩) ?_ hx)
      rintro n rfl
      exact htick n hpermits

theorem acquired_eq_nil (htick : ∀ n, a ≠ .tick i n) : acquired r i (s, a) = [] := by
  unfold acquired
  split
  · rename_i j n he
    refine if_neg ?_
    rintro rfl
    exact htick n he
  · rfl

theorem Repeats.act {config : Synthetic.Config} {seed : UInt64} {id : String}
    (hf : s.Repeats (.start id config (.ofSeed seed)) r i data) (h : s.Successive)
    (ha : s.act? a = some s') (hin : s.InSuccession a) (hseed : config.seed = some seed)
    (hid : ∀ p, s.producers[i]? = some p → p.id = id)
    (htried : ∀ device ∈ tried r i (s, a), device = .synthetic config) :
    s'.Repeats (.start id config (.ofSeed seed)) r i (data ++ acquired r i (s, a)) := by
  by_cases htick : ∃ n, a = .tick i n
  · obtain ⟨n, rfl⟩ := htick
    exact hf.tick h ha
  replace htick : ∀ n, a ≠ .tick i n := fun n he => htick ⟨n, he⟩
  rw [acquired_eq_nil htick, List.append_nil]
  refine ⟨hf.payloads, fun hahead => hf.ahead (ahead_act ha hahead),
    fun stage' hst' hover' p' hp' x hx => ?_⟩
  rcases over_act ha hst' hover' with rfl | ⟨stage, hst, hover⟩
  · rw [(h.act ha hin).tasks_ahead hst' rfl hp'] at hx
    nomatch hx
  obtain ⟨p, hp, ⟨y, hy, hwork⟩ | ⟨r', run, o, todo, started, l, rfl, hrun, hstart, hx⟩⟩ :=
    h.work_of_task ha hin htick hp' hx
  · rw [hwork]
    exact hf.work stage hst hover p hp y hy
  · -- The call is the only one that is not over, and tries the producer by this step.
    obtain rfl := h.alone hst hover ha (.inl rfl)
    obtain rfl := Option.some.inj ((stages_getElem? hrun).symm.trans hst)
    have hahead : run.stage.isAhead i = true := by
      rw [hstart]
      exact decide_eq_true List.mem_cons_self
    have hdevice : p.device = .synthetic config := by
      refine htried _ ?_
      unfold tried
      dsimp only
      rw [hst, hstart]
      dsimp only
      rw [if_pos ⟨rfl, rfl⟩, hp]
      exact List.mem_singleton_self _
    rcases Producer.work_of_start l hdevice hseed hx with hold | hwork
    · rw [h.tasks_ahead hst hahead hp] at hold
      nomatch hold
    · refine ⟨_, hid p hp ▸ hwork, ?_⟩
      rw [hf.ahead (by rw [hst]; exact hahead)]
      rfl

/-- What a digitizer with a seed acquires in a run that starts it with these settings is what its
readouts give, one after the other. -/
theorem payloads_after {acts : List Act} {config : Synthetic.Config} {seed : UInt64} {id : String}
    (h : s.Successive) (hnew : s.runs = []) (ha : s.after? acts = some t)
    (horder : s.Succession acts) (hseed : config.seed = some seed)
    (hid : ∀ p, s.producers[i]? = some p → p.id = id)
    (htried : ∀ device ∈ triedIn r i (s.moments acts), device = .synthetic config) :
    (acquiredIn r i (s.moments acts)).map (some ·.payload) =
      (List.range (acquiredIn r i (s.moments acts)).length).map
        (Synthetic.Acquisition.start id config (.ofSeed seed)).payloadAt := by
  have hnone : ∀ j : Nat, s.stages[j]? = none := fun j => by
    rw [stages, hnew]
    rfl
  have hfirst : (∀ p, s.producers[i]? = some p → p.id = id) ∧
      ((∀ device ∈ triedIn r i [], device = .synthetic config) →
        s.Repeats (.start id config (.ofSeed seed)) r i (acquiredIn r i [])) :=
    ⟨hid, fun _ => ⟨rfl, fun _ => rfl, fun stage hst => absurd (hnone r) (by rw [hst]; simp)⟩⟩
  refine ((h.after (P := fun t past => (∀ p, t.producers[i]? = some p → p.id = id) ∧
    ((∀ device ∈ triedIn r i past, device = .synthetic config) →
      t.Repeats (.start id config (.ofSeed seed)) r i (acquiredIn r i past))) ?_ [] hfirst ha
    horder).2.2 htried).payloads
  rintro s₁ s₂ a past hs₁ ⟨hid, hf⟩ ha hin
  constructor
  · intro p' hp'
    obtain ⟨p, hp, rfl | ⟨op, handed, -, -, halters⟩⟩ := hs₁.alters_at ha hin hp'
    · exact hid p' hp
    · exact halters.id_eq.trans (hid p hp)
  · intro htried
    rw [triedIn, List.flatMap_append] at htried
    rw [acquiredIn, List.flatMap_append, List.flatMap_singleton]
    refine (hf fun device hd => htried device (List.mem_append_left _ hd)).act hs₁ ha hin hseed hid
      fun device hd => htried device (List.mem_append_right _ ?_)
    rwa [List.flatMap_singleton]

/-- Of two first parts of one sequence the shorter is a first part of the longer. -/
theorem prefix_of_sequence {α : Type} {f : Nat → Option α} {xs ys : List α}
    (hxs : xs.map some = (List.range xs.length).map f)
    (hys : ys.map some = (List.range ys.length).map f) (hle : xs.length ≤ ys.length) :
    xs <+: ys := by
  rw [List.prefix_iff_eq_take]
  refine (List.map_inj_right fun _ _ => Option.some.inj).mp ?_
  rw [List.map_take, hys, ← List.map_take, List.take_range, Nat.min_eq_left hle, hxs]

/-- Two runs that start a digitizer with the same settings, seed included, acquire the same as long
as both go on. -/
theorem acquired_same {acts : List Act} {config : Synthetic.Config} {seed : UInt64} {r' : Nat}
    (h : s.Successive) (hnew : s.runs = []) (ha : s.after? acts = some t)
    (horder : s.Succession acts) (hseed : config.seed = some seed)
    (htried : ∀ device ∈ triedIn r i (s.moments acts) ++ triedIn r' i (s.moments acts),
      device = .synthetic config)
    (hle : (acquiredIn r i (s.moments acts)).length ≤ (acquiredIn r' i (s.moments acts)).length) :
    (acquiredIn r i (s.moments acts)).map (·.payload) <+:
      (acquiredIn r' i (s.moments acts)).map (·.payload) := by
  obtain ⟨id, hid⟩ : ∃ id, ∀ p, s.producers[i]? = some p → p.id = id := by
    refine ⟨((s.producers[i]?).map (·.id)).getD "", fun p hp => ?_⟩
    rw [hp]
    rfl
  have hfirst := payloads_after h hnew ha horder hseed hid fun device hd =>
    htried device (List.mem_append_left _ hd)
  have hsecond := payloads_after h hnew ha horder hseed hid fun device hd =>
    htried device (List.mem_append_right _ hd)
  refine prefix_of_sequence
    (f := (Synthetic.Acquisition.start id config (.ofSeed seed)).payloadAt) ?_ ?_
    (by rwa [List.length_map, List.length_map])
  · rw [List.map_map, List.length_map]
    exact hfirst
  · rw [List.map_map, List.length_map]
    exact hsecond

end

end Session

end ListMode
