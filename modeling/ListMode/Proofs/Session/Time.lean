import ListMode.Proofs.Session.Relay

/-!
# Time and one call

Only the passing of time moves the session time, and nothing changes the intervals. Of one call, only
its own steps and giving it up change how far it has come; cancelling it leaves a note, and its
worker keeps to itself. Both hold of any session, whoever does what in it.
-/

namespace ListMode.Session

/-- Milliseconds that pass by an action. -/
def Act.passing : Act → Nat
  | .wait ms => ms
  | _ => 0

/-- What an action does to call `r`, which is `run`. -/
inductive Meets (s : Session) (r : Nat) (run : Run) : Act → Session → Prop where
  | steps {s' : Session} (hs : s.Steps r run s') : Meets s r run (.run r) s'
  | drops {s' : Session} (hover : run.stage.isOver = false)
      (hrun' : s'.runs[r]? = some { run with stage := .dropped }) : Meets s r run (.drop r) s'
  | cancels {s' : Session} (hrun' : s'.runs[r]? = some { run with cancelled := true }) :
      Meets s r run (.cancel r) s'
  | rests {a : Act} {s' : Session} {worker : Option Worker} (ha : a ≠ .run r)
      (hrun' : s'.runs[r]? = some { run with worker }) : Meets s r run a s'

section

variable {s s' t : Session} {a : Act} {r : Nat} {run : Run}

/-! ## Session time -/

@[simp] theorem time_deliver (s : Session) (handed : List Delivery) :
    (s.deliver handed).time = s.time := by
  induction handed generalizing s with
  | nil => rfl
  | cons d rest ih => exact ih (s.put d.queue d.spill)

@[simp] theorem timing_deliver (s : Session) (handed : List Delivery) :
    (s.deliver handed).timing = s.timing := by
  induction handed generalizing s with
  | nil => rfl
  | cons d rest ih => exact ih (s.put d.queue d.spill)

theorem clock_startProducer (s : Session) (i n : Nat) :
    (s.startProducer i n).2.time = s.time ∧ (s.startProducer i n).2.timing = s.timing := by
  unfold startProducer
  split
  · exact ⟨rfl, rfl⟩
  · exact ⟨time_deliver _ _, timing_deliver _ _⟩

theorem clock_askProducer (s : Session) (i : Nat) :
    (s.askProducer i).2.time = s.time ∧ (s.askProducer i).2.timing = s.timing := by
  unfold askProducer
  split
  · exact ⟨rfl, rfl⟩
  · exact ⟨time_deliver _ _, timing_deliver _ _⟩

theorem clock_awaitProducer {stop : Nat × Stopping} (h : s.awaitProducer? stop = some s') :
    s'.time = s.time ∧ s'.timing = s.timing := by
  obtain ⟨p, -, h⟩ := Option.bind_eq_some_iff.mp h
  obtain ⟨⟨wasRunning, spills, p'⟩, -, h⟩ := Option.bind_eq_some_iff.mp h
  obtain rfl := Option.some.inj h
  exact ⟨time_deliver _ _, timing_deliver _ _⟩

theorem clock_steps (hs : s.Steps r run s') : s'.time = s.time ∧ s'.timing = s.timing := by
  cases hs with
  | turn | closeRun | stopQueue | sealRun => exact ⟨rfl, rfl⟩
  | openRun | launchRun =>
    first | unfold openRun | unfold launchRun
    split <;> exact ⟨rfl, rfl⟩
  | @start o i => exact clock_startProducer s i o.queue
  | @ask e i => exact clock_askProducer s i
  | await hst hawait =>
    have hclock := clock_awaitProducer hawait
    exact hclock

/-- Only the passing of time moves the session time. -/
theorem clock_act (ha : s.act? a = some s') :
    s'.time = s.time + a.passing ∧ s'.timing = s.timing := by
  cases a with
  | run r =>
    obtain ⟨run, -, hs⟩ := steps_of_step? ha
    exact clock_steps hs
  | work r =>
    obtain ⟨x, -, hs⟩ := Option.bind_eq_some_iff.mp (show s.work? r = some s' from ha)
    obtain ⟨w, -, hs⟩ := Option.bind_eq_some_iff.mp hs
    obtain ⟨⟨w', q⟩, -, hs⟩ := Option.bind_eq_some_iff.mp hs
    obtain rfl := Option.some.inj hs
    exact ⟨rfl, rfl⟩
  | tick i n =>
    obtain ⟨p, -, hs⟩ := Option.bind_eq_some_iff.mp (show s.tick? i n = some s' from ha)
    obtain ⟨⟨spills, p'⟩, -, hs⟩ := Option.bind_eq_some_iff.mp hs
    obtain rfl := Option.some.inj hs
    exact ⟨time_deliver _ _, timing_deliver _ _⟩
  | notice i n =>
    obtain ⟨p, -, hs⟩ := Option.bind_eq_some_iff.mp (show s.notice? i n = some s' from ha)
    obtain ⟨⟨spills, p'⟩, -, hs⟩ := Option.bind_eq_some_iff.mp hs
    obtain rfl := Option.some.inj hs
    exact ⟨time_deliver _ _, timing_deliver _ _⟩
  | wait | call | cancel =>
    obtain rfl := Option.some.inj ha
    exact ⟨rfl, rfl⟩
  | drop r =>
    obtain rfl := Option.some.inj ha
    unfold drop
    split
    · exact ⟨rfl, rfl⟩
    · split <;> exact ⟨rfl, rfl⟩
  | boot i =>
    obtain rfl := Option.some.inj ha
    unfold bootProducer
    split <;> exact ⟨rfl, rfl⟩
  | write i settings =>
    obtain rfl := Option.some.inj ha
    unfold writeProducer
    split <;> exact ⟨rfl, rfl⟩
  | start i =>
    obtain rfl := Option.some.inj ha
    exact clock_startProducer s.openQueue.2 i s.openQueue.1
  | ask i =>
    obtain rfl := Option.some.inj ha
    exact clock_askProducer s i
  | await i stopping => exact clock_awaitProducer ha
  | shutdown i =>
    obtain rfl := Option.some.inj ha
    unfold shutdownProducer
    split
    · exact ⟨rfl, rfl⟩
    · exact ⟨time_deliver _ _, timing_deliver _ _⟩

/-! ## One call -/

theorem meets_drop (hrun : s.runs[r]? = some run) (r' : Nat) :
    s.Meets r run (.drop r') (s.drop r') := by
  unfold drop
  split
  · exact .rests nofun hrun
  · rename_i x hx
    have hdropped : ∀ {t : Session}, t.runs = s.runs → x.stage.isOver = false →
        s.Meets r run (.drop r') (t.setStage r' .dropped) := by
      intro t ht hover
      have hget := runs_setStage (ht ▸ hx) .dropped r
      by_cases hr : r' = r
      · subst hr
        obtain rfl := Option.some.inj (hx.symm.trans hrun)
        exact .drops hover (hget.trans (if_pos rfl))
      · exact .rests nofun ((hget.trans (if_neg hr)).trans (ht ▸ hrun))
    split
    · exact .rests nofun hrun
    · exact .rests nofun hrun
    · exact .rests nofun hrun
    · rename_i hst
      exact hdropped rfl (hst ▸ rfl)
    · rename_i hreturned hgone hcrashed hcalled
      refine hdropped rfl ?_
      cases hst : x.stage with
      | returned result => exact absurd hst (hreturned result)
      | dropped => exact absurd hst hgone
      | crashed => exact absurd hst hcrashed
      | _ => rfl

theorem meets_act (hrun : s.runs[r]? = some run) (ha : s.act? a = some s') :
    s.Meets r run a s' := by
  cases a with
  | run r' =>
    obtain ⟨x, hx, hs⟩ := steps_of_step? ha
    by_cases hr : r' = r
    · subst hr
      obtain rfl := Option.some.inj (hx.symm.trans hrun)
      exact .steps hs
    · exact .rests (fun he => hr (Act.run.inj he)) ((runs_of_steps hx hs hr).trans hrun)
  | work r' =>
    by_cases hr : r' = r
    · subst hr
      obtain ⟨x, hx, hs⟩ := Option.bind_eq_some_iff.mp (show s.work? r' = some s' from ha)
      obtain rfl := Option.some.inj (hx.symm.trans hrun)
      obtain ⟨w, -, hs⟩ := Option.bind_eq_some_iff.mp hs
      obtain ⟨⟨w', q⟩, -, hs⟩ := Option.bind_eq_some_iff.mp hs
      obtain rfl := Option.some.inj hs
      exact .rests nofun ((runs_setRun (s := s.setQueue w'.queue q) hrun _ r').trans (if_pos rfl))
    · exact .rests nofun ((runs_of_work ha hr).trans hrun)
  | cancel r' =>
    obtain rfl := Option.some.inj ha
    have hget : (s.cancel r').runs[r]? =
        some (if r' = r then { run with cancelled := true } else run) := by
      unfold cancel
      rw [List.getElem?_modify, hrun]
      rfl
    by_cases hr : r' = r
    · subst hr
      exact .cancels (hget.trans (by rw [if_pos rfl]))
    · exact .rests nofun (hget.trans (by rw [if_neg hr]))
  | drop r' =>
    obtain rfl := Option.some.inj ha
    exact meets_drop hrun r'
  | call id timeout faulty =>
    obtain rfl := Option.some.inj ha
    exact .rests nofun
      ((List.getElem?_append_left (List.getElem?_eq_some_iff.mp hrun).1).trans hrun)
  | tick | notice | wait | boot | write | start | ask | await | shutdown =>
    have hruns := (rests_of_act ha rfl fun _ _ _ => nofun).2
    exact .rests nofun ((congrArg (·[r]?) hruns).trans hrun)

/-! ## What has been done -/

/-- What holds at first and is kept by every action, of the session and of what has been done, holds
after a list of actions. -/
theorem after_induction {P : List (Session × Act) → Session → Prop} {acts : List Act}
    (hfirst : P [] s)
    (hstep : ∀ past x a y, P past x → x.act? a = some y → P (past ++ [(x, a)]) y)
    (hacts : s.after? acts = some t) : P (s.moments acts) t := by
  suffices h : ∀ past, P past s → P (past ++ s.moments acts) t from h [] hfirst
  clear hfirst
  induction acts generalizing s with
  | nil =>
    obtain rfl := Option.some.inj hacts
    intro past h
    rw [moments, List.append_nil]
    exact h
  | cons a rest ih =>
    obtain ⟨s₁, hs₁, hrest⟩ := Option.bind_eq_some_iff.mp hacts
    intro past h
    have hdone := ih hrest _ (hstep past s a s₁ h hs₁)
    rw [List.append_assoc] at hdone
    rw [moments, hs₁]
    exact hdone

/-- Time does not go back. -/
theorem ordered_moments {acts : List Act} (hacts : s.after? acts = some t) :
    (s.moments acts).Pairwise (·.1.time ≤ ·.1.time) ∧
      ∀ m ∈ s.moments acts, s.time ≤ m.1.time ∧ m.1.time ≤ t.time := by
  refine after_induction (P := fun past x => s.time ≤ x.time ∧
    past.Pairwise (·.1.time ≤ ·.1.time) ∧ ∀ m ∈ past, s.time ≤ m.1.time ∧ m.1.time ≤ x.time)
    ⟨Nat.le_refl _, .nil, nofun⟩ (fun past x a y ⟨hle, hpast, hm⟩ ha => ?_) hacts |>.2
  have htime := (clock_act ha).1
  have hxy : x.time ≤ y.time := by omega
  refine ⟨Nat.le_trans hle hxy, ?_, ?_⟩
  · refine List.pairwise_append.mpr ⟨hpast, List.pairwise_singleton _ _, fun m hmem m' hmem' => ?_⟩
    rw [List.mem_singleton.mp hmem']
    exact (hm m hmem).2
  · intro m hmem
    rcases List.mem_append.mp hmem with hmem | hmem
    · exact ⟨(hm m hmem).1, Nat.le_trans (hm m hmem).2 hxy⟩
    · rw [List.mem_singleton.mp hmem]
      exact ⟨hle, hxy⟩

end

end ListMode.Session
