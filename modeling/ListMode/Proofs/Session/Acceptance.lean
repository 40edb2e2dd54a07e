import ListMode.Proofs.Session.Succession

/-!
# Every producer that can run is started

In a session whose runs follow one after the other, a call that is let in finds no task left. So each
producer that can run accepts the start, and the call goes on with all of them.
-/

namespace ListMode.Session

/-- Names of the producers at the given places. -/
def names (s : Session) (places : List Nat) : List String := (s.producersAt places).map (·.id)

/-- A call at this stage has started the producers at `places`, or is about to. -/
def Enlists (s : Session) (places : List Nat) : Run.Stage → Prop
  | .called => False
  | .opening => s.runnable = places
  | .starting _ todo started => started ++ todo = places ∧ places ≠ [] ∧ ∀ i ∈ todo, s.CanStart i
  | .running l _ => l.started = places
  | .asking e _ _ | .awaiting e _ | .draining e _ | .emptied e | .finishing e | .sealing e _ =>
    e.started = places
  | .releasing outcome | .returned (.ok outcome) => outcome.started = s.names places
  | .returned (.error fault) => fault ≠ .noProducerStarted
  | .dropped | .crashed => True

section

variable {s s' t : Session} {a : Act} {r i : Nat} {run : Run} {stage : Run.Stage}
  {places : List Nat}

/-! ## What the statuses and the identifiers determine -/

theorem names_eq_of_ids (h : s'.producers.map (·.id) = s.producers.map (·.id))
    (places : List Nat) : s'.names places = s.names places := by
  unfold names producersAt
  rw [List.map_filterMap, List.map_filterMap]
  refine List.filterMap_congr fun i _ => ?_
  rw [← List.getElem?_map, ← List.getElem?_map, h]

theorem status_at (h : s'.producers.map (·.status) = s.producers.map (·.status)) (i : Nat) :
    (s'.producers[i]?).map (·.status) = (s.producers[i]?).map (·.status) := by
  rw [← List.getElem?_map, ← List.getElem?_map, h]

theorem runnable_eq_of_statuses (h : s'.producers.map (·.status) = s.producers.map (·.status)) :
    s'.runnable = s.runnable := by
  have hlen : s'.producers.length = s.producers.length := by
    simpa using congrArg List.length h
  unfold runnable places
  rw [hlen]
  refine List.filter_congr fun i _ => ?_
  have hany : ∀ x : Option Producer, x.any (·.status.canRun) = (x.map (·.status)).any (·.canRun) :=
    fun x => by cases x <;> rfl
  rw [hany, hany, status_at h]

theorem CanStart.of_statuses (h : s.CanStart i) (hs' : s'.Successive)
    (hstatuses : s'.producers.map (·.status) = s.producers.map (·.status)) : s'.CanStart i := by
  obtain ⟨p, hp, hcan, -⟩ := h
  have hat := status_at hstatuses i
  rw [hp] at hat
  obtain ⟨p', hp', hstatus⟩ := Option.map_eq_some_iff.mp hat
  exact ⟨p', hp', hstatus ▸ hcan, hs'.real hp'⟩

theorem Successive.canStart (h : s.Successive) (hi : i ∈ s.runnable) : s.CanStart i := by
  obtain ⟨p, hp, hcan⟩ := (Option.any_eq_true _ _).mp (List.mem_filter.mp hi).2
  exact ⟨p, hp, hcan, h.real hp⟩

/-- What others do changes nothing for a call. -/
theorem Enlists.mono (h : s.Enlists places stage) (hs' : s'.Successive)
    (hids : s'.producers.map (·.id) = s.producers.map (·.id))
    (hstatuses : stage.isOver = false →
      s'.producers.map (·.status) = s.producers.map (·.status)) : s'.Enlists places stage := by
  cases stage with
  | called => exact h
  | opening => exact (runnable_eq_of_statuses (hstatuses rfl)).trans h
  | starting o todo started =>
    exact ⟨h.1, h.2.1, fun i hi => (h.2.2 i hi).of_statuses hs' (hstatuses rfl)⟩
  | releasing outcome => exact Eq.trans h (names_eq_of_ids hids places).symm
  | returned result =>
    cases result with
    | ok outcome => exact Eq.trans h (names_eq_of_ids hids places).symm
    | error fault => exact h
  | running | asking | awaiting | draining | emptied | finishing | sealing => exact h
  | dropped | crashed => trivial

/-! ## Steps of the call -/

theorem Turns.enlists {phase : Phase} (h : s.Turns run phase stage)
    (he : s.Enlists places run.stage) : s.Enlists places stage := by
  cases h with
  | letIn hst | refuse hst =>
    rw [hst] at he
    exact he.elim
  | crash => trivial
  | lose => exact nofun
  | leave hst | watch hst | allAsked hst | sleep hst | wake hst | drained hst | collect hst
  | release hst =>
    rw [hst] at he
    exact he

/-- A call that is under way and tries a producer that can run starts it. -/
theorem Successive.accepts (h : s.Successive) (hrun : s.runs[r]? = some run) {o : Opened}
    {todo started : List Nat} (hst : run.stage = .starting o (i :: todo) started)
    (hcan : s.CanStart i) : (s.startProducer i o.queue).1 = true := by
  have hcoherent := h.tidy.coherent run (List.mem_of_getElem? hrun)
  have hat := stages_getElem? hrun
  unfold Run.Coherent at hcoherent
  rw [hst] at hcoherent hat
  have hcurrent : s.current = .starting o (i :: todo) started :=
    inAmong_eq hat rfl (h.tidy.exclusive.others hat rfl)
  have hattended := (h.reserved i).attended
  unfold AttendedAt at hattended
  rw [hcurrent] at hattended
  refine accepted_of_canStart hcan hattended rfl (fun hi => ?_) o.queue
  exact (List.nodup_append.mp hcoherent.2).2.2 i hi i List.mem_cons_self rfl

theorem enlists_steps (h : s.Successive) (hs' : s'.Successive)
    (hstatuses : s'.producers.map (·.status) = s.producers.map (·.status))
    (hids : s'.producers.map (·.id) = s.producers.map (·.id)) (hrun : s.runs[r]? = some run)
    (he : s.Enlists places run.stage) (hs : s.Steps r run s') :
    ∃ stage, s'.stages = s.stages.set r stage ∧ s'.Enlists places stage := by
  cases hs with
  | turn hturn => exact ⟨_, stages_setStage _ _ _, hturn.enlists he⟩
  | openRun hst =>
    rw [hst] at he
    unfold openRun
    split
    · exact ⟨_, stages_setStage _ _ _, nofun⟩
    · rename_i hsome
      refine ⟨_, stages_setStage _ _ _, he, fun hnil => hsome ?_, fun i hi => h.canStart hi⟩
      rw [he, hnil]
      rfl
  | @start o j todo started hst =>
    rw [hst] at he
    obtain ⟨hplaces, hne, hcan⟩ := he
    have haccepted := h.accepts hrun hst (hcan j List.mem_cons_self)
    refine ⟨_, stages_setStage_of_eq (rests_startProducer s j o.queue).2 _, ?_, hne,
      fun i hi => (hcan i (List.mem_cons_of_mem j hi)).of_statuses hs' hstatuses⟩
    rw [if_pos haccepted, List.append_assoc]
    exact hplaces
  | launchRun hst =>
    rw [hst] at he
    obtain ⟨hplaces, hne, -⟩ := he
    rw [List.append_nil] at hplaces
    unfold launchRun
    split
    · rename_i hempty
      exact absurd (hplaces.symm.trans (List.isEmpty_iff.mp hempty)) hne
    · exact ⟨_, stages_setRun _ _ _, hplaces⟩
  | @ask e j todo stops hst =>
    rw [hst] at he
    exact ⟨_, stages_setStage_of_eq (rests_askProducer s j).2 _, he⟩
  | await hst hawait =>
    rw [hst] at he
    exact ⟨_, stages_setStage_of_eq (rests_awaitProducer hawait).2 _, he⟩
  | closeRun hst | stopQueue hst =>
    rw [hst] at he
    exact ⟨_, stages_setStage _ _ _, he⟩
  | sealRun hst =>
    rw [hst] at he
    exact ⟨_, stages_setRun _ _ _, congrArg s.names he⟩

/-! ## Every action -/

theorem enlists_act (h : s.Successive) (hst : s.stages[r]? = some stage)
    (he : s.Enlists places stage) (ha : s.act? a = some s') (hin : s.InSuccession a) :
    ∃ stage', s'.stages[r]? = some stage' ∧ s'.Enlists places stage' := by
  have hr := (List.getElem?_eq_some_iff.mp hst).1
  have hs' := h.act ha hin
  have hids := h.ids_eq ha hin
  have hstatuses : stage.isOver = false →
      s'.producers.map (·.status) = s.producers.map (·.status) := by
    refine fun hover => h.statuses_eq ha hin ?_
    rintro i rfl
    exact nomatch hover.symm.trans (hin stage (List.mem_of_getElem? hst))
  by_cases hrun : a = .run r
  · subst hrun
    obtain ⟨run, hget, hs⟩ := steps_of_step? ha
    obtain rfl := Option.some.inj ((stages_getElem? hget).symm.trans hst)
    have hover : run.stage.isOver = false := Bool.eq_false_iff.mpr fun hover =>
      nomatch (step?_eq_none hget hover).symm.trans ha
    obtain ⟨stage', hstages, he'⟩ := enlists_steps h hs' (hstatuses hover) hids hget he hs
    exact ⟨stage', hstages ▸ List.getElem?_set_self hr, he'⟩
  · have hmono := he.mono hs' hids hstatuses
    cases shifts_of_act ha with
    | rests hphase hstages => exact ⟨stage, hstages ▸ hst, hmono⟩
    | calls hphase hstages =>
      exact ⟨stage, by rw [hstages, List.getElem?_append_left hr, hst], hmono⟩
    | @passes r' old new hact hold hstages =>
      have hne : r' ≠ r := by
        rintro rfl
        rcases hact with he | ⟨rfl, -⟩
        · exact hrun he
        · exact hin
      exact ⟨stage, by rw [hstages, List.getElem?_set_ne hne, hst], hmono⟩

theorem enlists_after {acts : List Act} (h : s.Successive) (hst : s.stages[r]? = some .opening)
    (ha : s.after? acts = some t) (horder : s.Succession acts) :
    ∃ stage, t.stages[r]? = some stage ∧ t.Enlists s.runnable stage := by
  refine (h.after (P := fun t _ => ∃ stage, t.stages[r]? = some stage ∧
    t.Enlists s.runnable stage) ?_ [] ⟨_, hst, rfl⟩ ha horder).2
  rintro s₁ s₂ a past hs₁ ⟨stage, hst, he⟩ ha hin
  exact enlists_act hs₁ hst he ha hin

end

end ListMode.Session
