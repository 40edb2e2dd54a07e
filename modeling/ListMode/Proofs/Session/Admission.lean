import ListMode.Proofs.Session.Frame
import ListMode.Proofs.Session.Steps

/-!
# Admission of calls

The phase of the session is all that a call looks at when it asks to be let in. A call that succeeds
makes the session idle twice, by its last transition and by the reset that it holds until it
returns. As long as no call is let in between the two, at most one call is in, and the session is
idle exactly if none is in before its last transition. A call that is let in between loses the phase
to the reset, and then the next one is let in as well.
-/

namespace ListMode

/-- The call has been let in and has not ended. -/
def Run.Stage.isIn : Run.Stage → Bool
  | .called | .returned _ | .dropped | .crashed => false
  | _ => true

/-- The call has made the session idle and has still to return. -/
def Run.Stage.isReleasing : Run.Stage → Bool
  | .releasing _ => true
  | _ => false

/-- The call has been let in, and its last transition is still to come. -/
def Run.Stage.isActive (stage : Run.Stage) : Bool := stage.isIn && !stage.isReleasing

namespace Session

/-- The stages of all calls, oldest first. -/
def stages (s : Session) : List Run.Stage := s.runs.map (·.stage)

/-- By this action a call is let in. -/
def letsIn (s : Session) : Act → Bool
  | .run r =>
    match s.stages[r]? with
    | some .called => s.phase = .idle
    | _ => false
  | _ => false

/-- No call is let in while another has made the session idle and has still to return. -/
def Unhurried (s : Session) : List Act → Prop
  | [] => True
  | a :: rest => (s.letsIn a = true → ∀ stage ∈ s.stages, stage.isReleasing = false) ∧
      ∀ s' ∈ s.act? a, s'.Unhurried rest

instance decidableUnhurried : (acts : List Act) → (s : Session) → Decidable (s.Unhurried acts)
  | [], _ => inferInstanceAs (Decidable True)
  | a :: rest, s =>
    have := decidableUnhurried rest
    inferInstanceAs (Decidable ((s.letsIn a = true → ∀ stage ∈ s.stages,
      stage.isReleasing = false) ∧ ∀ s' ∈ s.act? a, s'.Unhurried rest))

/-- What a call does to the phase on its way from one stage to another. -/
inductive Passes : Phase → Run.Stage → Phase → Run.Stage → Prop where
  | letIn : Passes .idle .called .starting .opening
  | refuse {phase : Phase} (hbusy : phase ≠ .idle) :
      Passes phase .called phase (.returned (.error .sessionBusy))
  | giveUp {phase : Phase} : Passes phase .called phase .dropped
  | goOn {phase phase' : Phase} {stage stage' : Run.Stage} (hst : stage.isActive = true)
      (hst' : stage'.isActive = true) (hphase : phase' = phase ∨ phase' ≠ .idle) :
      Passes phase stage phase' stage'
  | settle {phase : Phase} {stage : Run.Stage} {outcome : Outcome}
      (hst : stage.isActive = true) : Passes phase stage .idle (.releasing outcome)
  | leave {phase : Phase} {stage stage' : Run.Stage} (hst : stage.isIn = true)
      (hst' : stage'.isIn = false) (hresult : stage' ≠ .returned (.error .sessionBusy)) :
      Passes phase stage .idle stage'

/-- What an action does to the phase and the stages. -/
inductive Shifts (s : Session) (a : Act) (s' : Session) : Prop where
  | rests (hphase : s'.phase = s.phase) (hstages : s'.stages = s.stages)
  | calls (hphase : s'.phase = s.phase) (hstages : s'.stages = s.stages ++ [.called])
      (ha : ∃ id timeout faulty, a = .call id timeout faulty)
  | passes {r : Nat} {stage stage' : Run.Stage} (ha : a = .run r ∨ a = .drop r ∧ stage' = .dropped)
      (hst : s.stages[r]? = some stage) (hstages : s'.stages = s.stages.set r stage')
      (hpasses : Passes s.phase stage s'.phase stage')

/-- At most one call is in, and the session is idle exactly if none is active. -/
structure Exclusive (phase : Phase) (stages : List Run.Stage) : Prop where
  one : ∀ (r r' : Nat) (x y : Run.Stage), stages[r]? = some x → stages[r']? = some y →
    x.isIn = true → y.isIn = true → r = r'
  active : phase ≠ .idle ↔ ∃ stage ∈ stages, stage.isActive = true

/-- No call but call `r` is in. -/
def OthersOut (r : Nat) (stages : List Run.Stage) : Prop :=
  ∀ (j : Nat) (x : Run.Stage), j ≠ r → stages[j]? = some x → x.isIn = false

section

variable {s s' : Session} {a : Act} {r : Nat} {run : Run} {phase phase' : Phase}
  {stage stage' : Run.Stage} {stages : List Run.Stage}

/-! ## What an action shifts -/

@[simp] theorem stages_setStage (s : Session) (r : Nat) (stage : Run.Stage) :
    (s.setStage r stage).stages = s.stages.set r stage := by
  refine List.ext_getElem? fun j => ?_
  unfold setStage Session.stages
  rw [List.getElem?_map, List.getElem?_modify, List.getElem?_set, List.getElem?_map,
    List.length_map]
  by_cases hj : r = j
  · subst hj
    by_cases hlen : r < s.runs.length <;> simp [hlen]
  · simp [hj]

theorem stages_of_runs_eq (h : s'.runs = s.runs) : s'.stages = s.stages :=
  congrArg (List.map Run.stage) h

theorem stages_setStage_of_eq (h : s'.runs = s.runs) (stage : Run.Stage) :
    (s'.setStage r stage).stages = s.stages.set r stage := by
  rw [stages_setStage, stages_of_runs_eq h]

@[simp] theorem stages_setRun (s : Session) (r : Nat) (run : Run) :
    (s.setRun r run).stages = s.stages.set r run.stage := List.map_set

@[simp] theorem phase_deliver (s : Session) (handed : List Delivery) :
    (s.deliver handed).phase = s.phase := by
  induction handed generalizing s with
  | nil => rfl
  | cons d rest ih => exact ih (s.put d.queue d.spill)

theorem rests_startProducer (s : Session) (i n : Nat) :
    (s.startProducer i n).2.phase = s.phase ∧ (s.startProducer i n).2.runs = s.runs := by
  unfold startProducer
  split
  · exact ⟨rfl, rfl⟩
  · exact ⟨phase_deliver _ _, runs_deliver _ _⟩

theorem rests_askProducer (s : Session) (i : Nat) :
    (s.askProducer i).2.phase = s.phase ∧ (s.askProducer i).2.runs = s.runs := by
  unfold askProducer
  split
  · exact ⟨rfl, rfl⟩
  · exact ⟨phase_deliver _ _, runs_deliver _ _⟩

theorem rests_awaitProducer {stop : Nat × Stopping} (h : s.awaitProducer? stop = some s') :
    s'.phase = s.phase ∧ s'.runs = s.runs := by
  unfold awaitProducer? at h
  obtain ⟨p, -, h⟩ := Option.bind_eq_some_iff.mp h
  obtain ⟨⟨wasRunning, spills, p'⟩, -, h⟩ := Option.bind_eq_some_iff.mp h
  obtain rfl := Option.some.inj h
  exact ⟨phase_deliver _ _, runs_deliver _ _⟩

/-- Where a call turns to. -/
theorem Turns.passes (h : s.Turns run phase stage) : Passes s.phase run.stage phase stage := by
  cases h with
  | letIn hst hidle =>
    rw [hst, hidle]
    exact .letIn
  | refuse hst hbusy =>
    rw [hst]
    exact .refuse hbusy
  | crash hst | lose hst | release hst => exact .leave (hst ▸ rfl) rfl nofun
  | leave hst => exact .goOn (hst ▸ rfl) rfl (.inr nofun)
  | watch hst | allAsked hst | sleep hst | wake hst | drained hst | collect hst =>
    exact .goOn (hst ▸ rfl) rfl (.inl rfl)

theorem stages_getElem? (hrun : s.runs[r]? = some run) : s.stages[r]? = some run.stage := by
  unfold Session.stages
  rw [List.getElem?_map, hrun]
  rfl

/-- What a step of a call shifts. -/
theorem shifts_step (hrun : s.runs[r]? = some run) (hs : s.Steps r run s') :
    s.Shifts (.run r) s' := by
  have hat := stages_getElem? hrun
  cases hs with
  | turn hturn => exact .passes (.inl rfl) hat (stages_setStage _ _ _) hturn.passes
  | openRun hst =>
    unfold openRun
    split
    · exact .passes (.inl rfl) hat (stages_setStage _ _ _) (.leave (hst ▸ rfl) rfl nofun)
    · exact .passes (.inl rfl) hat (stages_setStage _ _ _) (.goOn (hst ▸ rfl) rfl (.inl rfl))
  | @start o i todo started hst =>
    obtain ⟨hphase, hruns⟩ := rests_startProducer s i o.queue
    exact .passes (.inl rfl) hat (stages_setStage_of_eq hruns _)
      (.goOn (hst ▸ rfl) rfl (.inl hphase))
  | launchRun hst =>
    unfold launchRun
    split
    · exact .passes (.inl rfl) hat (stages_setStage _ _ _) (.leave (hst ▸ rfl) rfl nofun)
    · exact .passes (.inl rfl) hat (stages_setRun _ _ _) (.goOn (hst ▸ rfl) rfl (.inr nofun))
  | @ask e i todo stops hst =>
    obtain ⟨hphase, hruns⟩ := rests_askProducer s i
    exact .passes (.inl rfl) hat (stages_setStage_of_eq hruns _)
      (.goOn (hst ▸ rfl) rfl (.inl hphase))
  | await hst hawait =>
    obtain ⟨hphase, hruns⟩ := rests_awaitProducer hawait
    exact .passes (.inl rfl) hat (stages_setStage_of_eq hruns _)
      (.goOn (hst ▸ rfl) rfl (.inl hphase))
  | closeRun hst =>
    exact .passes (.inl rfl) hat (stages_setStage _ _ _) (.goOn (hst ▸ rfl) rfl (.inr nofun))
  | stopQueue hst =>
    exact .passes (.inl rfl) hat (stages_setStage _ _ _) (.goOn (hst ▸ rfl) rfl (.inl rfl))
  | sealRun hst => exact .passes (.inl rfl) hat (stages_setRun _ _ _) (.settle (hst ▸ rfl))

theorem shifts_drop (s : Session) (r : Nat) : s.Shifts (.drop r) (s.drop r) := by
  unfold drop
  split
  · exact .rests rfl rfl
  · rename_i run hrun
    have hat := stages_getElem? hrun
    split
    · exact .rests rfl rfl
    · exact .rests rfl rfl
    · exact .rests rfl rfl
    · rename_i hst
      rw [hst] at hat
      exact .passes (.inr ⟨rfl, rfl⟩) hat (stages_setStage _ _ _) .giveUp
    · rename_i hreturned hdropped hcrashed hcalled
      refine .passes (.inr ⟨rfl, rfl⟩) hat (stages_setStage _ _ _) (.leave ?_ rfl nofun)
      cases hst : run.stage with
      | called => exact absurd hst hcalled
      | returned result => exact absurd hst (hreturned result)
      | dropped => exact absurd hst hdropped
      | crashed => exact absurd hst hcrashed
      | _ => rfl

theorem stages_cancel (s : Session) (r : Nat) : (s.cancel r).stages = s.stages := by
  refine List.ext_getElem? fun j => ?_
  unfold cancel Session.stages
  rw [List.getElem?_map, List.getElem?_modify, List.getElem?_map]
  by_cases hj : r = j
  · simp [hj, Function.comp_def]
  · simp [hj]

theorem stages_work (h : s.work? r = some s') : s'.phase = s.phase ∧ s'.stages = s.stages := by
  unfold work? at h
  obtain ⟨run, hrun, h⟩ := Option.bind_eq_some_iff.mp h
  obtain ⟨w, -, h⟩ := Option.bind_eq_some_iff.mp h
  obtain ⟨⟨w', q⟩, -, h⟩ := Option.bind_eq_some_iff.mp h
  obtain rfl := Option.some.inj h
  refine ⟨rfl, (stages_setRun _ _ _).trans ?_⟩
  obtain ⟨hlen, hget⟩ := List.getElem?_eq_some_iff.mp (stages_getElem? hrun)
  exact hget ▸ List.set_getElem_self hlen

/-- What nobody's call or worker does leaves the calls and the phase alone. -/
theorem rests_of_act (ha : s.act? a = some s') (hsubject : a.subject = none)
    (hcall : ∀ id timeout faulty, a ≠ .call id timeout faulty) :
    s'.phase = s.phase ∧ s'.runs = s.runs := by
  cases a with
  | run | work | cancel | drop => nomatch hsubject
  | call id timeout faulty => exact absurd rfl (hcall id timeout faulty)
  | tick i n =>
    have hs : s.tick? i n = some s' := ha
    unfold tick? at hs
    obtain ⟨p, -, hs⟩ := Option.bind_eq_some_iff.mp hs
    obtain ⟨⟨spills, p'⟩, -, hs⟩ := Option.bind_eq_some_iff.mp hs
    obtain rfl := Option.some.inj hs
    exact ⟨phase_deliver _ _, runs_deliver _ _⟩
  | notice i n =>
    have hs : s.notice? i n = some s' := ha
    unfold notice? at hs
    obtain ⟨p, -, hs⟩ := Option.bind_eq_some_iff.mp hs
    obtain ⟨⟨spills, p'⟩, -, hs⟩ := Option.bind_eq_some_iff.mp hs
    obtain rfl := Option.some.inj hs
    exact ⟨phase_deliver _ _, runs_deliver _ _⟩
  | wait ms =>
    obtain rfl := Option.some.inj ha
    exact ⟨rfl, rfl⟩
  | boot i =>
    obtain rfl := Option.some.inj ha
    unfold bootProducer
    split <;> exact ⟨rfl, rfl⟩
  | write i settings =>
    obtain rfl := Option.some.inj ha
    unfold writeProducer
    split <;> exact ⟨rfl, rfl⟩
  | start i =>
    obtain rfl := Option.some.inj ha
    exact rests_startProducer s.openQueue.2 i s.openQueue.1
  | ask i =>
    obtain rfl := Option.some.inj ha
    exact rests_askProducer s i
  | await i stopping => exact rests_awaitProducer ha
  | shutdown i =>
    obtain rfl := Option.some.inj ha
    unfold shutdownProducer
    split
    · exact ⟨rfl, rfl⟩
    · exact ⟨phase_deliver _ _, runs_deliver _ _⟩

/-- Every action lets one call pass at most. -/
theorem shifts_of_act (ha : s.act? a = some s') : s.Shifts a s' := by
  cases a with
  | run r =>
    obtain ⟨run, hrun, hs⟩ := steps_of_step? ha
    exact shifts_step hrun hs
  | work r =>
    obtain ⟨hphase, hstages⟩ := stages_work ha
    exact .rests hphase hstages
  | call id timeout faulty =>
    obtain rfl := Option.some.inj ha
    exact .calls rfl List.map_append ⟨id, timeout, faulty, rfl⟩
  | cancel r =>
    obtain rfl := Option.some.inj ha
    exact .rests rfl (stages_cancel s r)
  | drop r =>
    obtain rfl := Option.some.inj ha
    exact shifts_drop s r
  | tick | notice | wait | boot | write | start | ask | await | shutdown =>
    obtain ⟨hphase, hruns⟩ := rests_of_act ha rfl fun _ _ _ => nofun
    exact .rests hphase (stages_of_runs_eq hruns)

/-! ## One call at most -/

theorem isIn_of_isActive (h : stage.isActive = true) : stage.isIn = true :=
  (Bool.and_eq_true_iff.mp h).1

theorem exclusive_nil : Exclusive .idle [] := by
  refine ⟨fun j _ _ _ hx => ?_, iff_of_false (fun hne => hne rfl) ?_⟩
  · rw [List.getElem?_nil] at hx
    nomatch hx
  · rintro ⟨_, hmem, -⟩
    nomatch hmem

theorem othersOut_of_none (h : ∀ stage ∈ stages, stage.isIn = false) : OthersOut r stages :=
  fun _ x _ hx => h x (List.mem_of_getElem? hx)

/-- The calls other than one that is in are not in. -/
theorem Exclusive.others (h : Exclusive phase stages) (hst : stages[r]? = some stage)
    (hin : stage.isIn = true) : OthersOut r stages :=
  fun j x hj hx => Bool.eq_false_iff.mpr fun hin' => hj (h.one j r x stage hx hst hin' hin)

/-- Where the other calls are not in, it is one call that counts. -/
theorem exclusive_set (hr : r < stages.length) (hothers : OthersOut r stages)
    (hphase : phase' ≠ .idle ↔ stage'.isActive = true) :
    Exclusive phase' (stages.set r stage') := by
  have hmine : ∀ (j : Nat) (x : Run.Stage), (stages.set r stage')[j]? = some x →
      x.isIn = true → j = r := by
    intro j x hx hin
    refine Classical.byContradiction fun hj => ?_
    rw [List.getElem?_set_ne (Ne.symm hj)] at hx
    exact absurd hin (Bool.eq_false_iff.mp (hothers j x hj hx))
  refine ⟨fun j j' x y hx hy hin hin' => (hmine j x hx hin).trans (hmine j' y hy hin').symm, ?_⟩
  have hnew : (stages.set r stage')[r]? = some stage' := List.getElem?_set_self hr
  rw [hphase]
  refine ⟨fun hactive => ⟨stage', List.mem_of_getElem? hnew, hactive⟩, ?_⟩
  rintro ⟨x, hx, hactive⟩
  obtain ⟨j, hj⟩ := List.mem_iff_getElem?.mp hx
  obtain rfl := hmine j x hj (isIn_of_isActive hactive)
  rw [hnew] at hj
  exact Option.some.inj hj ▸ hactive

/-- A call that is not in counts for nothing. -/
theorem Exclusive.set_out (h : Exclusive phase stages) (hst : stages[r]? = some stage)
    (hout : stage.isIn = false) (hout' : stage'.isIn = false) :
    Exclusive phase (stages.set r stage') := by
  have hr := (List.getElem?_eq_some_iff.mp hst).1
  have hsame : ∀ (j : Nat) (x : Run.Stage), x.isIn = true →
      ((stages.set r stage')[j]? = some x ↔ stages[j]? = some x) := by
    intro j x hin
    by_cases hj : r = j
    · subst hj
      rw [List.getElem?_set_self hr, hst]
      constructor
      · rintro hx
        rw [Option.some.inj hx, hin] at hout'
        nomatch hout'
      · rintro hx
        rw [Option.some.inj hx, hin] at hout
        nomatch hout
    · rw [List.getElem?_set_ne hj]
  refine ⟨fun j j' x y hx hy hin hin' => ?_, ?_⟩
  · exact h.one j j' x y ((hsame j x hin).mp hx) ((hsame j' y hin').mp hy) hin hin'
  · rw [h.active]
    simp only [List.mem_iff_getElem?]
    constructor
    · rintro ⟨x, ⟨j, hj⟩, hactive⟩
      exact ⟨x, ⟨j, (hsame j x (isIn_of_isActive hactive)).mpr hj⟩, hactive⟩
    · rintro ⟨x, ⟨j, hj⟩, hactive⟩
      exact ⟨x, ⟨j, (hsame j x (isIn_of_isActive hactive)).mp hj⟩, hactive⟩

/-- In an idle session where no call is releasing, none is in. -/
theorem Exclusive.none_in (h : Exclusive .idle stages)
    (hgap : ∀ stage ∈ stages, stage.isReleasing = false) :
    ∀ stage ∈ stages, stage.isIn = false := by
  intro stage hst
  refine Bool.eq_false_iff.mpr fun hin => h.active.mpr ⟨stage, hst, ?_⟩ rfl
  rw [Run.Stage.isActive, hin, hgap stage hst]
  rfl

theorem Exclusive.passes (h : Exclusive phase stages) (hst : stages[r]? = some stage)
    (hp : Passes phase stage phase' stage')
    (hgap : stage' = .opening → stage = .called → phase = .idle →
      ∀ stage ∈ stages, stage.isReleasing = false) :
    Exclusive phase' (stages.set r stage') := by
  have hr := (List.getElem?_eq_some_iff.mp hst).1
  cases hp with
  | letIn =>
    have hnone := h.none_in (hgap rfl rfl rfl)
    exact exclusive_set hr (othersOut_of_none hnone) (iff_of_true nofun rfl)
  | refuse | giveUp => exact h.set_out hst rfl rfl
  | goOn hactive hactive' hphase =>
    refine exclusive_set hr (h.others hst (isIn_of_isActive hactive)) (iff_of_true ?_ hactive')
    rcases hphase with rfl | hne
    · exact h.active.mpr ⟨stage, List.mem_of_getElem? hst, hactive⟩
    · exact hne
  | settle hactive =>
    refine exclusive_set hr (h.others hst (isIn_of_isActive hactive)) ?_
    exact iff_of_false (fun hne => hne rfl) nofun
  | leave hin hout =>
    refine exclusive_set hr (h.others hst hin) (iff_of_false (fun hne => hne rfl) ?_)
    exact fun hactive => Bool.eq_false_iff.mp hout (isIn_of_isActive hactive)

theorem Exclusive.act (h : Exclusive s.phase s.stages) (ha : s.act? a = some s')
    (hgap : s.letsIn a = true → ∀ stage ∈ s.stages, stage.isReleasing = false) :
    Exclusive s'.phase s'.stages := by
  cases shifts_of_act ha with
  | rests hphase hstages =>
    rw [hphase, hstages]
    exact h
  | calls hphase hstages =>
    rw [hphase, hstages]
    refine ⟨fun j j' x y hx hy hin hin' => ?_, ?_⟩
    · have hold : ∀ (j : Nat) (x : Run.Stage), (s.stages ++ [.called])[j]? = some x →
          x.isIn = true → s.stages[j]? = some x := by
        intro j x hx hin
        rw [List.getElem?_append] at hx
        split at hx
        · exact hx
        · obtain rfl := List.mem_singleton.mp (List.mem_of_getElem? hx)
          nomatch hin
      exact h.one j j' x y (hold j x hx hin) (hold j' y hy hin') hin hin'
    · rw [h.active]
      simp [Run.Stage.isActive, Run.Stage.isIn, or_and_right, exists_or]
  | passes hact hst hstages hpasses =>
    rw [hstages]
    refine h.passes hst hpasses fun hopening hcalled hidle => hgap ?_
    rcases hact with rfl | ⟨-, hdropped⟩
    · rw [hcalled] at hst
      unfold letsIn
      dsimp only
      rw [hst]
      exact decide_eq_true hidle
    · rw [hopening] at hdropped
      nomatch hdropped

theorem Exclusive.after {acts : List Act} (h : Exclusive s.phase s.stages)
    (ha : s.after? acts = some s') (hgap : s.Unhurried acts) : Exclusive s'.phase s'.stages := by
  induction acts generalizing s with
  | nil =>
    obtain rfl := Option.some.inj ha
    exact h
  | cons a rest ih =>
    obtain ⟨s₁, hs₁, ha⟩ := Option.bind_eq_some_iff.mp ha
    exact ih (h.act hs₁ hgap.1) ha (hgap.2 s₁ hs₁)

/-- A call that is refused because the session is busy leaves the phase as it is. -/
theorem phase_of_refusal (ha : s.act? a = some s') (hst : s.stages[r]? = some stage)
    (hnew : stage ≠ .returned (.error .sessionBusy))
    (hst' : s'.stages[r]? = some (.returned (.error .sessionBusy))) :
    s'.phase = s.phase ∧ s.phase ≠ .idle := by
  cases shifts_of_act ha with
  | rests hphase hstages =>
    rw [hstages, hst] at hst'
    exact absurd (Option.some.inj hst') hnew
  | calls hphase hstages =>
    rw [hstages, List.getElem?_append_left (List.getElem?_eq_some_iff.mp hst).1, hst] at hst'
    exact absurd (Option.some.inj hst') hnew
  | @passes r' x y hact hx hstages hpasses =>
    rw [hstages] at hst'
    by_cases hr : r' = r
    · subst hr
      rw [List.getElem?_set_self (List.getElem?_eq_some_iff.mp hx).1] at hst'
      obtain rfl := Option.some.inj hst'
      generalize s.phase = phase, s'.phase = phase' at hpasses ⊢
      cases hpasses with
      | refuse hbusy => exact ⟨rfl, hbusy⟩
      | goOn _ hactive => nomatch hactive
      | leave _ _ hresult => exact absurd rfl hresult
    · rw [List.getElem?_set_ne hr, hst] at hst'
      exact absurd (Option.some.inj hst') hnew

/-- Of any number of calls at most one is in, the session is idle exactly if no call is between its
admission and its last transition, and a call that is refused leaves the phase as it is. The calls
may interleave in any way but one: none is let in between the last transition of another and its
return. -/
theorem one_call_in {timing : Timing} {detectors : List Detector} {producers : List Producer}
    {clock : Nat → Instant} {entropy : Nat → Random.Source} {acts : List Act} {t : Session}
    (hacts : (new timing detectors producers clock entropy).after? acts = some t)
    (hgap : (new timing detectors producers clock entropy).Unhurried acts) :
    (∀ (r r' : Nat) (x y : Run.Stage), t.stages[r]? = some x → t.stages[r']? = some y →
      x.isIn = true → y.isIn = true → r = r') ∧
    (t.phase = .idle ↔ ∀ stage ∈ t.stages, stage.isActive = false) ∧
    ∀ (a : Act) (t' : Session) (r : Nat) (stage : Run.Stage), t.act? a = some t' →
      t.stages[r]? = some stage → stage ≠ .returned (.error .sessionBusy) →
      t'.stages[r]? = some (.returned (.error .sessionBusy)) → t'.phase = t.phase := by
  have h : Exclusive t.phase t.stages := exclusive_nil.after hacts hgap
  refine ⟨h.one, ?_, fun a t' r stage ha hst hnew hst' => (phase_of_refusal ha hst hnew hst').1⟩
  rw [← Decidable.not_iff_not, ← ne_eq, h.active]
  simp

end

/-- Of two calls the second is refused. -/
theorem one_call_in_refused :
    let left := Producer.replay "left" [.events "recorded" [⟨0, 10, 7, .empty⟩]] 5
    let s := new ⟨10, 10⟩ [] [left] (fun _ => default) fun _ => default
    let acts : List Act := [.boot 0, .call default none false, .call default none false, .run 0]
    s.Unhurried acts ∧ ∃ t t', s.after? acts = some t ∧ t.act? (.run 1) = some t' ∧
      t'.stages[1]? = some (.returned (.error .sessionBusy)) ∧ t'.phase = t.phase ∧
      t.phase ≠ .idle := by
  intro left s acts
  have hgap : s.Unhurried acts := by decide +revert
  obtain ⟨t, hacts⟩ : ∃ t, s.after? acts = some t := ⟨_, rfl⟩
  obtain ⟨-, hidle, hrefused⟩ := one_call_in hacts hgap
  obtain rfl := Option.some.inj hacts
  refine ⟨hgap, _, _, hacts, rfl, rfl, hrefused (.run 1) _ 1 .called rfl rfl nofun rfl, ?_⟩
  rw [ne_eq, hidle]
  exact fun hnone => nomatch hnone .opening (List.mem_cons_self ..)

/-- What does not hold of three calls in any order. The first makes the session idle, the second is
let in, the first returns and resets the phase, so that the session is idle with a call in, and the
third is let in beside the second. -/
theorem gap_lets_two_in :
    let left := Producer.replay "left" [.events "recorded" [⟨0, 10, 7, .empty⟩]] 5
    let s := new ⟨10, 10⟩ [] [left] (fun _ => default) fun _ => default
    let call : Act := .call default none false
    let acts : List Act :=
      [.boot 0, call, call, call, .run 0, .run 0, .run 0, .run 0, .tick 0 0, .work 0,
        .cancel 0, .run 0, .run 0, .run 0, .work 0, .notice 0 0, .run 0, .run 0, .run 0, .wait 10,
        .run 0, .work 0, .work 0, .run 0, .run 0, .work 0, .run 0, .run 0, .run 1, .run 0]
    (s.after? acts).map (fun t => (t.phase, t.stages.map (·.isActive))) =
      some (.idle, [false, true, false]) ∧
    (s.after? (acts ++ [.run 2])).map (·.stages.map (·.isIn)) = some [false, true, true] := by
  decide +kernel

end Session

end ListMode
