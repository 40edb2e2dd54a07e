import ListMode.Proofs.Session.Time

/-!
# When and why a run stops

A call that runs the session waits for one of three things: that it is cancelled, that its time is
up, or that at a poll tick every producer it has started says it has finished. Poll ticks come at
the positive multiples of the poll interval, counted from the moment at which the run was running.
A call whose time would be up past the last moment of the clock does not wait at all: it crashes.

All of this is about a call that goes on as soon as it can (`prompt`): time does not pass while the
call could act, and never beyond the moment at which it goes on by itself. What else happens in the
session meanwhile is left open. Then the run stops at the earliest of the three moments, and where
two coincide being cancelled comes first and being out of time second.
-/

namespace ListMode

/-- Why a call at this stage has left the wait for the end of its run, and after how many
milliseconds. -/
def Run.Stage.left? : Run.Stage → Option (StopReason × Nat)
  | .asking e .. | .awaiting e _ | .draining e _ | .emptied e | .finishing e | .sealing e _ =>
    some (e.reason, e.stoppedAt - e.begun)
  | .releasing outcome | .returned (.ok outcome) => some (outcome.reason, outcome.timeToStop)
  | _ => none

/-- What a look that ends the wait has seen. -/
theorem Watch.of_look_error {w : Watch} {time : Nat} {cancelled alive : Bool} {reason : StopReason}
    (h : w.look time cancelled alive = .error reason) :
    cancelled = true ∧ reason = .cancelled ∨
      cancelled = false ∧ w.deadline.any (· ≤ time) = true ∧ reason = .timeout ∨
      cancelled = false ∧ w.deadline.any (· ≤ time) = false ∧ w.nextTick ≤ time ∧ alive = false ∧
        reason = .finished := by
  unfold look at h
  cases cancelled with
  | true => exact .inl ⟨rfl, (Except.error.inj h).symm⟩
  | false =>
    rw [if_neg Bool.false_ne_true] at h
    split at h
    · rename_i hdeadline
      exact .inr (.inl ⟨rfl, hdeadline, (Except.error.inj h).symm⟩)
    · rename_i hdeadline
      split at h
      · rename_i htick
        cases alive with
        | true => nomatch h
        | false =>
          exact .inr (.inr ⟨rfl, Bool.eq_false_iff.mpr hdeadline, htick, rfl,
            (Except.error.inj h).symm⟩)
      · nomatch h

/-- What a look that changes the wait has seen: a poll tick, and a producer that is alive. -/
theorem Watch.of_look_ok {w w' : Watch} {time : Nat} {cancelled alive : Bool}
    (h : w.look time cancelled alive = .ok w') (hne : w' ≠ w) :
    cancelled = false ∧ w.nextTick ≤ time ∧ alive = true ∧
      w' = { w with nextTick := time + w.poll } := by
  unfold look at h
  cases cancelled with
  | true => nomatch h
  | false =>
    rw [if_neg Bool.false_ne_true] at h
    split at h
    · nomatch h
    · split at h
      · rename_i htick
        cases alive with
        | true => exact ⟨rfl, htick, rfl, (Except.ok.inj h).symm⟩
        | false => nomatch h
      · exact absurd (Except.ok.inj h).symm hne

/-- What ends the wait at one look. -/
theorem Watch.look_error {w : Watch} {time : Nat} {cancelled alive : Bool}
    (h : cancelled = true ∨ w.deadline.any (· ≤ time) = true ∨ w.nextTick ≤ time ∧ alive = false) :
    ∃ reason, w.look time cancelled alive = .error reason := by
  unfold look
  split
  · exact ⟨_, rfl⟩
  · rename_i hc
    split
    · exact ⟨_, rfl⟩
    · rename_i hd
      obtain ⟨htick, rfl⟩ := (h.resolve_left hc).resolve_left hd
      exact ⟨.finished, by rw [if_pos htick]; rfl⟩

theorem Watch.wake_le (w : Watch) : w.wake ≤ w.nextTick ∧ ∀ d, w.deadline = some d → w.wake ≤ d := by
  unfold wake
  cases w.deadline with
  | none => exact ⟨Nat.le_refl _, nofun⟩
  | some d =>
    refine ⟨Nat.min_le_right _ _, fun d' hd => ?_⟩
    obtain rfl := Option.some.inj hd
    exact Nat.min_le_left _ _

namespace Session

def Act.isRun (r : Nat) : Act → Bool
  | .run r' => r' == r
  | _ => false

/-- Call `r` waits for the end of its run. -/
def isWaiting (s : Session) (r : Nat) : Bool :=
  match s.stages[r]? with
  | some (.running ..) => true
  | _ => false

/-- Why call `r` has left the wait for the end of its run, and after how many milliseconds. -/
def left? (s : Session) (r : Nat) : Option (StopReason × Nat) := s.stages[r]?.bind (·.left?)

def isCancelled (s : Session) (r : Nat) : Bool := (s.runs[r]?).any (·.cancelled)

/-- By this action, a step of its own, call `r` leaves the wait for the end of its run. -/
def leavesBy (s : Session) (r : Nat) (a : Act) : Prop :=
  a.isRun r = true ∧ s.isWaiting r = true ∧ ∃ t, s.act? a = some t ∧ t.isWaiting r = false

/-- Some producer of those at these places says that it is running. -/
def anyAlive (s : Session) (places : List Nat) : Bool :=
  (s.producersAt places).any (·.isRunning)

/-- Time passes only while call `r`, if it waits for the end of its run, cannot go on, and not beyond
the moment at which it goes on by itself. -/
def prompt (r : Nat) (m : Session × Act) : Bool :=
  match m.2, m.1.stages[r]? with
  | .wait ms, some (.running _ w) => (m.1.step? r).isNone && decide (m.1.time + ms ≤ w.wake)
  | _, _ => true

/-- At this moment call `r`, which has been waiting since `begun`, handles a poll tick: it goes on
after a whole number of poll intervals. -/
def handlesTick (r begun poll : Nat) (m : Session × Act) : Bool :=
  m.2.isRun r && m.1.isWaiting r && decide (begun < m.1.time) && (m.1.time - begun) % poll == 0

/-- The first time, counted from `begun`, at which call `r` is cancelled. -/
def cancelTime? (r begun : Nat) (passed : List Session) : Option Nat :=
  (passed.find? (·.isCancelled r)).map (·.time - begun)

/-- The first poll tick, counted from `begun`, that is handled when no producer at `places` is alive
any more. -/
def idleTick? (r begun poll : Nat) (places : List Nat) (past : List (Session × Act)) :
    Option Nat :=
  (past.find? fun m => handlesTick r begun poll m && !m.1.anyAlive places).map (·.1.time - begun)

/-- The moments that can end the wait of call `r`, as far as they are known in session `t`. -/
def bounds (r begun poll : Nat) (timeout : Option Nat) (places : List Nat)
    (past : List (Session × Act)) (t : Session) : List Nat :=
  (cancelTime? r begun (past.map (·.1) ++ [t])).toList ++ timeout.toList ++
    (idleTick? r begun poll places past).toList

/-- Every poll tick before `time` was handled when some producer at `places` was alive. -/
def BusyUntil (r begun poll : Nat) (places : List Nat) (past : List (Session × Act)) (time : Nat) :
    Prop :=
  ∀ j, 0 < j → begun + j * poll < time → ∃ m ∈ past, handlesTick r begun poll m = true ∧
    m.1.time = begun + j * poll ∧ m.1.anyAlive places = true

/-- The call still waits, and the next poll tick is the one numbered `k`. -/
structure Waits (r begun poll : Nat) (timeout : Option Nat) (places : List Nat)
    (past : List (Session × Act)) (x : Session) (run : Run) (k : Nat) : Prop where
  stage_eq : ∃ l : Launched, l.started = places ∧ l.begun = begun ∧
    run.stage = .running l ⟨timeout.map (begun + ·), poll, begun + k * poll⟩
  /-- The clock can tell when the time is up. -/
  clear : ∀ T, timeout = some T → begun + T ≤ Watch.lastMoment
  pos : 0 < k
  lower : begun + k * poll ≤ x.time + poll
  upper : x.time ≤ begun + k * poll
  deadline : ∀ T, timeout = some T → x.time ≤ begun + T
  /-- No time has passed since it was cancelled. -/
  cancelled : ∀ m ∈ past, m.1.isCancelled r = true → run.cancelled = true ∧ m.1.time = x.time
  busy : ∀ m ∈ past, handlesTick r begun poll m = true → m.1.anyAlive places = true
  handled : ∀ m ∈ past, m.2.isRun r = true → m.1.time < begun + k * poll
  ticks : ∀ j, 0 < j → j < k → ∃ m ∈ past, handlesTick r begun poll m = true ∧
    m.1.time = begun + j * poll

/-- The call has left the wait after `ms` milliseconds. -/
structure Leaves (r begun poll : Nat) (timeout : Option Nat) (places : List Nat)
    (past : List (Session × Act)) (x : Session) (reason : StopReason) (ms : Nat) : Prop where
  le_time : begun + ms ≤ x.time
  least : ∀ b ∈ bounds r begun poll timeout places past x, ms ≤ b
  mem : ms ∈ bounds r begun poll timeout places past x
  moment : ∃ m ∈ past, m.1.leavesBy r m.2 ∧ m.1.time = begun + ms ∧
    (reason = if m.1.isCancelled r then .cancelled
      else if timeout = some ms then .timeout else .finished) ∧
    (reason = .finished → m.1.anyAlive places = false)
  busy : BusyUntil r begun poll places past (begun + ms)

section

variable {s s' t x y : Session} {a : Act} {r begun poll k ms : Nat} {run run' : Run}
  {timeout : Option Nat} {places : List Nat} {past : List (Session × Act)} {reason : StopReason}

/-! ## Moments that can end the wait -/

theorem mem_bounds {b : Nat} : b ∈ bounds r begun poll timeout places past t ↔
    cancelTime? r begun (past.map (·.1) ++ [t]) = some b ∨ timeout = some b ∨
      idleTick? r begun poll places past = some b := by
  simp [bounds]

theorem isCancelled_eq (hrun : x.runs[r]? = some run) : x.isCancelled r = run.cancelled := by
  unfold isCancelled
  rw [hrun]
  rfl

theorem left?_of_isWaiting (h : x.isWaiting r = true) : x.left? r = none := by
  unfold isWaiting at h
  unfold left?
  split at h
  · rename_i hst
    rw [hst]
    rfl
  · nomatch h

theorem left?_eq (hrun : x.runs[r]? = some run) : x.left? r = run.stage.left? := by
  unfold left?
  rw [stages_getElem? hrun]
  rfl

/-- Sessions that follow do not change when it was cancelled first. -/
theorem cancelTime?_append (passed : List Session) (y : Session) :
    cancelTime? r begun (passed ++ [y]) = (cancelTime? r begun passed).or
      (if y.isCancelled r then some (y.time - begun) else none) := by
  unfold cancelTime?
  rw [List.find?_append, Option.map_or, List.find?_singleton]
  congr 1
  split <;> rfl

theorem idleTick?_append (past : List (Session × Act)) (m : Session × Act) :
    idleTick? r begun poll places (past ++ [m]) = (idleTick? r begun poll places past).or
      (if handlesTick r begun poll m && !m.1.anyAlive places then some (m.1.time - begun)
        else none) := by
  unfold idleTick?
  rw [List.find?_append, Option.map_or, List.find?_singleton]
  congr 1
  split <;> rfl

theorem isWaiting_of_running (hrun : x.runs[r]? = some run) {l : Launched} {w : Watch}
    (hst : run.stage = .running l w) : x.isWaiting r = true := by
  unfold isWaiting
  rw [stages_getElem? hrun, hst]

theorem isWaiting_eq_false (hrun : x.runs[r]? = some run)
    (hst : ∀ l w, run.stage ≠ .running l w) : x.isWaiting r = false := by
  unfold isWaiting
  rw [stages_getElem? hrun]
  split
  · rename_i h
    exact absurd (Option.some.inj h) (hst _ _)
  · rfl

theorem handlesTick_at (ha : a.isRun r = true) (hw : x.isWaiting r = true) {j : Nat}
    (hj : 0 < j) (hpoll : 0 < poll) (htime : x.time = begun + j * poll) :
    handlesTick r begun poll (x, a) = true := by
  have hpos : 0 < j * poll := Nat.mul_pos hj hpoll
  unfold handlesTick
  rw [ha, hw, htime]
  simp [hpos]

theorem isWaiting_of_handlesTick {m : Session × Act} (h : handlesTick r begun poll m = true) :
    m.1.isWaiting r = true := by
  unfold handlesTick at h
  simp only [Bool.and_eq_true] at h
  exact h.1.1.2

theorem isRun_of_handlesTick {m : Session × Act} (h : handlesTick r begun poll m = true) :
    m.2.isRun r = true := by
  unfold handlesTick at h
  simp only [Bool.and_eq_true] at h
  exact h.1.1.1

theorem time_of_handlesTick {m : Session × Act} (h : handlesTick r begun poll m = true) :
    ∃ j, 0 < j ∧ m.1.time = begun + j * poll := by
  unfold handlesTick at h
  simp only [Bool.and_eq_true, decide_eq_true_eq, beq_iff_eq] at h
  obtain ⟨⟨-, hlt⟩, hmod⟩ := h
  obtain ⟨j, hj⟩ := Nat.dvd_of_mod_eq_zero hmod
  refine ⟨j, Nat.pos_of_ne_zero fun hzero => ?_, ?_⟩
  · rw [hzero, Nat.mul_zero] at hj
    omega
  · rw [Nat.mul_comm]
    omega

/-! ## After the wait -/

/-- Once the wait is over, nothing that happens changes when and why it ended. -/
theorem Leaves.append (h : Leaves r begun poll timeout places past x reason ms)
    (hx : x.isWaiting r = false) (hle : x.time ≤ y.time) :
    Leaves r begun poll timeout places (past ++ [(x, a)]) y reason ms := by
  have hidle : idleTick? r begun poll places (past ++ [(x, a)]) =
      idleTick? r begun poll places past := by
    rw [idleTick?_append, handlesTick, hx]
    simp
  have hcancel : cancelTime? r begun ((past ++ [(x, a)]).map (·.1) ++ [y]) =
      (cancelTime? r begun (past.map (·.1) ++ [x])).or
        (if y.isCancelled r then some (y.time - begun) else none) := by
    rw [List.map_append, ← cancelTime?_append]
    rfl
  obtain ⟨m, hm, hmoment⟩ := h.moment
  refine ⟨Nat.le_trans h.le_time hle, fun b hb => ?_, ?_,
    ⟨m, List.mem_append_left _ hm, hmoment⟩, fun j hj hlt => ?_⟩
  · rw [mem_bounds, hidle, hcancel] at hb
    rcases hb with hb | hb | hb
    · rcases Option.or_eq_some_iff.mp hb with hb | ⟨-, hb⟩
      · exact h.least b (mem_bounds.mpr (.inl hb))
      · split at hb
        · have hle' := h.le_time
          obtain rfl := Option.some.inj hb
          omega
        · nomatch hb
    · exact h.least b (mem_bounds.mpr (.inr (.inl hb)))
    · exact h.least b (mem_bounds.mpr (.inr (.inr hb)))
  · rw [mem_bounds, hidle, hcancel]
    rcases mem_bounds.mp h.mem with hb | hb | hb
    · exact .inl (by rw [hb]; rfl)
    · exact .inr (.inl hb)
    · exact .inr (.inr hb)
  · obtain ⟨m, hm, htick⟩ := h.busy j hj hlt
    exact ⟨m, List.mem_append_left _ hm, htick⟩

/-- A call that has left the wait keeps its reason and its time, unless its worker was lost. -/
theorem left_of_steps {v : StopReason × Nat} (hrun : x.runs[r]? = some run)
    (hleft : run.stage.left? = some v) (hs : x.Steps r run y) :
    ∃ run', y.runs[r]? = some run' ∧
      (run'.stage.left? = some v ∨ ∃ what, run'.stage = .returned (.error (.taskLost what))) := by
  have hstage : ∀ {t : Session} {stage : Run.Stage}, t.runs = x.runs →
      (stage.left? = some v ∨ ∃ what, stage = .returned (.error (.taskLost what))) → ∃ run',
        (t.setStage r stage).runs[r]? = some run' ∧
          (run'.stage.left? = some v ∨
            ∃ what, run'.stage = .returned (.error (.taskLost what))) :=
    fun ht h => ⟨_, (runs_setStage (ht ▸ hrun) _ r).trans (if_pos rfl), h⟩
  cases hs with
  | turn hturn =>
    cases hturn with
    | letIn hst | refuse hst | crash hst | leave hst | watch hst =>
      rw [hst] at hleft
      nomatch hleft
    | allAsked hst | sleep hst | wake hst | drained hst | collect hst | release hst =>
      rw [hst] at hleft
      exact hstage rfl (.inl hleft)
    | lose hst => exact hstage rfl (.inr ⟨_, rfl⟩)
  | openRun hst | start hst | launchRun hst =>
    rw [hst] at hleft
    nomatch hleft
  | @ask e i todo stops hst =>
    rw [hst] at hleft
    exact hstage (rests_askProducer x i).2 (.inl hleft)
  | await hst hawait =>
    rw [hst] at hleft
    exact hstage (rests_awaitProducer hawait).2 (.inl hleft)
  | closeRun hst | stopQueue hst =>
    rw [hst] at hleft
    exact hstage rfl (.inl hleft)
  | sealRun hst =>
    rw [hst] at hleft
    exact ⟨_, (runs_setRun (s := { x with phase := .idle }) hrun _ r).trans (if_pos rfl),
      .inl hleft⟩

/-! ## During the wait -/

theorem step?_running {l : Launched} {w : Watch} (hrun : x.runs[r]? = some run)
    (hst : run.stage = .running l w) : x.step? r = x.watch? r run l w := by
  simp only [step?, hrun, hst, Option.bind_eq_bind, Option.bind_some]

theorem Waits.begun_le (h : Waits r begun poll timeout places past x run k) :
    begun ≤ x.time := by
  have hlower := h.lower
  have hmul := Nat.mul_le_mul_right poll h.pos
  omega

theorem Waits.crashes_eq_false (h : Waits r begun poll timeout places past x run k)
    (hpoll : 0 < poll) (cancelled : Bool) :
    Watch.crashes ⟨timeout.map (begun + ·), poll, begun + k * poll⟩ cancelled = false := by
  have hticks : (poll == 0) = false := beq_eq_false_iff_ne.mpr (Nat.ne_of_gt hpoll)
  have hdeadline : (timeout.map (begun + ·)).any (Watch.lastMoment < ·) = false := by
    cases htimeout : timeout with
    | none => rfl
    | some T =>
      have hT := h.clear T htimeout
      simp only [Option.map_some, Option.any_some, decide_eq_false_iff_not]
      omega
  unfold Watch.crashes
  rw [hticks, hdeadline, Bool.and_false, Bool.or_false]

theorem Waits.any_deadline_iff (h : Waits r begun poll timeout places past x run k) :
    (timeout.map (begun + ·)).any (· ≤ x.time) = true ↔ timeout = some (x.time - begun) := by
  have hbegun := h.begun_le
  cases htimeout : timeout with
  | none => simp
  | some T =>
    have hT := h.deadline T htimeout
    simp only [Option.map_some, Option.any_some, decide_eq_true_eq, Option.some.injEq]
    omega

theorem Waits.busyUntil (h : Waits r begun poll timeout places past x run k) :
    BusyUntil r begun poll places past x.time := by
  intro j hj hlt
  have hupper := h.upper
  have hjk : j < k := by
    by_contra hge
    have hmul := Nat.mul_le_mul_right poll (Nat.le_of_not_lt hge)
    omega
  obtain ⟨m, hm, hhandles, htime⟩ := h.ticks j hj hjk
  exact ⟨m, hm, hhandles, htime, h.busy m hm hhandles⟩

/-- A poll tick that has not been handled is the next one. -/
theorem Waits.tick_due (h : Waits r begun poll timeout places past x run k)
    (htick : handlesTick r begun poll (x, .run r) = true)
    (hnew : ∀ m ∈ past, handlesTick r begun poll m = true → m.1.time < x.time) :
    begun + k * poll ≤ x.time := by
  obtain ⟨j, hj, hnow⟩ := time_of_handlesTick htick
  have hnow : x.time = begun + j * poll := hnow
  by_cases hjk : j < k
  · obtain ⟨m, hm, hhandles, htime⟩ := h.ticks j hj hjk
    have hlt := hnew m hm hhandles
    omega
  · have hmul := Nat.mul_le_mul_right poll (Nat.le_of_not_lt hjk)
    omega

/-- What is known of a cancellation while the call waits. -/
theorem Waits.cancelTime?_eq (h : Waits r begun poll timeout places past x run k)
    (hrun : x.runs[r]? = some run) : cancelTime? r begun (past.map (·.1) ++ [x]) =
      if run.cancelled then some (x.time - begun) else none := by
  have hx := isCancelled_eq hrun
  cases hcancelled : run.cancelled with
  | false =>
    have hnone : cancelTime? r begun (past.map (·.1)) = none := by
      unfold cancelTime?
      rw [Option.map_eq_none_iff, List.find?_eq_none]
      intro x' hx' hmc
      obtain ⟨m, hm, rfl⟩ := List.mem_map.mp hx'
      exact Bool.false_ne_true (hcancelled.symm.trans (h.cancelled m hm hmc).1)
    rw [cancelTime?_append, hnone, hx, hcancelled]
    rfl
  | true =>
    rw [cancelTime?_append, hx, hcancelled]
    cases hfound : cancelTime? r begun (past.map (·.1)) with
    | none => rfl
    | some c =>
      obtain ⟨m, hm, rfl⟩ := Option.map_eq_some_iff.mp hfound
      obtain ⟨m', hm', rfl⟩ := List.mem_map.mp (List.mem_of_find?_eq_some hm)
      have hmc : m'.1.isCancelled r = true :=
        List.find?_some (p := fun x : Session => x.isCancelled r) hm
      rw [(h.cancelled m' hm' hmc).2]
      rfl

theorem Waits.idleTick?_eq (h : Waits r begun poll timeout places past x run k) :
    idleTick? r begun poll places past = none := by
  unfold idleTick?
  rw [Option.map_eq_none_iff, List.find?_eq_none]
  intro m hm hidle
  obtain ⟨hhandles, hnone⟩ := Bool.and_eq_true_iff.mp hidle
  rw [h.busy m hm hhandles] at hnone
  nomatch hnone

/-- Time passes only as far as the call lets it. -/
theorem Waits.passing (h : Waits r begun poll timeout places past x run k) (hpoll : 0 < poll)
    (hrun : x.runs[r]? = some run) (htime : y.time = x.time + a.passing)
    (hprompt : prompt r (x, a) = true) :
    y.time ≤ begun + k * poll ∧ (∀ T, timeout = some T → y.time ≤ begun + T) ∧
      (run.cancelled = true → y.time = x.time) := by
  obtain ⟨l, -, -, hst⟩ := h.stage_eq
  cases a with
  | wait ms =>
    unfold prompt at hprompt
    simp only [stages_getElem? hrun, hst, Bool.and_eq_true, Option.isNone_iff_eq_none,
      decide_eq_true_eq] at hprompt
    obtain ⟨hstuck, hwake⟩ := hprompt
    have hy : y.time = x.time + ms := htime
    rw [← hy] at hwake
    refine ⟨Nat.le_trans hwake (Watch.wake_le _).1,
      fun T hT => Nat.le_trans hwake ((Watch.wake_le _).2 _ (by rw [hT]; rfl)),
      fun hcancelled => ?_⟩
    -- a call that is cancelled can go on
    rw [step?_running hrun hst, watch?,
      if_neg (Bool.eq_false_iff.mp (h.crashes_eq_false hpoll _)), hcancelled] at hstuck
    nomatch hstuck
  | _ =>
    have hsame : y.time = x.time := htime
    exact ⟨hsame ▸ h.upper, hsame ▸ h.deadline, fun _ => hsame⟩

/-- What is not a step of call `r` leaves it waiting. -/
theorem Waits.rests (h : Waits r begun poll timeout places past x run k)
    (hpoll : 0 < poll) (hrun : x.runs[r]? = some run) (hstage : run'.stage = run.stage)
    (hcancel : run.cancelled = true → run'.cancelled = true) (ha : a.isRun r = false)
    (htime : y.time = x.time + a.passing) (hprompt : prompt r (x, a) = true) :
    Waits r begun poll timeout places (past ++ [(x, a)]) y run' k := by
  obtain ⟨l, hl, hbegun, hst⟩ := h.stage_eq
  obtain ⟨hupper, hdeadline, hstill⟩ := h.passing hpoll hrun htime hprompt
  have hnow : run.cancelled = true → run'.cancelled = true ∧ x.time = y.time :=
    fun hc => ⟨hcancel hc, (hstill hc).symm⟩
  have hlower := h.lower
  exact {
    stage_eq := ⟨l, hl, hbegun, hstage.trans hst⟩
    clear := h.clear
    pos := h.pos
    lower := by omega
    upper := hupper
    deadline := hdeadline
    cancelled := List.forall_mem_append.mpr ⟨fun m hm hmc =>
        have hbefore := h.cancelled m hm hmc
        (hnow hbefore.1).imp_right hbefore.2.trans,
      List.forall_mem_singleton.mpr fun hxc => hnow ((isCancelled_eq hrun).symm.trans hxc)⟩
    busy := List.forall_mem_append.mpr ⟨h.busy, List.forall_mem_singleton.mpr fun hhandles =>
      nomatch ha.symm.trans (isRun_of_handlesTick hhandles)⟩
    handled := List.forall_mem_append.mpr ⟨h.handled, List.forall_mem_singleton.mpr fun hmine =>
      nomatch ha.symm.trans hmine⟩
    ticks := fun j hj hjk =>
      have ⟨m, hm, htick⟩ := h.ticks j hj hjk
      ⟨m, List.mem_append_left _ hm, htick⟩ }

/-- The moments that can end the wait, as far as they are known after one more step of the call. -/
theorem Waits.mem_bounds_step (h : Waits r begun poll timeout places past x run k)
    (hrun : x.runs[r]? = some run) (htime : y.time = x.time)
    (hcancelled : y.isCancelled r = run.cancelled) {b : Nat} :
    b ∈ bounds r begun poll timeout places (past ++ [(x, .run r)]) y ↔
      timeout = some b ∨ b = x.time - begun ∧ (run.cancelled = true ∨
        handlesTick r begun poll (x, .run r) = true ∧ x.anyAlive places = false) := by
  have hcancel : cancelTime? r begun ((past ++ [(x, Act.run r)]).map (·.1) ++ [y]) =
      if run.cancelled then some (x.time - begun) else none := by
    have hsplit : (past ++ [(x, Act.run r)]).map (·.1) ++ [y] = (past.map (·.1) ++ [x]) ++ [y] := by
      rw [List.map_append]
      rfl
    rw [hsplit, cancelTime?_append, h.cancelTime?_eq hrun, hcancelled, htime]
    cases run.cancelled <;> rfl
  have hidle : idleTick? r begun poll places (past ++ [(x, .run r)]) =
      if handlesTick r begun poll (x, .run r) && !x.anyAlive places then some (x.time - begun)
        else none := by
    rw [idleTick?_append, h.idleTick?_eq]
    rfl
  rw [mem_bounds, hcancel, hidle]
  simp only [Option.ite_none_right_eq_some, Option.some.injEq, Bool.and_eq_true, Bool.not_eq_true']
  tauto

/-- The call sees a reason to stop. -/
theorem Waits.leave (h : Waits r begun poll timeout places past x run k) (hpoll : 0 < poll)
    (hrun : x.runs[r]? = some run) (ha : x.act? (.run r) = some y) (htime : y.time = x.time)
    (hcancelled : y.isCancelled r = run.cancelled) (hout : y.isWaiting r = false)
    (hlook : Watch.look ⟨timeout.map (begun + ·), poll, begun + k * poll⟩ x.time run.cancelled
      (x.anyAlive places) = .error reason) :
    Leaves r begun poll timeout places (past ++ [(x, .run r)]) y reason (x.time - begun) := by
  obtain ⟨l, -, -, hst⟩ := h.stage_eq
  have hmine : Act.isRun r (.run r) = true := beq_self_eq_true r
  have hwaiting := isWaiting_of_running hrun hst
  have hbegun := h.begun_le
  have hms : begun + (x.time - begun) = x.time := by omega
  have hdeadline := h.any_deadline_iff
  have hcase := Watch.of_look_error hlook
  refine ⟨by omega, fun b hb => ?_, ?_, ⟨(x, .run r), List.mem_append_right _ List.mem_cons_self,
    ⟨hmine, hwaiting, y, ha, hout⟩, hms.symm, ?_, fun hfinished => ?_⟩, fun j hj hlt => ?_⟩
  · rcases (h.mem_bounds_step hrun htime hcancelled).mp hb with hT | ⟨rfl, -⟩
    · have hle := h.deadline b hT
      omega
    · exact Nat.le_refl _
  · refine (h.mem_bounds_step hrun htime hcancelled).mpr ?_
    rcases hcase with ⟨hc, -⟩ | ⟨-, hd, -⟩ | ⟨-, -, htick, halive, -⟩
    · exact .inr ⟨rfl, .inl hc⟩
    · exact .inl (hdeadline.mp hd)
    · have hnow : x.time = begun + k * poll := Nat.le_antisymm h.upper htick
      exact .inr ⟨rfl, .inr ⟨handlesTick_at hmine hwaiting h.pos hpoll hnow, halive⟩⟩
  · show reason = if x.isCancelled r then _ else _
    rw [isCancelled_eq hrun]
    rcases hcase with ⟨hc, rfl⟩ | ⟨hc, hd, rfl⟩ | ⟨hc, hd, -, -, rfl⟩
    · rw [hc, if_pos rfl]
    · rw [hc, if_neg Bool.false_ne_true, if_pos (hdeadline.mp hd)]
    · rw [hc, if_neg Bool.false_ne_true, if_neg fun hT => ?_]
      exact Bool.false_ne_true (hd.symm.trans (hdeadline.mpr hT))
  · rcases hcase with ⟨-, rfl⟩ | ⟨-, -, rfl⟩ | ⟨-, -, -, halive, -⟩
    · nomatch hfinished
    · nomatch hfinished
    · exact halive
  · obtain ⟨m, hm, htick⟩ := h.busyUntil j hj (hms ▸ hlt)
    exact ⟨m, List.mem_append_left _ hm, htick⟩

/-- The call sees a poll tick, and a producer that is alive. -/
theorem Waits.watch (h : Waits r begun poll timeout places past x run k) (hpoll : 0 < poll)
    (hrun : x.runs[r]? = some run) (htime : y.time = x.time) (hcancelled : run.cancelled = false)
    (htick : begun + k * poll ≤ x.time) (halive : x.anyAlive places = true) {l : Launched}
    (hl : l.started = places) (hbegun : l.begun = begun)
    (hst : run'.stage = .running l ⟨timeout.map (begun + ·), poll, x.time + poll⟩) :
    Waits r begun poll timeout places (past ++ [(x, .run r)]) y run' (k + 1) := by
  have hnow : x.time = begun + k * poll := Nat.le_antisymm h.upper htick
  have hnext : x.time + poll = begun + (k + 1) * poll := by
    rw [hnow, Nat.add_mul, Nat.one_mul, Nat.add_assoc]
  have hwaiting : x.isWaiting r = true := by
    obtain ⟨l', -, -, hst'⟩ := h.stage_eq
    exact isWaiting_of_running hrun hst'
  have hlater : begun + k * poll < begun + (k + 1) * poll := by omega
  exact {
    stage_eq := ⟨l, hl, hbegun, hnext ▸ hst⟩
    clear := h.clear
    pos := Nat.succ_pos k
    lower := by omega
    upper := by omega
    deadline := fun T hT => htime ▸ h.deadline T hT
    cancelled := List.forall_mem_append.mpr ⟨fun m hm hmc =>
        (nomatch hcancelled.symm.trans (h.cancelled m hm hmc).1),
      List.forall_mem_singleton.mpr fun hxc =>
        nomatch hcancelled.symm.trans ((isCancelled_eq hrun).symm.trans hxc)⟩
    busy := List.forall_mem_append.mpr ⟨h.busy, List.forall_mem_singleton.mpr fun _ => halive⟩
    handled := List.forall_mem_append.mpr ⟨fun m hm hmine =>
        Nat.lt_trans (h.handled m hm hmine) hlater,
      List.forall_mem_singleton.mpr fun _ => hnow ▸ hlater⟩
    ticks := fun j hj hjk => by
      by_cases hlast : j = k
      · subst hlast
        exact ⟨(x, .run r), List.mem_append_right _ List.mem_cons_self,
          handlesTick_at (beq_self_eq_true r) hwaiting hj hpoll hnow, hnow⟩
      · obtain ⟨m, hm, hticks⟩ := h.ticks j hj (by omega)
        exact ⟨m, List.mem_append_left _ hm, hticks⟩ }

/-- A step of a call that waits: it goes on waiting for the next tick, or leaves. -/
theorem Waits.steps (h : Waits r begun poll timeout places past x run k) (hpoll : 0 < poll)
    (hrun : x.runs[r]? = some run) (ha : x.act? (.run r) = some y) (hs : x.Steps r run y) :
    ∃ run', y.runs[r]? = some run' ∧
      (Waits r begun poll timeout places (past ++ [(x, .run r)]) y run' (k + 1) ∨
        ∃ reason ms, run'.stage.left? = some (reason, ms) ∧
          Leaves r begun poll timeout places (past ++ [(x, .run r)]) y reason ms) := by
  have hsound := h.crashes_eq_false hpoll
  obtain ⟨l, rfl, rfl, hst⟩ := h.stage_eq
  cases hs with
  | @turn phase stage hturn =>
    have hy : ({ x with phase }.setStage r stage).runs[r]? = some { run with stage } :=
      (runs_setStage (s := { x with phase }) hrun stage r).trans (if_pos rfl)
    have hcancelled := isCancelled_eq hy
    refine ⟨{ run with stage }, hy, ?_⟩
    cases hturn with
    | crash hst' hcrash =>
      obtain ⟨-, rfl⟩ := Run.Stage.running.inj (hst.symm.trans hst')
      nomatch hcrash.symm.trans (hsound run.cancelled)
    | leave hst' hlook =>
      obtain ⟨rfl, rfl⟩ := Run.Stage.running.inj (hst.symm.trans hst')
      have hout := isWaiting_eq_false hy nofun
      exact .inr ⟨_, _, rfl, h.leave hpoll hrun ha rfl hcancelled hout hlook⟩
    | watch hst' hlook hne =>
      obtain ⟨rfl, rfl⟩ := Run.Stage.running.inj (hst.symm.trans hst')
      obtain ⟨hgoing, htick, halive, rfl⟩ := Watch.of_look_ok hlook hne
      exact .inl (h.watch hpoll hrun rfl hgoing htick halive rfl rfl rfl)
    | letIn hst' | refuse hst' | allAsked hst' | sleep hst' | wake hst' | drained hst'
    | collect hst' | lose hst' | release hst' => nomatch hst.symm.trans hst'
  | openRun hst' | start hst' | launchRun hst' | ask hst' | await hst' | closeRun hst'
  | stopQueue hst' | sealRun hst' => nomatch hst.symm.trans hst'

/-- Where the call waits, its next step ends the wait exactly if it is cancelled, or its time is up,
or a poll tick is due that has not been handled and no producer is alive. -/
theorem Waits.leaves_iff (h : Waits r begun poll timeout places past x run k) (hpoll : 0 < poll)
    (hrun : x.runs[r]? = some run) :
    (∃ y, x.step? r = some y ∧ y.isWaiting r = false ∧ y.phase = .stopping) ↔
      x.isCancelled r = true ∨ timeout = some (x.time - begun) ∨
        handlesTick r begun poll (x, .run r) = true ∧ x.anyAlive places = false ∧
          ∀ m ∈ past, handlesTick r begun poll m = true → m.1.time < x.time := by
  have hdeadline := h.any_deadline_iff
  have hsound := Bool.eq_false_iff.mp (h.crashes_eq_false hpoll run.cancelled)
  obtain ⟨l, rfl, rfl, hst⟩ := h.stage_eq
  have hmine : Act.isRun r (.run r) = true := beq_self_eq_true r
  have hwaiting := isWaiting_of_running hrun hst
  rw [step?_running hrun hst, watch?, if_neg hsound, isCancelled_eq hrun]
  constructor
  · rintro ⟨y, hy, hleft, -⟩
    split at hy
    · rename_i hlook
      rcases Watch.of_look_error hlook with ⟨hc, -⟩ | ⟨-, hd, -⟩ | ⟨-, -, htick, halive, -⟩
      · exact .inl hc
      · exact .inr (.inl (hdeadline.mp hd))
      · have hnow : x.time = l.begun + k * poll := Nat.le_antisymm h.upper htick
        refine .inr (.inr ⟨handlesTick_at hmine hwaiting h.pos hpoll hnow, halive,
          fun m hm hhandles => ?_⟩)
        rw [hnow]
        exact h.handled m hm (isRun_of_handlesTick hhandles)
    · rename_i w' hlook
      split at hy
      · nomatch hy
      · obtain rfl := Option.some.inj hy
        have hrun' : (x.setStage r (.running l w')).runs[r]? =
            some { run with stage := .running l w' } :=
          (runs_setStage hrun _ r).trans (if_pos rfl)
        nomatch hleft.symm.trans (isWaiting_of_running hrun' rfl)
  · intro hends
    have hlook : ∃ reason, Watch.look ⟨timeout.map (l.begun + ·), poll, l.begun + k * poll⟩ x.time
        run.cancelled (x.anyAlive l.started) = .error reason := by
      refine Watch.look_error ?_
      rcases hends with hc | hT | ⟨htick, halive, hnew⟩
      · exact .inl hc
      · exact .inr (.inl (hdeadline.mpr hT))
      · exact .inr (.inr ⟨h.tick_due htick hnew, halive⟩)
    obtain ⟨reason, hlook⟩ := hlook
    unfold anyAlive at hlook
    rw [hlook]
    exact ⟨_, rfl, isWaiting_eq_false ((runs_setStage (s := { x with phase := .stopping }) hrun _
      r).trans (if_pos rfl)) nofun, rfl⟩

/-! ## From the moment at which the run was running -/

theorem isRun_eq_false (h : a ≠ .run r) : a.isRun r = false := by
  cases a with
  | run r' => exact beq_eq_false_iff_ne.mpr fun he => h (congrArg Act.run he)
  | _ => rfl

/-- The call waits, or has left the wait, or was given up, or its worker was lost after the wait. -/
def Watched (r begun poll : Nat) (timeout : Option Nat) (places : List Nat)
    (past : List (Session × Act)) (x : Session) : Prop :=
  ∃ run, x.runs[r]? = some run ∧
    ((∃ k, Waits r begun poll timeout places past x run k) ∨
      (∃ reason ms, run.stage.left? = some (reason, ms) ∧
        Leaves r begun poll timeout places past x reason ms) ∨
      run.stage = .dropped ∨
      (∃ what, run.stage = .returned (.error (.taskLost what))) ∧
        ∃ m ∈ past, (m.1.left? r).isSome = true)

theorem Watched.act (h : Watched r begun poll timeout places past x) (hpoll : 0 < poll)
    (ha : x.act? a = some y) (hprompt : prompt r (x, a) = true) :
    Watched r begun poll timeout places (past ++ [(x, a)]) y := by
  obtain ⟨run, hrun, hcase⟩ := h
  have hmeets := meets_act hrun ha
  have htime := (clock_act ha).1
  have hle : x.time ≤ y.time := by omega
  rcases hcase with ⟨k, hwaits⟩ | ⟨reason, ms, hleft, hleaves⟩ | hgone
  · cases hmeets with
    | steps hs =>
      obtain ⟨run', hrun', hnext | hnext⟩ := hwaits.steps hpoll hrun ha hs
      · exact ⟨run', hrun', .inl ⟨k + 1, hnext⟩⟩
      · exact ⟨run', hrun', .inr (.inl hnext)⟩
    | drops hover hrun' => exact ⟨_, hrun', .inr (.inr (.inl rfl))⟩
    | cancels hrun' =>
      exact ⟨_, hrun', .inl ⟨k, hwaits.rests hpoll hrun rfl (fun _ => rfl) rfl htime hprompt⟩⟩
    | rests hne hrun' =>
      exact ⟨_, hrun', .inl ⟨k, hwaits.rests hpoll hrun rfl (fun h => h) (isRun_eq_false hne) htime
        hprompt⟩⟩
  · have hout : x.isWaiting r = false := isWaiting_eq_false hrun fun l w hst => by
      rw [hst] at hleft
      nomatch hleft
    have hnext := hleaves.append (a := a) hout hle
    cases hmeets with
    | steps hs =>
      obtain ⟨run', hrun', hleft' | hlost⟩ := left_of_steps hrun hleft hs
      · exact ⟨run', hrun', .inr (.inl ⟨reason, ms, hleft', hnext⟩)⟩
      · refine ⟨run', hrun', .inr (.inr (.inr ⟨hlost, (x, .run r),
          List.mem_append_right _ List.mem_cons_self, ?_⟩))⟩
        rw [left?_eq hrun, hleft]
        rfl
    | drops hover hrun' => exact ⟨_, hrun', .inr (.inr (.inl rfl))⟩
    | cancels hrun' | rests hne hrun' =>
      exact ⟨_, hrun', .inr (.inl ⟨reason, ms, hleft, hnext⟩)⟩
  · have hover : run.stage.isOver = true := by
      rcases hgone with hst | ⟨⟨what, hst⟩, -⟩ <;> rw [hst] <;> rfl
    have hstill : run.stage = .dropped ∨
        (∃ what, run.stage = .returned (.error (.taskLost what))) ∧
          ∃ m ∈ past ++ [(x, a)], (m.1.left? r).isSome = true :=
      hgone.imp_right fun ⟨hst, m, hm, hleft⟩ => ⟨hst, m, List.mem_append_left _ hm, hleft⟩
    cases hmeets with
    | steps hs => nomatch (step?_eq_none hrun hover).symm.trans ha
    | drops hnot => nomatch hover.symm.trans hnot
    | cancels hrun' | rests hne hrun' => exact ⟨_, hrun', .inr (.inr hstill)⟩

/-- The call begins to wait. -/
theorem watched_launchRun {o : Opened} {started : List Nat} (hrun : s.runs[r]? = some run)
    (hst : run.stage = .starting o [] started) (hne : started ≠ [])
    (hclear : ∀ T, run.timeout = some T → s.time + T ≤ Watch.lastMoment)
    (ha : s.act? (.run r) = some t) :
    t.phase = .running ∧ Watched r t.time s.timing.poll run.timeout started [] t := by
  have hstep : s.step? r = some (s.launchRun r run o started) := by
    simp only [step?, hrun, hst, Option.bind_eq_bind, Option.bind_some]
  obtain rfl := Option.some.inj (hstep.symm.trans ha)
  unfold launchRun
  rw [if_neg fun hempty => hne (List.isEmpty_iff.mp hempty)]
  have hbegins : ∀ run', run'.stage = .running ⟨o, started, s.time⟩
      (.start s.time s.timing.poll run.timeout) →
      Waits r s.time s.timing.poll run.timeout started []
        ({ s with phase := .running }.setRun r run') run' 1 := by
    intro run' hst'
    have hfirst : s.time + 1 * s.timing.poll = s.time + s.timing.poll := by rw [Nat.one_mul]
    exact {
      stage_eq := ⟨⟨o, started, s.time⟩, rfl, rfl, hfirst.symm ▸ hst'⟩
      clear := hclear
      pos := Nat.one_pos
      lower := Nat.le_of_eq hfirst
      upper := Nat.le_add_right _ _
      deadline := fun T _ => Nat.le_add_right _ _
      cancelled := nofun
      busy := nofun
      handled := nofun
      ticks := fun j hj hlt => absurd hj (by omega) }
  exact ⟨rfl, _, (runs_setRun (s := { s with phase := .running }) hrun _ r).trans (if_pos rfl),
    .inl ⟨1, hbegins _ rfl⟩⟩

/-! ## How soon -/

/-- While poll ticks find nobody alive the wait does not last longer than one poll interval. -/
theorem BusyUntil.soon {time : Nat} (h : BusyUntil r begun poll places past time)
    (hpoll : 0 < poll) (hordered : past.Pairwise (·.1.time ≤ ·.1.time))
    {early late : List (Session × Act)} (hpast : past = early ++ (y, a) :: late)
    (hbegun : begun ≤ y.time)
    (hidle : ∀ m ∈ (y, a) :: late, m.1.isWaiting r = true → m.1.anyAlive places = false) :
    time ≤ y.time + poll := by
  by_contra hlate
  -- the first poll tick after `y`
  have hsplit := Nat.div_add_mod' (y.time - begun) poll
  have hmod := Nat.mod_lt (y.time - begun) hpoll
  have hnext := Nat.succ_mul ((y.time - begun) / poll) poll
  obtain ⟨m, hm, hhandles, htime, halive⟩ :=
    h ((y.time - begun) / poll).succ (Nat.succ_pos _) (by omega)
  have hafter : y.time < m.1.time := by omega
  subst hpast
  rcases List.mem_append.mp hm with hearly | hm
  · have hbefore := (List.pairwise_append.mp hordered).2.2 m hearly (y, a) List.mem_cons_self
    exact absurd hafter (Nat.not_lt.mpr hbefore)
  · nomatch halive.symm.trans (hidle m hm (isWaiting_of_handlesTick hhandles))

end

/-! ## When and why -/

/-- Call `r` still waits for the end of its run. -/
structure StillWaits (r begun poll : Nat) (timeout : Option Nat) (places : List Nat)
    (past : List (Session × Act)) (t : Session) : Prop where
  waiting : t.isWaiting r = true
  /-- None of the moments that end the wait is past. -/
  time_le : ∀ b ∈ bounds r begun poll timeout places past t, t.time ≤ begun + b
  /-- The next step of the call ends the wait exactly if it is cancelled, or its time is up, or a
  poll tick is due that finds nobody alive. -/
  leaves_iff : (∃ y, t.step? r = some y ∧ y.isWaiting r = false ∧ y.phase = .stopping) ↔
    t.isCancelled r = true ∨ timeout = some (t.time - begun) ∨
      handlesTick r begun poll (t, .run r) = true ∧ t.anyAlive places = false ∧
        ∀ m ∈ past, handlesTick r begun poll m = true → m.1.time < t.time
  /-- It has waited for no more than one poll interval with nobody alive. -/
  soon : ∀ early y a late, past = early ++ (y, a) :: late →
    (∀ m ∈ (y, a) :: late, m.1.isWaiting r = true → m.1.anyAlive places = false) →
    t.time ≤ y.time + poll

/-- Call `r` has left the wait for the end of its run, for this reason and after `ms`
milliseconds. -/
structure HasLeft (r begun poll : Nat) (timeout : Option Nat) (places : List Nat)
    (past : List (Session × Act)) (t : Session) (reason : StopReason) (ms : Nat) : Prop where
  left_eq : t.left? r = some (reason, ms)
  /-- It has left at the first of the moments that end the wait. -/
  earliest : (bounds r begun poll timeout places past t).min? = some ms
  /-- Where it left, being cancelled came first and being out of time second; and if the producers
  had finished, no one was alive. -/
  moment : ∃ m ∈ past, m.1.leavesBy r m.2 ∧ m.1.time = begun + ms ∧
    (reason = if m.1.isCancelled r then .cancelled
      else if timeout = some ms then .timeout else .finished) ∧
    (reason = .finished → m.1.anyAlive places = false)
  /-- Every poll tick before found some producer alive. -/
  busy : BusyUntil r begun poll places past (begun + ms)
  /-- It had waited for no more than one poll interval with nobody alive. -/
  soon : ∀ early y a late, past = early ++ (y, a) :: late →
    (∀ m ∈ (y, a) :: late, m.1.isWaiting r = true → m.1.anyAlive places = false) →
    begun + ms ≤ y.time + poll

section

variable {s s₀ t x : Session} {r begun poll k ms : Nat} {run : Run} {o : Opened}
  {started places : List Nat} {timeout : Option Nat} {past : List (Session × Act)} {acts : List Act}
  {reason : StopReason}

theorem Waits.stillWaits (h : Waits r begun poll timeout places past x run k) (hpoll : 0 < poll)
    (hrun : x.runs[r]? = some run) (hordered : past.Pairwise (·.1.time ≤ ·.1.time))
    (hpast : ∀ m ∈ past, begun ≤ m.1.time) :
    StillWaits r begun poll timeout places past x := by
  obtain ⟨l, -, -, hst⟩ := h.stage_eq
  have hbegun := h.begun_le
  refine ⟨isWaiting_of_running hrun hst, fun b hb => ?_, h.leaves_iff hpoll hrun,
    fun early y a late hsplit hidle => ?_⟩
  · rcases mem_bounds.mp hb with hb | hb | hb
    · rw [h.cancelTime?_eq hrun] at hb
      split at hb
      · obtain rfl := Option.some.inj hb
        omega
      · nomatch hb
    · exact h.deadline b hb
    · nomatch h.idleTick?_eq.symm.trans hb
  · have hy : begun ≤ y.time :=
      hpast (y, a) (hsplit ▸ List.mem_append_right _ List.mem_cons_self)
    exact h.busyUntil.soon hpoll hordered hsplit hy hidle

theorem Leaves.hasLeft (h : Leaves r begun poll timeout places past x reason ms)
    (hpoll : 0 < poll) (hleft : x.left? r = some (reason, ms))
    (hordered : past.Pairwise (·.1.time ≤ ·.1.time)) (hpast : ∀ m ∈ past, begun ≤ m.1.time) :
    HasLeft r begun poll timeout places past x reason ms := by
  refine ⟨hleft, List.min?_eq_some_iff.mpr ⟨h.mem, h.least⟩, h.moment, h.busy,
    fun early y a late hsplit hidle => ?_⟩
  have hy : begun ≤ y.time :=
    hpast (y, a) (hsplit ▸ List.mem_append_right _ List.mem_cons_self)
  exact h.busy.soon hpoll hordered hsplit hy hidle

/-- A session with one replay, in which a call that may take twice the poll interval has started the
replay. -/
def oneStarted : Session :=
  let s := new ⟨10, 10⟩ [] [.replay "left" [.events "recorded" [⟨0, 10, 7, .empty⟩]] 5]
    (fun _ => default) fun _ => default
  (s.after? [.boot 0, .call default (some 20) false, .run 0, .run 0, .run 0]).getD s

/-- A call that has started its producers enters its run in `s₀`, and the clock can tell when its
time is up. Whatever happens in the session then, as long as the call goes on as soon as it can, it
leaves the run at the first of three moments: when it is cancelled, when its time is up, and when a
poll tick finds nobody alive. The reason is the first of these that holds there. Until then it waits,
unless the call is given up. -/
theorem run_stops_when (hrun : s.runs[r]? = some run) (hst : run.stage = .starting o [] started)
    (hne : started ≠ []) (hpoll : 0 < s.timing.poll)
    (hclear : ∀ T, run.timeout = some T → s.time + T ≤ Watch.lastMoment)
    (hs₀ : s.act? (.run r) = some s₀)
    (hacts : s₀.after? acts = some t) (hprompt : ∀ m ∈ s₀.moments acts, prompt r m = true) :
    s₀.phase = .running ∧
      (StillWaits r s₀.time s.timing.poll run.timeout started (s₀.moments acts) t ∨
        (∃ reason ms,
          HasLeft r s₀.time s.timing.poll run.timeout started (s₀.moments acts) t reason ms) ∨
        t.stages[r]? = some .dropped ∨
        (∃ what, t.stages[r]? = some (.returned (.error (.taskLost what)))) ∧
          ∃ m ∈ s₀.moments acts, (m.1.left? r).isSome = true) := by
  obtain ⟨hphase, hfirst⟩ := watched_launchRun hrun hst hne hclear hs₀
  obtain ⟨hordered, hpast⟩ := ordered_moments hacts
  have hpast : ∀ m ∈ s₀.moments acts, s₀.time ≤ m.1.time := fun m hm => (hpast m hm).1
  have hwatched : (∀ m ∈ s₀.moments acts, prompt r m = true) →
      Watched r s₀.time s.timing.poll run.timeout started (s₀.moments acts) t :=
    after_induction (P := fun past x => (∀ m ∈ past, prompt r m = true) →
      Watched r s₀.time s.timing.poll run.timeout started past x) (fun _ => hfirst)
      (fun past x a y hkept ha hall => (hkept fun m hm => hall m (List.mem_append_left _ hm)).act
        hpoll ha (hall _ (List.mem_append_right _ List.mem_cons_self))) hacts
  obtain ⟨run', hrun', hcase⟩ := hwatched hprompt
  refine ⟨hphase, ?_⟩
  rw [stages_getElem? hrun']
  rcases hcase with ⟨k, hwaits⟩ | ⟨reason, ms, hleft, hleaves⟩ | hst' | ⟨⟨what, hst'⟩, hbefore⟩
  · exact .inl (hwaits.stillWaits hpoll hrun' hordered hpast)
  · exact .inr (.inl ⟨reason, ms,
      hleaves.hasLeft hpoll ((left?_eq hrun').trans hleft) hordered hpast⟩)
  · exact .inr (.inr (.inl (congrArg some hst')))
  · exact .inr (.inr (.inr ⟨⟨what, congrArg some hst'⟩, hbefore⟩))

/-- Somebody stops the replay after the first poll tick. At the second one no one is alive, but the
time of the run is up as well, and this comes first. -/
theorem run_stops_when_deadline_ties :
    let acts : List Act := [.wait 10, .run 0, .wait 3, .ask 0, .notice 0 0, .wait 7, .run 0]
    (∃ run o, oneStarted.runs[0]? = some run ∧ run.stage = .starting o [] [0] ∧
      run.timeout = some 20) ∧
      ∃ s₀ t, oneStarted.act? (.run 0) = some s₀ ∧ s₀.after? acts = some t ∧
        (∀ m ∈ s₀.moments acts, prompt 0 m = true) ∧
        HasLeft 0 s₀.time 10 (some 20) [0] (s₀.moments acts) t .timeout 20 := by
  intro acts
  have hstarted : ∃ run o, oneStarted.runs[0]? = some run ∧ run.stage = .starting o [] [0] ∧
      run.timeout = some 20 := ⟨_, _, rfl, rfl, rfl⟩
  have hends : ((oneStarted.act? (.run 0)).any fun s₀ => (s₀.moments acts).all (prompt 0) &&
      (s₀.after? acts).any (·.left? 0 == some (.timeout, 20))) = true := by decide
  obtain ⟨s₀, hs₀, hends⟩ := (Option.any_eq_true _ _).mp hends
  obtain ⟨hprompt, hends⟩ := Bool.and_eq_true_iff.mp hends
  have hprompt := List.all_eq_true.mp hprompt
  obtain ⟨t, hacts, hleft⟩ := (Option.any_eq_true _ _).mp hends
  have hleft := beq_iff_eq.mp hleft
  refine ⟨hstarted, s₀, t, hs₀, hacts, hprompt, ?_⟩
  obtain ⟨run, o, hrun, hst, htimeout⟩ := hstarted
  have hclear : ∀ T, run.timeout = some T → oneStarted.time + T ≤ Watch.lastMoment := by
    intro T hT
    obtain rfl := Option.some.inj (htimeout.symm.trans hT)
    decide
  have hcases := (run_stops_when hrun hst (List.cons_ne_nil _ _) (by decide) hclear hs₀ hacts
    hprompt).2
  rw [htimeout] at hcases
  rcases hcases with hwaits | ⟨reason, ms, hhasLeft⟩ | hdropped | ⟨⟨what, hlost⟩, -⟩
  · nomatch (left?_of_isWaiting hwaits.waiting).symm.trans hleft
  · obtain ⟨rfl, rfl⟩ := Prod.mk.inj (Option.some.inj (hleft.symm.trans hhasLeft.left_eq))
    exact hhasLeft
  · unfold left? at hleft
    rw [hdropped] at hleft
    nomatch hleft
  · unfold left? at hleft
    rw [hlost] at hleft
    nomatch hleft

/-- A call whose time is up past the last moment of the clock. It has entered its run, nobody has
cancelled it, and the replay is alive; and yet it ends at its first look, without a reason. The
session is idle again, while the replay goes on. -/
theorem crash_without_reason :
    let s := new ⟨10, 10⟩ [] [.replay "left" [.events "recorded" [⟨0, 10, 7, .empty⟩]] 5]
      (fun _ => default) fun _ => default
    let acts : List Act := [.boot 0, .call default (some (18446744073709551615 * 1000)) false,
      .run 0, .run 0, .run 0, .run 0]
    let seen (t : Session) := (t.time, t.phase, t.isCancelled 0, t.anyAlive [0], t.isWaiting 0)
    (s.after? acts).map seen = some (0, .running, false, true, true) ∧
    (s.after? (acts ++ [.run 0])).map seen = some (0, .idle, false, true, false) ∧
    (s.after? (acts ++ [.run 0])).map (·.left? 0) = some none := by
  decide +kernel

end

end Session

end ListMode
