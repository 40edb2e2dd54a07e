import ListMode.Proofs.Handoff.Steps
import ListMode.Proofs.Producer
import ListMode.Proofs.Session.Acts

/-!
# What an action leaves alone

`Frame` says how a queue may look after an action of somebody who does not own it: it has got what
the polling tasks that feed it handed over, and no further task feeds it. `Sound` keeps the queues
of the calls apart. Each primitive change of a session has one lemma for either.
-/

namespace ListMode

namespace Handoff

variable {α : Type}

/-- Put items one after the other. -/
def putAll (q : Handoff α) (items : List α) : Handoff α := items.foldl (fun q a => (q.put a).2) q

theorem stopped_putAll (q : Handoff α) (l : List α) : (q.putAll l).stopped = q.stopped := by
  induction l generalizing q with
  | nil => rfl
  | cons a rest ih => exact (ih _).trans (q.stopped_put a)

theorem items_putAll (q : Handoff α) (l : List α) :
    (q.putAll l).items = if q.stopped then q.items else q.items ++ l := by
  induction l generalizing q with
  | nil => simp [putAll]
  | cons a rest ih =>
    refine (ih _).trans ?_
    rw [stopped_put, items_put]
    cases q.stopped <;> simp

end Handoff

/-- The queue that a call at this stage owns. -/
def Run.Stage.queue? : Run.Stage → Option Nat
  | .starting o _ _ => some o.queue
  | .running l _ => some l.queue
  | .asking e _ _ | .awaiting e _ | .draining e _ | .emptied e | .finishing e | .sealing e _ =>
    some e.queue
  | _ => none

/-- The call or its worker owns queue `n`. -/
def Run.Owns (run : Run) (n : Nat) : Prop :=
  run.stage.queue? = some n ∨ ∃ w, run.worker = some w ∧ w.queue = n

namespace Session

/-- Task `k` of producer `i` hands its spills to queue `n`. -/
def Feeds (s : Session) (n i k : Nat) : Prop :=
  ∃ p, s.producers[i]? = some p ∧ ∃ t ∈ p.slot.tasks, t.number = k ∧ t.work.queue = n

/-- Producer `i` holds on to task `k`. -/
def Holds (s : Session) (i k : Nat) : Prop :=
  ∃ p, s.producers[i]? = some p ∧ p.slot.held = some k

/-- Spills among `handed` that go to queue `n`. -/
def into (n : Nat) (handed : List Delivery) : List Spill :=
  (handed.filter (·.queue = n)).map (·.spill)

/-- Queue `n` has got what its tasks handed over, and no task is new to it. Producers at places
other than `touched` hold on to their tasks. -/
structure Frame (n : Nat) (touched : List Nat) (handed : List Delivery) (s s' : Session) :
    Prop where
  queue_eq : s'.queue n = (s.queue n).putAll (into n handed)
  feeds : ∀ i k, s'.Feeds n i k → s.Feeds n i k
  holds : ∀ i k, i ∉ touched → s.Holds i k → s'.Holds i k

/-- Producers are digitizers and replays, their tasks and all calls use queues that exist, and no
two calls share one. -/
structure Sound (s : Session) : Prop where
  real : ∀ (i : Nat) (p : Producer), s.producers[i]? = some p → p.Real
  feeds_lt : ∀ n i k, s.Feeds n i k → n < s.queues.length
  owns_lt : ∀ (r : Nat) (run : Run) (n : Nat), s.runs[r]? = some run → run.Owns n →
    n < s.queues.length
  owns_unique : ∀ (r r' : Nat) (run run' : Run) (n : Nat), s.runs[r]? = some run →
    s.runs[r']? = some run' → run.Owns n → run'.Owns n → r = r'

section

variable {s s' s'' : Session} {n : Nat} {touched touched' : List Nat}
  {handed handed' : List Delivery}

theorem into_append (n : Nat) (handed handed' : List Delivery) :
    into n (handed ++ handed') = into n handed ++ into n handed' := by
  simp [into]

theorem into_eq_nil (h : ∀ d ∈ handed, d.queue ≠ n) : into n handed = [] := by
  unfold into
  rw [List.map_eq_nil_iff, List.filter_eq_nil_iff]
  exact fun d hd hn => h d hd (of_decide_eq_true hn)

/-! ## Frames -/

theorem Frame.of_eq (hq : s'.queue n = s.queue n) (hp : s'.producers = s.producers) :
    Frame n touched [] s s' := by
  refine ⟨hq, ?_, ?_⟩
  · rintro i k ⟨p, h, ht⟩
    exact ⟨p, hp ▸ h, ht⟩
  · rintro i k - ⟨p, h, hk⟩
    exact ⟨p, hp ▸ h, hk⟩

theorem Frame.trans (h : Frame n touched handed s s') (h' : Frame n touched handed' s' s'') :
    Frame n touched (handed ++ handed') s s'' := by
  refine ⟨?_, fun i k hf => h.feeds i k (h'.feeds i k hf),
    fun i k hi hh => h'.holds i k hi (h.holds i k hi hh)⟩
  rw [h'.queue_eq, h.queue_eq, into_append, Handoff.putAll, Handoff.putAll, Handoff.putAll,
    List.foldl_append]

/-! ## Deliveries -/

@[simp] theorem producers_deliver (s : Session) (handed : List Delivery) :
    (s.deliver handed).producers = s.producers := by
  induction handed generalizing s with
  | nil => rfl
  | cons d rest ih => exact ih (s.put d.queue d.spill)

@[simp] theorem runs_deliver (s : Session) (handed : List Delivery) :
    (s.deliver handed).runs = s.runs := by
  induction handed generalizing s with
  | nil => rfl
  | cons d rest ih => exact ih (s.put d.queue d.spill)

@[simp] theorem length_queues_deliver (s : Session) (handed : List Delivery) :
    (s.deliver handed).queues.length = s.queues.length := by
  induction handed generalizing s with
  | nil => rfl
  | cons d rest ih => exact (ih (s.put d.queue d.spill)).trans (List.length_set)

theorem queue_setQueue (s : Session) (m : Nat) (q : Handoff Spill) (hn : n < s.queues.length) :
    (s.setQueue m q).queue n = if m = n then q else s.queue n := by
  unfold queue setQueue
  simp only [List.getD_eq_getElem?_getD, List.getElem?_set]
  split
  · rename_i h
    subst h
    simp [hn]
  · rfl

theorem queue_deliver (s : Session) (handed : List Delivery) (hn : n < s.queues.length) :
    (s.deliver handed).queue n = (s.queue n).putAll (into n handed) := by
  induction handed generalizing s with
  | nil => rfl
  | cons d rest ih =>
    have hlen : n < (s.put d.queue d.spill).queues.length := by
      unfold put setQueue
      simpa using hn
    refine (ih _ hlen).trans ?_
    rw [put, queue_setQueue _ _ _ hn]
    by_cases hd : d.queue = n
    · subst hd
      simp [into, Handoff.putAll]
    · simp [into, hd]

/-! ## Producers -/

theorem getElem?_setProducer {i : Nat} {p : Producer} (h : s.producers[i]? = some p) (p' : Producer)
    (j : Nat) :
    (s.setProducer i p').producers[j]? = if i = j then some p' else s.producers[j]? := by
  have hi := (List.getElem?_eq_some_iff.mp h).1
  unfold setProducer
  rw [List.getElem?_set]
  split
  · rename_i hj
    subst hj
    rfl
  · rfl

/-- A producer that moves feeds no further queue. -/
theorem feeds_of_moves {i : Nat} {p p' : Producer} (hp : s.producers[i]? = some p)
    (hm : p.Moves handed p') {j k : Nat} (h : ((s.setProducer i p').deliver handed).Feeds n j k) :
    s.Feeds n j k := by
  obtain ⟨x, hx, t', ht', hn', hq'⟩ := h
  rw [producers_deliver, getElem?_setProducer hp] at hx
  split at hx
  · rename_i hij
    subst hij
    obtain rfl := Option.some.inj hx
    obtain ⟨t, ht, hn, hq⟩ := hm.task t' ht'
    exact ⟨p, hp, t, ht, hn.trans hn', hq.trans hq'⟩
  · exact ⟨x, hx, t', ht', hn', hq'⟩

theorem holds_setProducer {i : Nat} {p p' : Producer} (hp : s.producers[i]? = some p) {j k : Nat}
    (hj : i ≠ j ∨ p'.slot.held = p.slot.held) (h : s.Holds j k) :
    ((s.setProducer i p').deliver handed).Holds j k := by
  obtain ⟨x, hx, hk⟩ := h
  by_cases hij : i = j
  · subst hij
    have hheld := hj.resolve_left fun hne => hne rfl
    rw [hp] at hx
    obtain rfl := Option.some.inj hx
    refine ⟨p', ?_, hheld.trans hk⟩
    rw [producers_deliver, getElem?_setProducer hp, if_pos rfl]
  · refine ⟨x, ?_, hk⟩
    rw [producers_deliver, getElem?_setProducer hp, if_neg hij]
    exact hx

theorem Frame.move {i : Nat} {p p' : Producer} (hn : n < s.queues.length)
    (hp : s.producers[i]? = some p) (hm : p.Moves handed p')
    (hheld : i ∈ touched ∨ p'.slot.held = p.slot.held) :
    Frame n touched handed s ((s.setProducer i p').deliver handed) := by
  refine ⟨queue_deliver (s.setProducer i p') handed hn, fun j k => feeds_of_moves hp hm, ?_⟩
  intro j k hj hk
  refine holds_setProducer hp ?_ hk
  rcases hheld with hi | hheld
  · exact .inl fun hij => hj (hij ▸ hi)
  · exact .inr hheld

theorem Sound.move (h : s.Sound) {i : Nat} {p p' : Producer} (hp : s.producers[i]? = some p)
    (hm : p.Moves handed p') : ((s.setProducer i p').deliver handed).Sound := by
  refine ⟨?_, ?_, ?_, ?_⟩
  · intro j x hx
    rw [producers_deliver, getElem?_setProducer hp] at hx
    split at hx
    · obtain rfl := Option.some.inj hx
      exact hm.real
    · exact h.real j x hx
  · intro m j k hf
    rw [length_queues_deliver]
    exact h.feeds_lt m j k (feeds_of_moves hp hm hf)
  · intro r run m hr ho
    rw [runs_deliver] at hr
    rw [length_queues_deliver]
    exact h.owns_lt r run m hr ho
  · intro r r' run run' m hr hr'
    rw [runs_deliver] at hr hr'
    exact h.owns_unique r r' run run' m hr hr'

/-- What starting producer `i` into queue `m` leads to: at most one new task, which the producer
holds. -/
structure Starts (s : Session) (i m : Nat) (started : Bool) (s' : Session) : Prop where
  queues_eq : s'.queues = s.queues
  runs_eq : s'.runs = s.runs
  real : ∀ (j : Nat) (p : Producer), s'.producers[j]? = some p → p.Real
  feeds : ∀ n j k, s'.Feeds n j k →
    s.Feeds n j k ∨ n = m ∧ j = i ∧ started = true ∧ s'.Holds i k
  holds : ∀ j k, j ≠ i → s.Holds j k → s'.Holds j k

theorem Sound.startProducer (h : s.Sound) (i m : Nat) :
    Starts s i m (s.startProducer i m).1 (s.startProducer i m).2 := by
  unfold Session.startProducer
  cases hp : s.producers[i]? with
  | none => exact ⟨rfl, rfl, h.real, fun _ _ _ hf => .inl hf, fun _ _ _ hk => hk⟩
  | some p =>
    have hb := (h.real i p hp).start (s.launch m)
    dsimp only
    generalize p.start (s.launch m) = result at hb
    obtain ⟨started, spills, p'⟩ := result
    obtain rfl : spills = [] := hb.handed
    have hget : ∀ j, ({ s with launches := s.launches + 1 }.setProducer i p').producers[j]? =
        if i = j then some p' else s.producers[j]? :=
      getElem?_setProducer (s := { s with launches := s.launches + 1 }) hp p'
    refine ⟨rfl, rfl, ?_, ?_, ?_⟩
    · intro j x hx
      rw [producers_deliver, hget] at hx
      split at hx
      · obtain rfl := Option.some.inj hx
        exact hb.real
      · exact h.real j x hx
    · rintro n j k ⟨x, hx, t, ht, hn, hq⟩
      rw [producers_deliver, hget] at hx
      split at hx
      · rename_i hij
        subst hij
        obtain rfl := Option.some.inj hx
        rcases hb.slot with ⟨-, hslot⟩ | ⟨hst, hheld, work, htasks⟩
        · exact .inl ⟨p, hp, t, hslot ▸ ht, hn, hq⟩
        · rw [htasks] at ht
          rcases List.mem_append.mp ht with ht | ht
          · obtain ⟨t', ht', hnumber, hwork⟩ := Polling.Slot.mem_letGo ht
            exact .inl ⟨p, hp, t', ht', hnumber.trans hn, hwork ▸ hq⟩
          · obtain rfl := List.mem_singleton.mp ht
            refine .inr ⟨hq.symm, rfl, hst, p', ?_, by rw [hheld, ← hn]⟩
            rw [producers_deliver, hget, if_pos rfl]
      · exact .inl ⟨x, hx, t, ht, hn, hq⟩
    · rintro j k hj ⟨x, hx, hk⟩
      refine ⟨x, ?_, hk⟩
      rw [producers_deliver, hget, if_neg (Ne.symm hj)]
      exact hx

/-- Somebody else's start adds no task to queue `n`. -/
theorem Starts.frame {i m : Nat} {started : Bool} (h : Starts s i m started s') (hn : n ≠ m)
    (hi : i ∈ touched) : Frame n touched [] s s' := by
  refine ⟨?_, fun j k hf => ?_, fun j k hj hk => ?_⟩
  · rw [queue, h.queues_eq]
    rfl
  · exact (h.feeds n j k hf).resolve_right fun hnew => hn hnew.1
  · exact h.holds j k (fun hji => hj (hji ▸ hi)) hk

theorem Starts.sound {i m : Nat} {started : Bool} (h : Starts s i m started s') (hs : s.Sound)
    (hm : m < s.queues.length) : s'.Sound := by
  refine ⟨h.real, fun n j k hf => ?_, ?_, ?_⟩
  · rw [h.queues_eq]
    rcases h.feeds n j k hf with hf | ⟨rfl, -⟩
    · exact hs.feeds_lt n j k hf
    · exact hm
  · rw [h.queues_eq, h.runs_eq]
    exact hs.owns_lt
  · rw [h.runs_eq]
    exact hs.owns_unique

/-! ## Queues and calls -/

/-- What happens to queues that exist, the time and the phase does not matter. -/
theorem Sound.of_eq (h : s.Sound) (hp : s'.producers = s.producers)
    (hq : s.queues.length ≤ s'.queues.length) (hr : s'.runs = s.runs) : s'.Sound := by
  refine ⟨?_, ?_, ?_, ?_⟩
  · rw [hp]
    exact h.real
  · rintro m j k ⟨p, hx, ht⟩
    have := h.feeds_lt m j k ⟨p, hp ▸ hx, ht⟩
    omega
  · intro r run m hx ho
    have := h.owns_lt r run m (hr ▸ hx) ho
    omega
  · rw [hr]
    exact h.owns_unique

/-- A call may give its queue up, or take one that is new. -/
theorem Sound.set_run (h : s.Sound) {r : Nat} {run' : Run} (hp : s'.producers = s.producers)
    (hq : s.queues.length ≤ s'.queues.length)
    (hr : ∀ j, s'.runs[j]? = if r = j then some run' else s.runs[j]?)
    (ho : ∀ m, run'.Owns m → (∃ run, s.runs[r]? = some run ∧ run.Owns m) ∨
      s.queues.length ≤ m ∧ m < s'.queues.length) : s'.Sound := by
  have hcase : ∀ j x, s'.runs[j]? = some x →
      (r = j ∧ x = run') ∨ (r ≠ j ∧ s.runs[j]? = some x) := by
    intro j x hx
    rw [hr] at hx
    split at hx
    · rename_i hj
      exact .inl ⟨hj, (Option.some.inj hx).symm⟩
    · rename_i hj
      exact .inr ⟨hj, hx⟩
  refine ⟨?_, ?_, ?_, ?_⟩
  · rw [hp]
    exact h.real
  · rintro m j k ⟨p, hx, ht⟩
    have := h.feeds_lt m j k ⟨p, hp ▸ hx, ht⟩
    omega
  · intro j x m hx hm
    rcases hcase j x hx with ⟨rfl, rfl⟩ | ⟨-, hx⟩
    · rcases ho m hm with ⟨run, hrun, hown⟩ | hm
      · have := h.owns_lt r run m hrun hown
        omega
      · exact hm.2
    · have := h.owns_lt j x m hx hm
      omega
  · intro j j' x x' m hx hx' hm hm'
    rcases hcase j x hx with ⟨rfl, rfl⟩ | ⟨hj, hx⟩
    · rcases hcase j' x' hx' with ⟨rfl, rfl⟩ | ⟨hj', hx'⟩
      · rfl
      · rcases ho m hm with ⟨run, hrun, hown⟩ | hm
        · exact h.owns_unique r j' run x' m hrun hx' hown hm'
        · have := h.owns_lt j' x' m hx' hm'
          omega
    · rcases hcase j' x' hx' with ⟨rfl, rfl⟩ | ⟨hj', hx'⟩
      · rcases ho m hm' with ⟨run, hrun, hown⟩ | hm'
        · exact h.owns_unique j r x run m hx hrun hm hown
        · have := h.owns_lt j x m hx hm
          omega
      · exact h.owns_unique j j' x x' m hx hx' hm hm'

/-- The call that an action belongs to. -/
def Act.subject : Act → Option Nat
  | .run r | .work r | .cancel r | .drop r => some r
  | _ => none

/-- What an action of call `r`, or of nobody, does to the rest of the session. -/
structure Effect (r : Option Nat) (touched : List Nat) (handed : List Delivery) (s s' : Session) :
    Prop where
  sound : s'.Sound
  runs_eq : ∀ j < s.runs.length, r ≠ some j → s'.runs[j]? = s.runs[j]?
  runs_new : ∀ (j : Nat) (run : Run), s.runs.length ≤ j → s'.runs[j]? = some run →
    run.stage = .called ∧ run.worker = none
  length_le : s.queues.length ≤ s'.queues.length
  handed_fed : ∀ d ∈ handed, d.spill.run = none ∧ ∃ i k, s.Feeds d.queue i k
  frame : ∀ n < s.queues.length, (∀ j run, r = some j → s.runs[j]? = some run → ¬run.Owns n) →
    Frame n touched handed s s'

/-- An action that leaves the calls alone. -/
theorem Effect.of_runs_eq (hs : s'.Sound) (hr : s'.runs = s.runs)
    (hlen : s.queues.length ≤ s'.queues.length)
    (hh : ∀ d ∈ handed, d.spill.run = none ∧ ∃ i k, s.Feeds d.queue i k)
    (hf : ∀ n < s.queues.length, Frame n touched handed s s') :
    Effect none touched handed s s' := by
  refine ⟨hs, fun _ _ _ => by rw [hr], fun j run hj hrun => ?_, hlen, hh, fun n hn _ => hf n hn⟩
  rw [hr, List.getElem?_eq_none hj] at hrun
  cases hrun

/-- An action that changes nothing but a call and its queues. -/
theorem Sound.effect_run (h : s.Sound) {r : Nat} {run run' : Run} (hrun : s.runs[r]? = some run)
    (hp : s'.producers = s.producers) (hlen : s.queues.length ≤ s'.queues.length)
    (hq : ∀ n < s.queues.length, ¬run.Owns n → s'.queue n = s.queue n)
    (hr : ∀ j, s'.runs[j]? = if r = j then some run' else s.runs[j]?)
    (ho : ∀ m, run'.Owns m → run.Owns m ∨ s.queues.length ≤ m ∧ m < s'.queues.length) :
    Effect (some r) touched [] s s' := by
  refine ⟨h.set_run hp hlen hr fun m hm => ?_, fun j _ hj => ?_, fun j x hj hx => ?_, hlen,
    (List.forall_mem_nil _), fun n hn hown => ?_⟩
  · exact (ho m hm).imp_left fun hm => ⟨run, hrun, hm⟩
  · rw [hr, if_neg fun hrj : r = j => hj (by rw [hrj])]
  · have hlt := (List.getElem?_eq_some_iff.mp hrun).1
    rw [hr, if_neg (by omega), List.getElem?_eq_none hj] at hx
    cases hx
  · exact .of_eq (hq n hn (hown r run rfl hrun)) hp

theorem Effect.frame_of_none (h : Effect none touched handed s s') (hn : n < s.queues.length) :
    Frame n touched handed s s' :=
  h.frame n hn fun _ _ hno => absurd hno.symm (Option.some_ne_none _)

theorem Effect.mono {r : Option Nat} (h : Effect r touched handed s s')
    (ht : ∀ i ∈ touched, i ∈ touched') : Effect r touched' handed s s' := by
  refine ⟨h.sound, h.runs_eq, h.runs_new, h.length_le, h.handed_fed, fun n hn hown => ?_⟩
  have hf := h.frame n hn hown
  exact ⟨hf.queue_eq, hf.feeds, fun i k hi hk => hf.holds i k (fun hmem => hi (ht i hmem)) hk⟩

/-- An action on producers is also one of a call. -/
theorem Effect.of_none (h : Effect none touched handed s s') (r : Nat) :
    Effect (some r) touched handed s s' :=
  ⟨h.sound, fun j hj _ => h.runs_eq j hj fun hno => (nomatch hno), h.runs_new, h.length_le,
    h.handed_fed, fun _ hn _ => h.frame_of_none hn⟩

/-- An action on producers, followed by one on a call. -/
theorem Effect.trans {r : Nat} (h : Effect (some r) touched handed s s') (hr : s'.runs = s.runs)
    (h' : Effect (some r) touched [] s' s'') : Effect (some r) touched handed s s'' := by
  have hlen := h.length_le
  refine ⟨h'.sound, fun j hj hne => ?_, fun j x hj hx => h'.runs_new j x (hr ▸ hj) hx,
    Nat.le_trans hlen h'.length_le, h.handed_fed, fun n hn hown => ?_⟩
  · rw [h'.runs_eq j (hr ▸ hj) hne, hr]
  · have hf := (h.frame n hn hown).trans (h'.frame n (by omega) (hr ▸ hown))
    rwa [List.append_nil] at hf

theorem runs_setStage {r : Nat} {run : Run} (h : s.runs[r]? = some run) (stage : Run.Stage)
    (j : Nat) :
    (s.setStage r stage).runs[j]? = if r = j then some { run with stage } else s.runs[j]? := by
  unfold setStage
  rw [List.getElem?_modify]
  split
  · rename_i hj
    subst hj
    rw [h]
    rfl
  · simp

theorem runs_setRun {r : Nat} {run : Run} (h : s.runs[r]? = some run) (run' : Run) (j : Nat) :
    (s.setRun r run').runs[j]? = if r = j then some run' else s.runs[j]? := by
  unfold setRun
  rw [List.getElem?_set]
  have hr := (List.getElem?_eq_some_iff.mp h).1
  split
  · rename_i hj
    subst hj
    rfl
  · rfl

/-- A call goes to another stage, after something that happens to its own queues at most. -/
theorem Sound.effect_stage {t : Session} (h : s.Sound) {r : Nat} {run : Run} {stage : Run.Stage}
    (hrun : s.runs[r]? = some run) (hp : t.producers = s.producers) (hr : t.runs = s.runs)
    (hlen : s.queues.length ≤ t.queues.length)
    (hq : ∀ n < s.queues.length, ¬run.Owns n → t.queue n = s.queue n)
    (ho : ∀ m, stage.queue? = some m → run.stage.queue? = some m ∨
      s.queues.length ≤ m ∧ m < t.queues.length) :
    Effect (some r) touched [] s (t.setStage r stage) := by
  have hruns : ∀ j, (t.setStage r stage).runs[j]? =
      if r = j then some { run with stage } else s.runs[j]? := by
    intro j
    rw [runs_setStage (hr ▸ hrun), hr]
  refine h.effect_run hrun hp hlen hq hruns fun m hm => ?_
  rcases hm with hm | hm
  · exact (ho m hm).imp_left .inl
  · exact .inl (.inr hm)

end

end Session

end ListMode
