import ListMode.Proofs.Merger.Relabel
import ListMode.Proofs.Producer.Likeness
import ListMode.Proofs.Session.Refusal

/-!
# Twins

Two sessions that differ in what has been written to some of their producers. As long as nobody
starts one of these anew, or begins a run over it, the sessions stay twins: every action is possible
in both or in neither, hands over the same spills and brings every call equally far. Only a snapshot
shows the difference, and so a closing boundary.
-/

namespace ListMode

/-- Metadata of a run in which settings of some producers do not show once it is closing. -/
def RunInfo.veiled (names : List String) (info : RunInfo) : RunInfo :=
  if info.isClosing then { info with settings := info.settings.without names } else info

theorem RunInfo.opaque_veiled (names : List String) : Opaque (veiled names) where
  isClosing_eq info := by
    unfold veiled
    split <;> rfl
  total_eq info n := by
    unfold veiled
    show (if info.isClosing then _ else _) = _
    split <;> rfl

/-- Two producers at place `i`. They are the same, or have been written to. -/
def Producer.Akin (names : List String) (written : List Nat) (i : Nat) (p p' : Producer) : Prop :=
  p.Alike p' ∧ (p' = p ∨ i ∈ written ∧ p.id ∈ names)

/-- No operation but a start tells akin producers apart. -/
theorem Producer.Akin.operate {names : List String} {written : List Nat} {i : Nat}
    {p p' : Producer} (h : Akin names written i p p') {op : Operation} (time : Nat) (now : Instant)
    (hstart : ∀ l, op ≠ .start l) :
    Option.Rel (fun x y => y.1 = x.1 ∧ Akin names written i x.2 y.2) (p.operate? time now op)
      (p'.operate? time now op) := by
  have hstays := h.1.operate time now hstart
  obtain ⟨-, rfl | ⟨hi, hid⟩⟩ := h
  · rcases rel_cases hstays with ⟨hx, -⟩ | ⟨x, y, hx, hy, -, halike, -⟩
    · rw [hx]
      exact .none
    · obtain rfl := Option.some.inj (hx.symm.trans hy)
      rw [hx]
      exact .some ⟨rfl, halike, .inl rfl⟩
  · refine rel_mono hstays fun x y ⟨hhanded, halike, hkept⟩ => ?_
    exact ⟨hhanded, halike, .inr ⟨hi, hkept ▸ hid⟩⟩

/-- What a snapshot shows of a producer. -/
def Producer.shown (p : Producer) : Option (String × Tree) := p.settings.toOption.map (p.id, ·)

/-- The queue as if the spills had been put into it with changed metadata. -/
def Handoff.relabel (f : RunInfo → RunInfo) (q : Handoff Spill) : Handoff Spill :=
  q.map (·.relabel f)

/-- The call as if its worker had taken out the spills with changed metadata. -/
def Run.relabel (f : RunInfo → RunInfo) (run : Run) : Run :=
  { run with worker := run.worker.map (·.relabel f) }

/-- The call has been let in and has still to set its worker going. -/
def Run.Stage.isPreparing : Run.Stage → Bool
  | .opening | .starting .. => true
  | _ => false

namespace Session

/-- The session without its producers, queues and calls. -/
def bare (s : Session) : Session := { s with producers := [], queues := [], runs := [] }

/-- The session after an operation on producer `i`. -/
def operate? (s : Session) (i : Nat) (op : Producer.Operation) : Option Session :=
  (s.producers[i]?).bind fun p => (p.operate? s.time s.now op).map fun x =>
    (s.setProducer i x.2).deliver x.1

/-- Place `i`, unless a start of its producer is refused for an acquisition in progress. -/
def vacancy (s : Session) (i : Nat) : List Nat :=
  if (s.producers[i]?).any (·.isOccupied) then [] else [i]

/-- Places of the producers on whose settings and status it depends what an action does. -/
def consultedAt (s : Session) : Run.Stage → List Nat
  | .opening => s.places
  | .starting _ (i :: _) _ => s.vacancy i
  | .starting _ [] started => started
  | _ => []

def consults (s : Session) : Act → List Nat
  | .start i => s.vacancy i
  | .run r => ((s.runs[r]?).map fun run => s.consultedAt run.stage).getD []
  | _ => []

/-- Sessions that differ in the producers at the places `written`, whose identifiers are among
`names`, and in what a snapshot shows of these. What has been taken from a snapshot is in the
metadata of a closing boundary, in a queue or behind a worker. -/
structure Twin (names : List String) (written : List Nat) (s s' : Session) : Prop where
  bare : s'.bare = s.bare
  producers : ∀ i, Option.Rel (Producer.Akin names written i) s.producers[i]? s'.producers[i]?
  queues : s'.queues.map (·.relabel (.veiled names)) = s.queues.map (·.relabel (.veiled names))
  runs : s'.runs.map (·.relabel (.veiled names)) = s.runs.map (·.relabel (.veiled names))

section

variable {names : List String} {written : List Nat} {s s' t t' : Session} {i n r : Nat}
  {run run' : Run}

/-! ## What twins have in common -/

theorem Twin.time_eq (h : Twin names written s s') : s'.time = s.time :=
  show s'.bare.time = s.bare.time by rw [h.bare]

theorem Twin.now_eq (h : Twin names written s s') : s'.now = s.now :=
  show s'.bare.now = s.bare.now by rw [h.bare]

theorem Twin.phase_eq (h : Twin names written s s') : s'.phase = s.phase :=
  show s'.bare.phase = s.bare.phase by rw [h.bare]

theorem Twin.timing_eq (h : Twin names written s s') : s'.timing = s.timing :=
  show s'.bare.timing = s.bare.timing by rw [h.bare]

theorem Twin.detectors_eq (h : Twin names written s s') : s'.detectors = s.detectors :=
  show s'.bare.detectors = s.bare.detectors by rw [h.bare]

theorem Twin.launch_eq (h : Twin names written s s') (n : Nat) : s'.launch n = s.launch n :=
  show s'.bare.launch n = s.bare.launch n by rw [h.bare]

theorem Twin.at (h : Twin names written s s') {i : Nat} (hi : i ∉ written) :
    s'.producers[i]? = s.producers[i]? := by
  rcases rel_cases (h.producers i) with ⟨hx, hy⟩ | ⟨p, p', hx, hy, -, rfl | ⟨hmem, -⟩⟩
  · rw [hx, hy]
  · rw [hx, hy]
  · exact absurd hmem hi

theorem Twin.length_eq (h : Twin names written s s') :
    s'.producers.length = s.producers.length := by
  have hnone : ∀ i : Nat, s'.producers[i]? = none ↔ s.producers[i]? = none := by
    intro i
    rcases rel_cases (h.producers i) with ⟨hx, hy⟩ | ⟨p, p', hx, hy, -⟩
    · rw [hx, hy]
    · rw [hx, hy]
      exact ⟨nofun, nofun⟩
  exact Nat.le_antisymm
    (List.getElem?_eq_none_iff.mp ((hnone _).mpr (List.getElem?_eq_none (Nat.le_refl _))))
    (List.getElem?_eq_none_iff.mp ((hnone _).mp (List.getElem?_eq_none (Nat.le_refl _))))

theorem Twin.places_eq (h : Twin names written s s') : s'.places = s.places :=
  congrArg List.range h.length_eq

/-- What akin producers have in common, twins have in common. -/
theorem Twin.view {β : Type} {f : Producer → β} (h : Twin names written s s')
    (hf : ∀ i p p', Producer.Akin names written i p p' → f p' = f p) :
    s'.producers.map f = s.producers.map f := by
  refine List.ext_getElem? fun i => ?_
  rw [List.getElem?_map, List.getElem?_map]
  rcases rel_cases (h.producers i) with ⟨hx, hy⟩ | ⟨p, p', hx, hy, hp⟩
  · rw [hx, hy]
  · rw [hx, hy]
    exact congrArg some (hf i p p' hp)

theorem Twin.producers_eq (h : Twin names written s s') (hall : ∀ i ∈ s.places, i ∉ written) :
    s'.producers = s.producers := by
  refine List.ext_getElem? fun i => ?_
  by_cases hi : i < s.producers.length
  · exact h.at (hall i (List.mem_range.mpr hi))
  · rw [List.getElem?_eq_none (by rw [h.length_eq]; omega), List.getElem?_eq_none (by omega)]

theorem map_producersAt {β : Type} (f : Producer → β) (s : Session) (places : List Nat) :
    (s.producersAt places).map f = places.filterMap ((s.producers.map f)[·]?) := by
  unfold producersAt
  rw [List.map_filterMap]
  exact congrArg (List.filterMap · places) (funext fun i => List.getElem?_map.symm)

theorem Twin.isRunning_eq (h : Twin names written s s') (places : List Nat) :
    (s'.producersAt places).any (·.isRunning) = (s.producersAt places).any (·.isRunning) := by
  have hview := h.view (f := (·.isRunning)) fun _ _ _ hp => hp.1.isRunning_eq
  have hany : ∀ t : Session, (t.producersAt places).any (·.isRunning) =
      (places.filterMap ((t.producers.map (·.isRunning))[·]?)).any id := by
    intro t
    rw [← map_producersAt, List.any_map]
    rfl
  rw [hany, hany, hview]

theorem Twin.ids_eq (h : Twin names written s s') (places : List Nat) :
    (s'.producersAt places).map (·.id) = (s.producersAt places).map (·.id) := by
  rw [map_producersAt, map_producersAt, h.view fun _ _ _ hp => hp.1.id_eq]

theorem Twin.producersAt_eq (h : Twin names written s s') {places : List Nat}
    (hall : ∀ i ∈ places, i ∉ written) : s'.producersAt places = s.producersAt places :=
  List.filterMap_congr fun i hi => h.at (hall i hi)

theorem snapshot_eq (s : Session) : s.snapshot = .object (s.producers.filterMap (·.shown)) := by
  unfold snapshot
  refine congrArg (fun f => Tree.object (s.producers.filterMap f)) (funext fun p => ?_)
  unfold Producer.shown
  cases p.settings with
  | error | ok => rfl

/-- Snapshots show the same, but for the producers that were written to. -/
theorem Twin.snapshot (h : Twin names written s s') :
    s'.snapshot.without names = s.snapshot.without names := by
  have hname : ∀ (p : Producer) (e : String × Tree), p.shown = some e → e.1 = p.id := by
    intro p e he
    obtain ⟨t, -, rfl⟩ := Option.map_eq_some_iff.mp he
    rfl
  have hnone : ∀ p : Producer, p.id ∈ names → p.shown.filter (·.1 ∉ names) = none := by
    intro p hp
    refine Option.filter_eq_none_iff.mpr fun e he => ?_
    simp [hname p e he, hp]
  have hview := h.view (f := fun p => p.shown.filter (·.1 ∉ names)) fun i p p' hp => by
    rcases hp.2 with rfl | ⟨-, hmem⟩
    · rfl
    · rw [hnone p hmem, hnone p' (hp.1.id_eq ▸ hmem)]
  have hshown : ∀ t : Session, (t.producers.filterMap (·.shown)).filter (·.1 ∉ names) =
      (t.producers.map fun p => p.shown.filter (·.1 ∉ names)).filterMap id := by
    intro t
    rw [List.filter_filterMap, List.filterMap_map]
    rfl
  rw [snapshot_eq, snapshot_eq, Tree.without_object, Tree.without_object, hshown, hshown, hview]

theorem Twin.calls (h : Twin names written s s') (r : Nat) :
    Option.Rel (fun run run' => run'.relabel (.veiled names) = run.relabel (.veiled names))
      s.runs[r]? s'.runs[r]? := rel_getElem? h.runs r

theorem Twin.queue (h : Twin names written s s') (n : Nat) :
    (s'.queue n).relabel (.veiled names) = (s.queue n).relabel (.veiled names) := by
  unfold Session.queue
  rw [List.getD_eq_getElem?_getD, List.getD_eq_getElem?_getD]
  exact rel_getD (rel_getElem? h.queues n) rfl

/-! ## What keeps twins -/

theorem Twin.setProducer (h : Twin names written s s') {q q' : Producer}
    (hq : Producer.Akin names written i q q') :
    Twin names written (s.setProducer i q) (s'.setProducer i q') := by
  refine ⟨h.bare, fun j => ?_, h.queues, h.runs⟩
  show Option.Rel _ (s.producers.set i q)[j]? (s'.producers.set i q')[j]?
  rw [List.getElem?_set, List.getElem?_set, h.length_eq]
  split
  · rename_i hj
    subst hj
    split
    · exact .some hq
    · exact .none
  · exact h.producers j

theorem Twin.setQueue (h : Twin names written s s') (n : Nat) {q q' : Handoff Spill}
    (hq : q'.relabel (.veiled names) = q.relabel (.veiled names)) :
    Twin names written (s.setQueue n q) (s'.setQueue n q') := by
  refine ⟨h.bare, h.producers, ?_, h.runs⟩
  show (s'.queues.set n q').map _ = (s.queues.set n q).map _
  rw [List.map_set, List.map_set, h.queues, hq]

theorem Twin.put (h : Twin names written s s') (n : Nat) {spill spill' : Spill}
    (hspill : spill'.relabel (.veiled names) = spill.relabel (.veiled names)) :
    Twin names written (s.put n spill) (s'.put n spill') := by
  have hqueue := h.queue n
  refine h.setQueue n ?_
  unfold Handoff.relabel at hqueue ⊢
  rw [Handoff.map_put, Handoff.map_put, hqueue, hspill]

theorem Twin.stopQueue (h : Twin names written s s') (n : Nat) :
    Twin names written (s.setQueue n (s.queue n).stop) (s'.setQueue n (s'.queue n).stop) := by
  have hqueue := h.queue n
  refine h.setQueue n ?_
  unfold Handoff.relabel at hqueue ⊢
  rw [Handoff.map_stop, Handoff.map_stop, hqueue]

theorem Twin.deliver (h : Twin names written s s') (handed : List Delivery) :
    Twin names written (s.deliver handed) (s'.deliver handed) := by
  induction handed generalizing s s' with
  | nil => exact h
  | cons d rest ih => exact ih (h.put d.queue rfl)

theorem Twin.setRun (h : Twin names written s s') (r : Nat)
    (hrun : run'.relabel (.veiled names) = run.relabel (.veiled names)) :
    Twin names written (s.setRun r run) (s'.setRun r run') := by
  refine ⟨h.bare, h.producers, h.queues, ?_⟩
  show (s'.runs.set r run').map _ = (s.runs.set r run).map _
  rw [List.map_set, List.map_set, h.runs, hrun]

/-- A change of a call that does not look at its worker. -/
theorem Twin.modify (h : Twin names written s s') (r : Nat) {f : Run → Run}
    (hf : ∀ run, (f run).relabel (.veiled names) = f (run.relabel (.veiled names))) :
    Twin names written { s with runs := s.runs.modify r f }
      { s' with runs := s'.runs.modify r f } := by
  refine ⟨h.bare, h.producers, h.queues, ?_⟩
  have hmodify : ∀ runs : List Run, (runs.modify r f).map (·.relabel (.veiled names)) =
      (runs.map (·.relabel (.veiled names))).modify r f := by
    intro runs
    refine List.ext_getElem? fun j => ?_
    rw [List.getElem?_map, List.getElem?_modify, List.getElem?_modify, List.getElem?_map]
    cases runs[j]? with
    | none => rfl
    | some run =>
      refine congrArg some ?_
      split
      · exact hf run
      · rfl
  rw [hmodify, hmodify, h.runs]

theorem Twin.setStage (h : Twin names written s s') (r : Nat) {stage stage' : Run.Stage}
    (hstage : stage' = stage) : Twin names written (s.setStage r stage) (s'.setStage r stage') := by
  subst hstage
  exact h.modify r fun _ => rfl

theorem Twin.setPhase (h : Twin names written s s') (phase : Phase) :
    Twin names written { s with phase } { s' with phase } :=
  ⟨congrArg (fun x : Session => { x with phase }) h.bare, h.producers, h.queues, h.runs⟩

theorem Twin.openQueue (h : Twin names written s s') :
    s'.openQueue.1 = s.openQueue.1 ∧ Twin names written s.openQueue.2 s'.openQueue.2 := by
  have hlength := congrArg List.length h.queues
  rw [List.length_map, List.length_map] at hlength
  refine ⟨hlength, h.bare, h.producers, ?_, h.runs⟩
  show (s'.queues ++ [Handoff.new]).map _ = (s.queues ++ [Handoff.new]).map _
  rw [List.map_append, List.map_append, h.queues]

/-! ## Operations -/

theorem Twin.operate (h : Twin names written s s') (i : Nat) {op : Producer.Operation}
    (hstart : ∀ l, op ≠ .start l) :
    Option.Rel (Twin names written) (s.operate? i op) (s'.operate? i op) := by
  refine rel_bind (h.producers i) fun p p' hp => ?_
  rw [h.time_eq, h.now_eq]
  refine rel_map (hp.operate s.time s.now hstart) fun x y hxy => ?_
  rw [hxy.1]
  exact (h.setProducer hxy.2).deliver x.1

theorem boot_eq_operate (s : Session) (i : Nat) :
    (s.bootProducer i).2 = (s.operate? i .boot).getD s := by
  unfold bootProducer operate?
  cases s.producers[i]? with
  | none | some => rfl

theorem write_eq_operate (s : Session) (i : Nat) (settings : Tree) :
    (s.writeProducer i settings).2 = (s.operate? i (.write settings)).getD s := by
  unfold writeProducer operate?
  cases s.producers[i]? with
  | none | some => rfl

theorem ask_eq_operate (s : Session) (i : Nat) :
    (s.askProducer i).2 = (s.operate? i .ask).getD s := by
  unfold askProducer operate?
  cases s.producers[i]? with
  | none | some => rfl

theorem shutdown_eq_operate (s : Session) (i : Nat) :
    (s.shutdownProducer i).2 = (s.operate? i .shutdown).getD s := by
  unfold shutdownProducer operate?
  cases s.producers[i]? with
  | none | some => rfl

theorem await_eq_operate (s : Session) (stop : Nat × Stopping) :
    s.awaitProducer? stop = s.operate? stop.1 (.await stop.2) := by
  unfold awaitProducer? operate?
  refine congrArg (Option.bind _) (funext fun p => ?_)
  unfold Producer.operate?
  dsimp only
  rw [Option.map_map]
  exact Option.map_eq_bind.symm

theorem tick_eq_operate (s : Session) (i n : Nat) : s.tick? i n = s.operate? i (.tick n) :=
  congrArg (Option.bind _) (funext fun _ => Option.map_eq_bind.symm)

theorem notice_eq_operate (s : Session) (i n : Nat) : s.notice? i n = s.operate? i (.notice n) :=
  congrArg (Option.bind _) (funext fun _ => Option.map_eq_bind.symm)

theorem Twin.ask (h : Twin names written s s') (i : Nat) :
    (s'.askProducer i).1 = (s.askProducer i).1 ∧
      Twin names written (s.askProducer i).2 (s'.askProducer i).2 := by
  refine ⟨?_, ?_⟩
  · unfold askProducer
    rcases rel_cases (h.producers i) with ⟨hx, hy⟩ | ⟨p, p', hx, hy, hp⟩
    · rw [hx, hy]
    · rw [hx, hy, h.time_eq]
      exact (hp.1.beginStop s.time).1
  · rw [ask_eq_operate, ask_eq_operate]
    exact rel_getD (h.operate i nofun) h

theorem Twin.awaitAny (h : Twin names written s s') (stops : List (Nat × Stopping)) :
    Option.Rel (fun x y => y.1 = x.1 ∧ Twin names written x.2 y.2) (s.awaitAny? stops)
      (s'.awaitAny? stops) := by
  induction stops with
  | nil => exact .none
  | cons stop rest ih =>
    have hawait : Option.Rel (Twin names written) (s.awaitProducer? stop)
        (s'.awaitProducer? stop) := by
      rw [await_eq_operate, await_eq_operate]
      exact h.operate stop.1 nofun
    unfold awaitAny?
    rcases rel_cases hawait with ⟨hx, hy⟩ | ⟨t, t', hx, hy, ht⟩
    · rw [hx, hy]
      exact rel_map ih fun _ _ hxy => ⟨congrArg (stop :: ·) hxy.1, hxy.2⟩
    · rw [hx, hy]
      exact .some ⟨rfl, ht⟩

/-- A start of a producer that has not been written to, or of one that is acquiring. -/
theorem Twin.start (h : Twin names written s s') {i : Nat} (n : Nat)
    (hoff : ∀ j ∈ s.vacancy i, j ∉ written) :
    (s'.startProducer i n).1 = (s.startProducer i n).1 ∧
      Twin names written (s.startProducer i n).2 (s'.startProducer i n).2 := by
  have hcounted : Twin names written { s with launches := s.launches + 1 }
      { s' with launches := s'.launches + 1 } :=
    ⟨congrArg (fun x : Session => { x with launches := x.launches + 1 }) h.bare, h.producers,
      h.queues, h.runs⟩
  unfold startProducer
  rcases rel_cases (h.producers i) with ⟨hx, hy⟩ | ⟨p, p', hx, hy, hp⟩
  · rw [hx, hy]
    exact ⟨rfl, h⟩
  · rw [hx, hy, h.launch_eq]
    dsimp only
    cases hoccupied : p.isOccupied with
    | true =>
      rw [p.start_occupied hp.1.real hoccupied,
        p'.start_occupied hp.1.real' (by rw [Producer.isOccupied, hp.1.slot_eq]; exact hoccupied)]
      exact ⟨rfl, hcounted.setProducer hp⟩
    | false =>
      have hi : i ∉ written := by
        refine hoff i ?_
        unfold vacancy
        rw [hx, Option.any_some, hoccupied]
        exact List.mem_singleton.mpr rfl
      obtain rfl : p' = p := hp.2.resolve_right fun hmem => hi hmem.1
      have hstarted := Producer.start_real hp.1.real (s.launch n)
      exact ⟨rfl, (hcounted.setProducer ⟨.refl hstarted, .inl rfl⟩).deliver _⟩

/-! ## Steps of a call -/

/-- Calls that agree but for the metadata differ in their workers only. -/
theorem eq_of_relabel {f : RunInfo → RunInfo} (h : run'.relabel f = run.relabel f) :
    run' = { run with worker := run'.worker } ∧
      run'.worker.map (·.relabel f) = run.worker.map (·.relabel f) := by
  obtain ⟨id, timeout, cancelled, faulty, stage, worker⟩ := run
  obtain ⟨id', timeout', cancelled', faulty', stage', worker'⟩ := run'
  obtain ⟨rfl, rfl, rfl, rfl, rfl, hworker⟩ := Run.mk.inj h
  exact ⟨rfl, hworker⟩

theorem Twin.fail (h : Twin names written s s') (r : Nat) (fault : Fault) :
    Twin names written (s.fail r fault) (s'.fail r fault) := (h.setPhase .idle).setStage r rfl

theorem Twin.begin (h : Twin names written s s') (r : Nat) :
    Twin names written (s.begin r) (s'.begin r) := by
  unfold Session.begin
  rw [h.phase_eq]
  split
  · exact (h.setPhase .starting).setStage r rfl
  · exact h.setStage r rfl

theorem Twin.openRun (h : Twin names written s s') (r : Nat)
    (hrun : run'.relabel (.veiled names) = run.relabel (.veiled names))
    (hoff : ∀ i ∈ s.places, i ∉ written) :
    Twin names written (s.openRun r run) (s'.openRun r run') := by
  have hproducers := h.producers_eq hoff
  have hrunnable : s'.runnable = s.runnable := by
    unfold runnable
    rw [h.places_eq, hproducers]
  have hsnapshot : s'.snapshot = s.snapshot := by
    unfold Session.snapshot
    rw [hproducers]
  obtain ⟨hnumber, hopened⟩ := h.openQueue
  rw [(eq_of_relabel hrun).1]
  unfold Session.openRun
  rw [hrunnable]
  split
  · exact h.fail r _
  · dsimp only
    rw [hnumber, hsnapshot, h.now_eq, h.detectors_eq]
    exact (hopened.put _ rfl).setStage r (congrArg (Run.Stage.starting _ · []) hrunnable)

theorem Twin.launchRun (h : Twin names written s s') (r : Nat)
    (hrun : run'.relabel (.veiled names) = run.relabel (.veiled names)) (o : Opened)
    {started : List Nat} (hoff : ∀ i ∈ started, i ∉ written) :
    Twin names written (s.launchRun r run o started) (s'.launchRun r run' o started) := by
  have hproducers := h.producersAt_eq hoff
  have hmerger : s'.merger started = s.merger started := by
    unfold merger awaited
    rw [hproducers, h.detectors_eq]
  rw [(eq_of_relabel hrun).1]
  unfold Session.launchRun
  split
  · exact (h.stopQueue o.queue).fail r _
  · refine (h.setPhase .running).setRun r ?_
    rw [hmerger, h.time_eq, h.timing_eq]

theorem Twin.watch (h : Twin names written s s') (r : Nat)
    (hrun : run'.relabel (.veiled names) = run.relabel (.veiled names)) (l : Launched) (w : Watch) :
    Option.Rel (Twin names written) (s.watch? r run l w) (s'.watch? r run' l w) := by
  have hlook : w.look s'.time run.cancelled ((s'.producersAt l.started).any (·.isRunning)) =
      w.look s.time run.cancelled ((s.producersAt l.started).any (·.isRunning)) := by
    rw [h.time_eq, h.isRunning_eq]
  rw [(eq_of_relabel hrun).1]
  unfold watch?
  rw [hlook]
  split
  · exact .some ((h.setPhase .idle).setStage r rfl)
  · split
    · exact .some ((h.setPhase .stopping).setStage r (by rw [h.time_eq]))
    · split
      · exact .none
      · exact .some (h.setStage r rfl)

theorem Twin.closeRun (h : Twin names written s s') (r : Nat) (e : Ending) :
    Twin names written (s.closeRun r e) (s'.closeRun r e) := by
  unfold Session.closeRun
  rw [h.now_eq]
  refine ((h.setPhase .draining).put e.queue ?_).setStage r rfl
  have hinfo : ∀ tree tree' : Tree, tree'.without names = tree.without names →
      (e.info.closing s.now tree').veiled names = (e.info.closing s.now tree).veiled names := by
    intro tree tree' htree
    show { e.info with timeStop := some s.now, settings := tree'.without names } =
      { e.info with timeStop := some s.now, settings := tree.without names }
    rw [htree]
  unfold Spill.relabel Spill.boundary
  dsimp only [Option.map_some]
  rw [hinfo _ _ h.snapshot]
  rfl

theorem Twin.drain (h : Twin names written s s') (r : Nat) (e : Ending) (wake : Option Nat) :
    Option.Rel (Twin names written) (s.drain? r e wake) (s'.drain? r e wake) := by
  have hempty : (s'.queue e.queue).isEmpty = (s.queue e.queue).isEmpty := by
    have hitems := congrArg (fun q : Handoff Spill => q.items.isEmpty) (h.queue e.queue)
    unfold Handoff.relabel Handoff.map at hitems
    dsimp only at hitems
    rwa [List.isEmpty_map, List.isEmpty_map] at hitems
  unfold drain?
  rw [h.time_eq, hempty, h.timing_eq]
  split
  · split
    · exact .some (h.setStage r rfl)
    · exact .none
  · split
    · exact .some (h.setStage r rfl)
    · exact .some (h.setStage r rfl)

theorem Twin.collect (h : Twin names written s s') (r : Nat)
    (hrun : run'.relabel (.veiled names) = run.relabel (.veiled names)) (e : Ending) :
    Option.Rel (Twin names written) (s.collect? r run e) (s'.collect? r run' e) := by
  have hworker := (eq_of_relabel hrun).2
  unfold collect?
  cases hw : run.worker with
  | none =>
    rw [hw, Option.map_none] at hworker
    rw [Option.map_eq_none_iff.mp hworker]
    exact .none
  | some w =>
    rw [hw, Option.map_some] at hworker
    obtain ⟨w', hw', hrelabel⟩ := Option.map_eq_some_iff.mp hworker
    have hstage : w'.stage = w.stage :=
      show (w'.relabel (.veiled names)).stage = (w.relabel (.veiled names)).stage by rw [hrelabel]
    have hreport : w'.merger.report = w.merger.report :=
      show (w'.relabel (.veiled names)).merger.report = (w.relabel (.veiled names)).merger.report by
        rw [hrelabel]
    rw [hw']
    dsimp only
    rw [hstage, hreport]
    split
    · exact .some (h.setStage r rfl)
    · exact .some (h.fail r _)
    · exact .none

theorem Twin.seal (h : Twin names written s s') (r : Nat)
    (hrun : run'.relabel (.veiled names) = run.relabel (.veiled names)) (e : Ending)
    (report : Report) :
    Twin names written (s.sealRun r run e report) (s'.sealRun r run' e report) := by
  obtain ⟨heq, hworker⟩ := eq_of_relabel hrun
  have hclose : ∀ worker : Option Worker,
      (worker.map fun w => { w with merger.sink := w.merger.sink.close }).map
        (·.relabel (.veiled names)) =
      (worker.map (·.relabel (.veiled names))).map fun w =>
        { w with merger.sink := w.merger.sink.close } := by
    intro worker
    cases worker with
    | none => rfl
    | some w =>
      refine congrArg some ?_
      unfold Worker.relabel Merger.relabel
      dsimp only
      rw [Sink.relabel_close]
  rw [heq]
  unfold Session.sealRun
  refine (h.setPhase .idle).setRun r ?_
  unfold Run.relabel
  dsimp only
  rw [hclose, hclose, hworker, h.ids_eq, h.time_eq]

/-- Calls go on in both sessions or in neither. -/
theorem Twin.step (h : Twin names written s s') (r : Nat)
    (hoff : ∀ i ∈ s.consults (.run r), i ∉ written) :
    Option.Rel (Twin names written) (s.step? r) (s'.step? r) := by
  unfold step?
  rcases rel_cases (h.calls r) with ⟨hx, hy⟩ | ⟨run, run', hx, hy, hrun⟩
  · rw [hx, hy]
    exact .none
  have hconsults : s.consults (.run r) = s.consultedAt run.stage := by
    show ((s.runs[r]?).map fun run => s.consultedAt run.stage).getD [] = _
    rw [hx]
    rfl
  rw [hconsults] at hoff
  have hstage : run'.stage = run.stage := by rw [(eq_of_relabel hrun).1]
  rw [hx, hy]
  show Option.Rel _ (Option.bind (some run) _) (Option.bind (some run') _)
  rw [Option.bind_some, Option.bind_some, hstage]
  cases hst : run.stage with
  | called => exact .some (h.begin r)
  | opening =>
    rw [hst] at hoff
    exact .some (h.openRun r hrun hoff)
  | starting o todo started =>
    rw [hst] at hoff
    cases todo with
    | nil => exact .some (h.launchRun r hrun o hoff)
    | cons i todo =>
      obtain ⟨haccepted, hstarted⟩ := h.start o.queue hoff
      exact .some (hstarted.setStage r (congrArg (fun accepted : Bool =>
        Run.Stage.starting o todo (if accepted then started ++ [i] else started)) haccepted))
  | running l w => exact h.watch r hrun l w
  | asking e todo stops =>
    cases todo with
    | nil => exact .some (h.setStage r rfl)
    | cons i todo =>
      obtain ⟨hstopping, hasked⟩ := h.ask i
      exact .some (hasked.setStage r (congrArg (fun stopping =>
        Run.Stage.asking e todo (stops ++ [(i, stopping)])) hstopping))
  | awaiting e stops =>
    cases stops with
    | nil => exact .some (h.closeRun r e)
    | cons stop stops =>
      refine rel_bind (h.awaitAny (stop :: stops)) fun x y hxy => .some (hxy.2.setStage r ?_)
      rw [hxy.1]
  | draining e wake => exact h.drain r e wake
  | emptied e => exact .some ((h.stopQueue e.queue).setStage r rfl)
  | finishing e => exact h.collect r hrun e
  | sealing e report => exact .some (h.seal r hrun e report)
  | releasing outcome => exact .some ((h.setPhase .idle).setStage r rfl)
  | returned | dropped | crashed => exact .none

theorem Twin.work (h : Twin names written s s') (r : Nat) :
    Option.Rel (Twin names written) (s.work? r) (s'.work? r) := by
  unfold work?
  refine rel_bind (h.calls r) fun run run' hrun => ?_
  obtain ⟨heq, hworker⟩ := eq_of_relabel hrun
  refine rel_bind (rel_of_map hworker) fun w w' hw => ?_
  have hqueue : w'.queue = w.queue :=
    show (w'.relabel (.veiled names)).queue = (w.relabel (.veiled names)).queue by rw [hw]
  have hstep := Worker.relabel_step? (RunInfo.opaque_veiled names) w (s.queue w.queue)
  have hstep' := Worker.relabel_step? (RunInfo.opaque_veiled names) w' (s'.queue w'.queue)
  have hseen := h.queue w.queue
  unfold Handoff.relabel at hseen
  rw [hw, hqueue, hseen, hstep] at hstep'
  rw [hqueue]
  refine rel_bind (rel_of_map hstep'.symm) fun x y hxy => .some ?_
  obtain ⟨hstepped, htaken⟩ := Prod.mk.inj hxy
  have hqueue : y.1.queue = x.1.queue :=
    show (y.1.relabel (.veiled names)).queue = (x.1.relabel (.veiled names)).queue by
      rw [hstepped]
  show Twin _ _ ((s.setQueue x.1.queue x.2).setRun r { run with worker := some x.1 })
    ((s'.setQueue y.1.queue y.2).setRun r { run' with worker := some y.1 })
  rw [hqueue, heq]
  refine (h.setQueue x.1.queue htaken).setRun r ?_
  unfold Run.relabel
  dsimp only [Option.map_some]
  rw [hstepped]

theorem Twin.drop (h : Twin names written s s') (r : Nat) :
    Twin names written (s.drop r) (s'.drop r) := by
  unfold Session.drop
  rcases rel_cases (h.calls r) with ⟨hx, hy⟩ | ⟨run, run', hx, hy, hrun⟩
  · rw [hx, hy]
    exact h
  · have hstage : run'.stage = run.stage := by rw [(eq_of_relabel hrun).1]
    rw [hx, hy]
    dsimp only
    rw [hstage]
    split
    · exact h
    · exact h
    · exact h
    · exact h.setStage r rfl
    · exact (h.setPhase .idle).setStage r rfl

theorem Twin.call (h : Twin names written s s') (id : RunId) (timeout : Option Nat)
    (faulty : Bool) : Twin names written (s.call id timeout faulty).2
      (s'.call id timeout faulty).2 := by
  refine ⟨h.bare, h.producers, h.queues, ?_⟩
  unfold Session.call
  dsimp only
  rw [List.map_append, List.map_append, h.runs]

theorem Twin.wait (h : Twin names written s s') (ms : Nat) :
    Twin names written { s with time := s.time + ms } { s' with time := s'.time + ms } :=
  ⟨congrArg (fun x : Session => { x with time := x.time + ms }) h.bare, h.producers, h.queues,
    h.runs⟩

/-- An action that consults no producer that was written to is possible in both sessions or in
neither. -/
theorem Twin.act (h : Twin names written s s') {a : Act}
    (hoff : ∀ i ∈ s.consults a, i ∉ written) :
    Option.Rel (Twin names written) (s.act? a) (s'.act? a) := by
  have hoperate : ∀ {i : Nat} {op : Producer.Operation}, (∀ l, op ≠ .start l) →
      Option.Rel (Twin names written) (s.operate? i op) (s'.operate? i op) :=
    fun hstart => h.operate _ hstart
  cases a with
  | run r => exact h.step r hoff
  | work r => exact h.work r
  | tick i n =>
    show Option.Rel _ (s.tick? i n) (s'.tick? i n)
    rw [tick_eq_operate, tick_eq_operate]
    exact h.operate i nofun
  | notice i n =>
    show Option.Rel _ (s.notice? i n) (s'.notice? i n)
    rw [notice_eq_operate, notice_eq_operate]
    exact h.operate i nofun
  | wait ms => exact .some (h.wait ms)
  | call id timeout faulty => exact .some (h.call id timeout faulty)
  | cancel r => exact .some (h.modify r fun _ => rfl)
  | drop r => exact .some (h.drop r)
  | boot i =>
    refine .some ?_
    rw [boot_eq_operate, boot_eq_operate]
    exact rel_getD (h.operate i nofun) h
  | write i settings =>
    refine .some ?_
    rw [write_eq_operate, write_eq_operate]
    exact rel_getD (h.operate i nofun) h
  | start i =>
    obtain ⟨hnumber, hopened⟩ := h.openQueue
    refine .some ?_
    rw [hnumber]
    exact (hopened.start _ hoff).2
  | ask i => exact .some (h.ask i).2
  | await i stopping =>
    show Option.Rel _ (s.awaitProducer? (i, stopping)) (s'.awaitProducer? (i, stopping))
    rw [await_eq_operate, await_eq_operate]
    exact h.operate i nofun
  | shutdown i =>
    refine .some ?_
    rw [shutdown_eq_operate, shutdown_eq_operate]
    exact rel_getD (h.operate i nofun) h

end

end Session

end ListMode
