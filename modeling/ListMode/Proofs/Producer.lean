import Mathlib.Data.List.Nodup
import ListMode.Producer
import ListMode.Proofs.Polling
import ListMode.Proofs.Spill

/-!
# What a producer may do to its tasks

`Moves` says what every operation of a digitizer or a replay but a start leaves true: no polling
task appears, none changes its queue, and what is handed over comes from a task and carries no run
metadata. A start adds one task, which the slot then holds.
-/

namespace ListMode

namespace Acquisition

/-- None of the spills still to come carries run metadata. -/
def Runless (a : Acquisition) : Prop :=
  match a.work with
  | .synthetic _ => True
  | .replay w => ∀ s ∈ w.pending, s.run = none

theorem run_spill (a : Synthetic.Acquisition) (hits : List Hit) : (a.spill hits).run = none := by
  unfold Synthetic.Acquisition.spill
  split <;> rfl

theorem run_synthetic_stopSpill (a : Synthetic.Acquisition) (r : Reading) :
    (a.stopSpill r).run = none := by
  rw [Synthetic.Acquisition.stopSpill, ← List.foldl_map, Spill.run_withStats, run_spill]

theorem run_stopSpill (a : Acquisition) (r : Reading) : (a.stopSpill r).run = none := by
  unfold stopSpill
  split
  · exact run_synthetic_stopSpill _ r
  · rw [Replay.Acquisition.stopSpill, ← List.foldl_map, Spill.run_withStats]
    rfl

theorem run_synthetic_tick {a : Synthetic.Acquisition} {r : Reading}
    {o : Readout Synthetic.Acquisition} (h : a.tick? r = some o) :
    ∀ s ∈ o.spills, s.run = none := by
  unfold Synthetic.Acquisition.tick? at h
  obtain ⟨⟨spill, a'⟩, hread, ho⟩ := Option.bind_eq_some_iff.mp h
  have hspill : spill.run = none := by
    unfold Synthetic.Acquisition.read? at hread
    obtain ⟨⟨drawn, after⟩, -, hread⟩ := Option.bind_eq_some_iff.mp hread
    obtain rfl := (Prod.mk.inj (Option.some.inj hread)).1
    rw [Spill.run_withStats, run_spill]
  obtain rfl := Option.some.inj ho
  intro s hs
  split at hs
  · rcases List.mem_cons.mp hs with rfl | hs
    · exact hspill
    · rw [List.mem_singleton.mp hs, run_synthetic_stopSpill]
  · rw [List.mem_singleton.mp hs, hspill]

/-- A readout hands over no run metadata, and the acquisition goes on into the same queue. -/
theorem Runless.tick {a : Acquisition} (h : a.Runless) {r : Reading} {o : Readout Acquisition}
    (ho : a.tick? r = some o) :
    (∀ s ∈ o.spills, s.run = none) ∧ ∀ a', o.next = some a' → a'.Runless ∧ a'.queue = a.queue := by
  unfold Runless at h
  unfold tick? at ho
  cases hw : a.work with
  | synthetic w =>
    rw [hw] at ho
    obtain ⟨o', ho', rfl⟩ := Option.map_eq_some_iff.mp ho
    refine ⟨run_synthetic_tick ho', fun a' ha' => ?_⟩
    obtain ⟨w', -, rfl⟩ := Option.map_eq_some_iff.mp ha'
    exact ⟨trivial, rfl⟩
  | replay w =>
    rw [hw] at h ho
    obtain rfl := Option.some.inj ho
    dsimp only at h
    unfold Replay.Acquisition.tick
    cases hp : w.pending with
    | nil =>
      refine ⟨fun _ hs => (nomatch hs), fun a' ha' => ?_⟩
      obtain rfl := Option.some.inj ha'
      refine ⟨?_, rfl⟩
      unfold Runless
      dsimp only
      rw [hp]
      exact fun _ hs => nomatch hs
    | cons s pending =>
      rw [hp] at h
      refine ⟨fun s' hs' => ?_, fun a' ha' => ?_⟩
      · rw [List.mem_singleton.mp hs']
        exact h s (by simp)
      · obtain rfl := Option.some.inj ha'
        exact ⟨fun s' hs' => h s' (List.mem_cons_of_mem _ hs'), rfl⟩

end Acquisition

namespace Producer

/-- A digitizer or a replay, whose recording carries no run metadata. -/
structure Real (p : Producer) : Prop where
  ne_scripted : ∀ s, p.device ≠ .scripted s
  recording : ∀ spills interval settings, p.device = .replay spills interval settings →
    ∀ s ∈ spills, s.run = none
  runless : ∀ t ∈ p.slot.tasks, t.work.Runless
  numbers : (p.slot.tasks.map (·.number)).Nodup
  number_lt : ∀ t ∈ p.slot.tasks, t.number < p.slot.started

/-- A digitizer, or a replay of a recording without run metadata, that has just been made. -/
inductive Made : Producer → Prop where
  | synthetic (id : String) (config : Synthetic.Config) : Made (.synthetic id config)
  | replay (id : String) (recording : List Spill) (interval : Nat)
      (h : ∀ s ∈ recording, s.run = none) : Made (.replay id recording interval)

theorem Made.real {p : Producer} (h : p.Made) : p.Real := by
  cases h with
  | synthetic id config =>
    refine ⟨fun _ hs => ?_, fun _ _ _ hs => ?_, fun _ ht => (nomatch ht), .nil,
      fun _ ht => nomatch ht⟩
    · cases hs
    · cases hs
  | replay id recording interval h =>
    refine ⟨fun _ hs => ?_, fun _ _ _ hs => ?_, fun _ ht => (nomatch ht), .nil,
      fun _ ht => nomatch ht⟩
    · cases hs
    · cases hs
      exact h

theorem Made.tasks_eq {p : Producer} (h : p.Made) : p.slot.tasks = [] := by
  cases h with
  | synthetic => rfl
  | replay => rfl

/-- From `p` to `p'` no task appears or changes its queue, and `handed` comes from the tasks. -/
structure Moves (p : Producer) (handed : List Delivery) (p' : Producer) : Prop where
  real : p'.Real
  task : ∀ t' ∈ p'.slot.tasks, ∃ t ∈ p.slot.tasks, t.number = t'.number ∧
    t.work.queue = t'.work.queue
  handed : ∀ d ∈ handed, d.spill.run = none ∧ ∃ t ∈ p.slot.tasks, t.work.queue = d.queue

section

variable {p p' p'' : Producer} {handed handed' : List Delivery}

theorem Moves.refl (h : p.Real) : p.Moves [] p :=
  ⟨h, fun t ht => ⟨t, ht, rfl, rfl⟩, fun _ hd => nomatch hd⟩

theorem Moves.trans (h : p.Moves handed p') (h' : p'.Moves handed' p'') :
    p.Moves (handed ++ handed') p'' := by
  refine ⟨h'.real, fun t'' ht'' => ?_, fun d hd => ?_⟩
  · obtain ⟨t', ht', hn', hq'⟩ := h'.task t'' ht''
    obtain ⟨t, ht, hn, hq⟩ := h.task t' ht'
    exact ⟨t, ht, hn.trans hn', hq.trans hq'⟩
  · rcases List.mem_append.mp hd with hd | hd
    · exact h.handed d hd
    · obtain ⟨hr, t', ht', hq'⟩ := h'.handed d hd
      obtain ⟨t, ht, -, hq⟩ := h.task t' ht'
      exact ⟨hr, t, ht, hq.trans hq'⟩

/-- A change of device or status that keeps the kind of device. -/
theorem Real.moves_of_slot_eq (h : p.Real) (hslot : p'.slot = p.slot)
    (hdevice : ∀ s, p'.device ≠ .scripted s)
    (hrec : ∀ spills interval settings, p'.device = .replay spills interval settings →
      ∀ s ∈ spills, s.run = none) : p.Moves [] p' := by
  refine ⟨⟨hdevice, hrec, ?_, ?_, ?_⟩, ?_, fun _ hd => nomatch hd⟩
  · rw [hslot]
    exact h.runless
  · rw [hslot]
    exact h.numbers
  · rw [hslot]
    exact h.number_lt
  · rw [hslot]
    exact fun t ht => ⟨t, ht, rfl, rfl⟩

/-- A task that ends leaves the others as they are. -/
theorem Real.moves_of_sublist (h : p.Real) {slot : Polling.Slot Acquisition}
    (hs : slot.tasks.Sublist p.slot.tasks) (hn : slot.started = p.slot.started)
    (hd : ∀ d ∈ handed, d.spill.run = none ∧ ∃ t ∈ p.slot.tasks, t.work.queue = d.queue) :
    p.Moves handed { p with slot } := by
  refine ⟨⟨h.ne_scripted, h.recording, fun t ht => h.runless t (hs.subset ht),
    h.numbers.sublist (hs.map _), fun t ht => ?_⟩, fun t ht => ⟨t, hs.subset ht, rfl, rfl⟩, hd⟩
  have := h.number_lt t (hs.subset ht)
  change t.number < slot.started
  omega

theorem tick?_next {n time : Nat} {now : Instant} {t : Polling.Task Acquisition}
    {spills : List Spill} {work : Acquisition} (ht : p.slot.task? n = some t)
    (h : t.work.tick? (t.work.reading time now) = some ⟨spills, some work⟩) :
    p.tick? n time now = some (spills.map (⟨t.work.queue, ·⟩),
      { p with slot := p.slot.modify n fun t => { t with work } }) := by
  unfold tick?
  rw [ht, Option.map_some, h]

theorem tick?_crash {n time : Nat} {now : Instant} {t : Polling.Task Acquisition}
    (ht : p.slot.task? n = some t) (h : t.work.tick? (t.work.reading time now) = none) :
    p.tick? n time now = some ([], { p with slot := p.slot.crash n }) := by
  unfold tick?
  rw [ht, Option.map_some, h]

/-- A changed task keeps its number and its queue. -/
theorem Real.moves_of_modify (h : p.Real) {n : Nat}
    {f : Polling.Task Acquisition → Polling.Task Acquisition} {slot : Polling.Slot Acquisition}
    (hs : slot.tasks = p.slot.tasks.map fun t => if t.number == n then f t else t)
    (hstarted : slot.started = p.slot.started)
    (hf : ∀ t ∈ p.slot.tasks, t.number = n →
      (f t).number = t.number ∧ (f t).work.queue = t.work.queue ∧ (f t).work.Runless)
    (hd : ∀ d ∈ handed, d.spill.run = none ∧ ∃ t ∈ p.slot.tasks, t.work.queue = d.queue) :
    p.Moves handed { p with slot } := by
  have key : ∀ t' ∈ slot.tasks, ∃ t ∈ p.slot.tasks, t.number = t'.number ∧
      t.work.queue = t'.work.queue ∧ t'.work.Runless := by
    intro t' ht'
    rw [hs] at ht'
    obtain ⟨t, ht, rfl⟩ := List.mem_map.mp ht'
    refine ⟨t, ht, ?_⟩
    split
    · rename_i hn
      obtain ⟨h1, h2, h3⟩ := hf t ht (by simpa using hn)
      exact ⟨h1.symm, h2.symm, h3⟩
    · exact ⟨rfl, rfl, h.runless t ht⟩
  have hnumbers : slot.tasks.map (·.number) = p.slot.tasks.map (·.number) := by
    rw [hs, List.map_map]
    refine List.map_congr_left fun t ht => ?_
    rw [Function.comp_apply]
    split
    · rename_i hn
      exact (hf t ht (by simpa using hn)).1
    · rfl
  refine ⟨⟨h.ne_scripted, h.recording, fun t' ht' => ?_, ?_, fun t' ht' => ?_⟩,
    fun t' ht' => ?_, hd⟩
  · obtain ⟨t, -, -, -, hr⟩ := key t' ht'
    exact hr
  · rw [hnumbers]
    exact h.numbers
  · obtain ⟨t, ht, hn, -⟩ := key t' ht'
    have := h.number_lt t ht
    change t'.number < slot.started
    omega
  · obtain ⟨t, ht, hn, hq, -⟩ := key t' ht'
    exact ⟨t, ht, hn, hq⟩

theorem Real.tick (h : p.Real) {n time : Nat} {now : Instant}
    (ht : p.tick? n time now = some (handed, p')) :
    p.Moves handed p' ∧ p'.slot.held = p.slot.held := by
  obtain ⟨t, hn, ht⟩ := Option.map_eq_some_iff.mp ht
  obtain ⟨hmem, hnum⟩ := Polling.Slot.task?_eq_some hn
  split at ht
  · obtain ⟨rfl, rfl⟩ := Prod.mk.inj ht
    exact ⟨h.moves_of_sublist List.filter_sublist rfl (List.forall_mem_nil _), rfl⟩
  · rename_i o ho
    obtain ⟨rfl, rfl⟩ := Prod.mk.inj ht
    obtain ⟨hrun, hnext⟩ := (h.runless t hmem).tick ho
    have hhanded : ∀ d ∈ o.spills.map (Delivery.mk t.work.queue), d.spill.run = none ∧
        ∃ t ∈ p.slot.tasks, t.work.queue = d.queue := by
      intro d hd
      obtain ⟨s, hs, rfl⟩ := List.mem_map.mp hd
      exact ⟨hrun s hs, t, hmem, rfl⟩
    cases ho' : o.next with
    | none => exact ⟨h.moves_of_sublist List.filter_sublist rfl hhanded, rfl⟩
    | some work =>
      obtain ⟨hless, hqueue⟩ := hnext work ho'
      refine ⟨h.moves_of_modify rfl rfl (fun t' ht' hn' => ?_) hhanded, rfl⟩
      obtain rfl := List.inj_on_of_nodup_map h.numbers ht' hmem (hn'.trans hnum.symm)
      exact ⟨rfl, hqueue, hless⟩

theorem Real.notice (h : p.Real) {n time : Nat} {now : Instant}
    (ht : p.notice? n time now = some (handed, p')) :
    p.Moves handed p' ∧ p'.slot.held = p.slot.held := by
  unfold notice? at ht
  split at ht
  · rename_i t hn
    obtain ⟨hmem, -⟩ := Polling.Slot.task?_eq_some hn
    split at ht
    · obtain ⟨rfl, rfl⟩ := Prod.mk.inj (Option.some.inj ht)
      refine ⟨h.moves_of_sublist List.filter_sublist rfl fun d hd => ?_, rfl⟩
      rw [List.mem_singleton.mp hd]
      exact ⟨Acquisition.run_stopSpill t.work _, t, hmem, rfl⟩
    · cases ht
  · cases ht

theorem Real.letGo (h : p.Real) : p.Moves [] { p with slot := p.slot.letGo } := by
  refine ⟨⟨h.ne_scripted, h.recording, fun t ht => ?_, ?_, fun t ht => ?_⟩, fun t ht => ?_,
    List.forall_mem_nil _⟩
  · obtain ⟨t', ht', -, hwork⟩ := Polling.Slot.mem_letGo ht
    exact hwork ▸ h.runless t' ht'
  · rw [Polling.Slot.map_number_letGo]
    exact h.numbers
  · obtain ⟨t', ht', hnumber, -⟩ := Polling.Slot.mem_letGo ht
    exact hnumber ▸ h.number_lt t' ht'
  · obtain ⟨t', ht', hnumber, hwork⟩ := Polling.Slot.mem_letGo ht
    exact ⟨t', ht', hnumber, congrArg Acquisition.queue hwork⟩

/-- A stop that begins lets go of the task and asks it. -/
theorem Real.beginStop (h : p.Real) (time : Nat) :
    p.Moves [] (p.beginStop time).2.2 ∧ (p.beginStop time).2.1 = [] ∧
    ∀ n, p.slot.held = some n → ∃ wasAlive, (p.beginStop time).1 = .task ⟨n, wasAlive⟩ := by
  unfold Producer.beginStop
  split
  · rename_i s hs
    exact absurd hs (h.ne_scripted s)
  · unfold Polling.Slot.beginStop
    cases hheld : p.slot.held with
    | none => exact ⟨h.letGo, rfl, fun _ hn => nomatch hn⟩
    | some n =>
      refine ⟨h.letGo, rfl, fun k hk => ?_⟩
      obtain rfl := Option.some.inj hk
      exact ⟨_, rfl⟩

/-- A stop is complete when the task it waits for has ended. -/
theorem Real.endStop (h : p.Real) {time : Nat} {stopping : Stopping} {wasRunning : Bool}
    (he : p.endStop? time stopping = some (wasRunning, handed, p')) :
    p.Moves [] p' ∧ handed = [] ∧ p'.slot.held = p.slot.held ∧
    ∀ r, stopping = .task r → ∀ t ∈ p'.slot.tasks, t.number ≠ r.number := by
  unfold endStop? at he
  split at he
  · obtain ⟨-, hh⟩ := Prod.mk.inj (Option.some.inj he)
    obtain ⟨rfl, rfl⟩ := Prod.mk.inj hh
    exact ⟨Moves.refl h, rfl, rfl, fun _ hr => Stopping.noConfusion hr⟩
  · rename_i r
    obtain ⟨⟨alive, slot⟩, hslot, hh⟩ := Option.map_eq_some_iff.mp he
    obtain ⟨-, hh⟩ := Prod.mk.inj hh
    obtain ⟨rfl, rfl⟩ := Prod.mk.inj hh
    unfold Polling.Slot.endStop? at hslot
    split at hslot
    · cases hslot
    · rename_i hgone
      have hnot : ∀ t ∈ p.slot.tasks, t.number ≠ r.number := by
        intro t ht hn
        refine hgone ?_
        rw [Polling.Slot.task?, List.find?_isSome]
        exact ⟨t, ht, by simpa using hn⟩
      have hfields : slot.tasks = p.slot.tasks ∧ slot.started = p.slot.started ∧
          slot.held = p.slot.held := by
        split at hslot
        · obtain ⟨-, rfl⟩ := Prod.mk.inj (Option.some.inj hslot)
          exact ⟨rfl, rfl, rfl⟩
        · obtain ⟨-, rfl⟩ := Prod.mk.inj (Option.some.inj hslot)
          exact ⟨rfl, rfl, rfl⟩
      obtain ⟨htasks, hstarted, hheld⟩ := hfields
      refine ⟨h.moves_of_sublist (htasks ▸ List.Sublist.refl _) hstarted (List.forall_mem_nil _),
        rfl, hheld, fun r' hr' => ?_⟩
      obtain rfl := Stopping.task.inj hr'
      change ∀ t ∈ slot.tasks, _
      rw [htasks]
      exact hnot
  · split at he
    · split at he
      · rename_i s hs
        exact absurd hs (h.ne_scripted s)
      · obtain ⟨-, hh⟩ := Prod.mk.inj (Option.some.inj he)
        obtain ⟨rfl, rfl⟩ := Prod.mk.inj hh
        exact ⟨Moves.refl h, rfl, rfl, fun _ hr => Stopping.noConfusion hr⟩
    · cases he

theorem Real.with_status (h : p.Real) (status : Status) : p.Moves [] { p with status } :=
  h.moves_of_slot_eq rfl h.ne_scripted h.recording

theorem Real.boot (h : p.Real) : p.Moves [] p.boot.2 ∧ p.boot.2.slot.held = p.slot.held := by
  unfold Producer.boot
  split
  · split
    · exact ⟨h.with_status _, rfl⟩
    · split
      · exact ⟨Moves.refl h, rfl⟩
      · exact ⟨h.with_status _, rfl⟩
  · exact ⟨h.with_status _, rfl⟩
  · rename_i s hs
    exact absurd hs (h.ne_scripted s)

theorem Real.write (h : p.Real) (settings : Tree) :
    p.Moves [] (p.write settings).2 ∧ (p.write settings).2.slot.held = p.slot.held := by
  unfold Producer.write
  split
  · split
    · exact ⟨Moves.refl h, rfl⟩
    · split
      · exact ⟨Moves.refl h, rfl⟩
      · refine ⟨h.moves_of_slot_eq rfl (fun _ hs => ?_) fun _ _ _ hs => ?_, rfl⟩
        · cases hs
        · cases hs
  · rename_i spills interval old hd
    refine ⟨h.moves_of_slot_eq rfl (fun _ hs => ?_) fun _ _ _ hs => ?_, rfl⟩
    · cases hs
    · cases hs
      exact h.recording _ _ _ hd
  · rename_i s hs
    exact absurd hs (h.ne_scripted s)

theorem Moves.endStop (h : p.Moves handed p') (time : Nat) (stopping : Stopping) :
    let result := match p'.endStop? time stopping with
      | some (wasRunning, rest, p) => (wasRunning, handed ++ rest, p)
      | none => (false, handed, p')
    p.Moves result.2.1 result.2.2 := by
  dsimp only
  split
  · rename_i wasRunning rest p₃ he
    obtain ⟨hm, rfl, -⟩ := h.real.endStop he
    exact h.trans hm
  · exact h

theorem Real.stop (h : p.Real) (time : Nat) (now : Instant) :
    p.Moves (p.stop time now).2.1 (p.stop time now).2.2 := by
  obtain ⟨hbegin, hfirst, -⟩ := h.beginStop time
  unfold Producer.stop
  generalize p.beginStop time = begun at hbegin hfirst
  obtain ⟨stopping, first, p₁⟩ := begun
  obtain rfl : first = [] := hfirst
  have hp₁ : p.Moves [] p₁ := hbegin
  cases stopping with
  | complete wasRunning => exact hp₁.endStop time (.complete wasRunning)
  | delay wake => exact hp₁.endStop wake (.delay wake)
  | task request =>
    -- The task that is waited for sees the request at once.
    dsimp only
    cases hn : p₁.notice? request.number time now with
    | none => exact hp₁.endStop time (.task request)
    | some noticed =>
      obtain ⟨last, p₂⟩ := noticed
      exact (hp₁.trans (hp₁.real.notice hn).1).endStop time (.task request)

theorem Real.shutdown (h : p.Real) (time : Nat) (now : Instant) :
    p.Moves (p.shutdown time now).2.1 (p.shutdown time now).2.2 := by
  have hstop := h.stop time now
  have hstatus := hstop.trans (hstop.real.with_status .initial)
  rw [List.append_nil] at hstatus
  unfold Producer.shutdown
  split
  · rename_i s hs
    exact absurd hs (h.ne_scripted s)
  · exact hstatus

/-- What a start leads to: nothing, or one more task, which the slot holds in the place of the one
that it has let go of. -/
structure Begins (p : Producer) (l : Launch) (result : Bool × List Delivery × Producer) : Prop where
  handed : result.2.1 = []
  real : result.2.2.Real
  slot : result.1 = false ∧ result.2.2.slot = p.slot ∨
    result.1 = true ∧ result.2.2.slot.held = some p.slot.started ∧
      ∃ work, result.2.2.slot.tasks =
        p.slot.letGo.tasks ++ [⟨p.slot.started, false, ⟨l.queue, l.time, work⟩⟩]

theorem Real.begins (h : p.Real) (l : Launch) (work : Acquisition.Work)
    (hwork : (⟨l.queue, l.time, work⟩ : Acquisition).Runless) :
    p.Begins l ((p.slot.start ⟨l.queue, l.time, work⟩).1, [],
      { p with slot := (p.slot.start ⟨l.queue, l.time, work⟩).2 }) := by
  have hfree := h.letGo.real
  unfold Polling.Slot.start
  split
  · exact ⟨rfl, h, .inl ⟨rfl, rfl⟩⟩
  · refine ⟨rfl, ⟨h.ne_scripted, h.recording, ?_, ?_, ?_⟩, .inr ⟨rfl, rfl, work, rfl⟩⟩
    · intro t ht
      rcases List.mem_append.mp ht with ht | ht
      · exact hfree.runless t ht
      · rw [List.mem_singleton.mp ht]
        exact hwork
    · change ((p.slot.letGo.tasks ++ [_]).map _).Nodup
      rw [List.map_append, List.nodup_append]
      refine ⟨hfree.numbers, by simp, ?_⟩
      rintro a ha b hb rfl
      obtain ⟨t, ht, hta⟩ := List.mem_map.mp ha
      have hlt : t.number < p.slot.started := hfree.number_lt t ht
      have hab : a = p.slot.started := List.mem_singleton.mp hb
      rw [hta] at hlt
      omega
    · intro t ht
      change t.number < p.slot.started + 1
      rcases List.mem_append.mp ht with ht | ht
      · exact Nat.lt_succ_of_lt (hfree.number_lt t ht)
      · rw [List.mem_singleton.mp ht]
        exact Nat.lt_succ_self _

theorem Real.start (h : p.Real) (l : Launch) : p.Begins l (p.start l) := by
  have hrefused : p.Begins l (false, [], p) := ⟨rfl, h, .inl ⟨rfl, rfl⟩⟩
  obtain ⟨id, status, device, slot⟩ := p
  unfold Producer.start
  dsimp only
  cases device with
  | scripted s => exact absurd rfl (h.ne_scripted s)
  | synthetic config =>
    dsimp only
    split
    · exact h.begins l (.synthetic _) trivial
    · exact hrefused
  | replay spills interval settings =>
    have hrec := h.recording spills interval settings rfl
    dsimp only
    split
    · exact h.begins l (.replay (.start id interval spills)) hrec
    · exact hrefused

end

end Producer

end ListMode
