import ListMode.Proofs.Session.Operations
import ListMode.Proofs.Synthetic.Flow

/-!
# What a digitizer hands to one queue

A producer that is a digitizer hands the spills of at most one acquisition to a queue. `Flowing`
follows that acquisition through every operation on the producer.
-/

namespace ListMode

namespace Producer

/-- What those of the tasks work on that hand their spills to queue `n`. -/
def feedingOf (n : Nat) (tasks : List (Polling.Task Acquisition)) : List Acquisition.Work :=
  (tasks.filter fun t => decide (t.work.queue = n)).map (·.work.work)

/-- What the tasks of a producer work on that hand their spills to queue `n`. -/
def feeding (p : Producer) (n : Nat) : List Acquisition.Work := feedingOf n p.slot.tasks

/-- Digitizer `id` has handed `spills`, of the readouts `reads`, to queue `n`. One task goes on
doing so, or the acquisition is over. -/
structure Flowing (id : String) (config : Synthetic.Config) (n : Nat) (spills : List Spill)
    (reads : List Synthetic.Acquisition) (p : Producer) : Prop where
  id_eq : p.id = id
  device_eq : p.device = .synthetic config
  course : (∃ a, p.feeding n = [.synthetic a] ∧ Synthetic.Running id config spills reads a) ∨
    p.feeding n = [] ∧ Synthetic.Over id config spills reads

section

variable {p p' : Producer} {id : String} {config : Synthetic.Config} {n k : Nat}
  {spills : List Spill} {reads : List Synthetic.Acquisition} {more : List Delivery}
  {t : Polling.Task Acquisition} {time : Nat} {now : Instant}

theorem feedingOf_append (n : Nat) (tasks tasks' : List (Polling.Task Acquisition)) :
    feedingOf n (tasks ++ tasks') = feedingOf n tasks ++ feedingOf n tasks' := by
  simp [feedingOf]

theorem feedingOf_cons (n : Nat) (t : Polling.Task Acquisition)
    (tasks : List (Polling.Task Acquisition)) :
    feedingOf n (t :: tasks) =
      if t.work.queue = n then t.work.work :: feedingOf n tasks else feedingOf n tasks := by
  by_cases h : t.work.queue = n <;> simp [feedingOf, h]

/-- Who lets go of a task leaves its work to it. -/
theorem feedingOf_letGo (slot : Polling.Slot Acquisition) (n : Nat) :
    feedingOf n slot.letGo.tasks = feedingOf n slot.tasks := by
  unfold Polling.Slot.letGo
  dsimp only
  induction slot.tasks with
  | nil => rfl
  | cons t rest ih =>
    rw [List.map_cons, feedingOf_cons, feedingOf_cons, ih]
    split <;> rfl

/-- A task stands alone under its number. -/
theorem Real.task_split (h : p.Real) (ht : p.slot.task? k = some t) :
    ∃ before after, p.slot.tasks = before ++ t :: after ∧
      p.slot.tasks.filter (·.number != k) = before ++ after ∧
      ∀ f : Polling.Task Acquisition → Polling.Task Acquisition,
        (p.slot.tasks.map fun u => if u.number == k then f u else u) = before ++ f t :: after := by
  obtain ⟨hmem, rfl⟩ := Polling.Slot.task?_eq_some ht
  obtain ⟨before, after, hsplit⟩ := List.append_of_mem hmem
  have hnumbers := h.numbers
  rw [hsplit, List.map_append, List.map_cons] at hnumbers
  obtain ⟨-, hafter, hapart⟩ := List.nodup_append.mp hnumbers
  obtain ⟨hnot, -⟩ := List.nodup_cons.mp hafter
  have hb : ∀ u ∈ before, u.number ≠ t.number := fun u hu =>
    hapart _ (List.mem_map.mpr ⟨u, hu, rfl⟩) _ List.mem_cons_self
  have ha : ∀ u ∈ after, u.number ≠ t.number := fun u hu he =>
    hnot (List.mem_map.mpr ⟨u, hu, he⟩)
  refine ⟨before, after, hsplit, ?_, fun f => ?_⟩
  · rw [hsplit, List.filter_append, List.filter_cons_of_neg (by simp),
      List.filter_eq_self.mpr fun u hu => by simpa using hb u hu,
      List.filter_eq_self.mpr fun u hu => by simpa using ha u hu]
  · have hid : ∀ l : List (Polling.Task Acquisition), (∀ u ∈ l, u.number ≠ t.number) →
        (l.map fun u => if u.number == t.number then f u else u) = l := by
      intro l hl
      refine (List.map_congr_left fun u hu => ?_).trans (List.map_id l)
      exact if_neg (by simpa using hl u hu)
    rw [hsplit, List.map_append, List.map_cons, hid before hb, hid after ha,
      if_pos (beq_self_eq_true _)]

theorem Flowing.flow (h : Flowing id config n spills reads p) :
    Synthetic.Flow id config spills reads := by
  rcases h.course with ⟨a, -, hrunning⟩ | ⟨-, hover⟩
  · exact hrunning.toFlow
  · exact hover.toFlow

/-! ## Operations that leave the tasks at work -/

theorem Flowing.of_feeding_eq (h : Flowing id config n spills reads p) (hid : p'.id = p.id)
    (hdevice : p'.device = .synthetic config) (hf : p'.feeding n = p.feeding n) :
    Flowing id config n spills reads p' :=
  ⟨hid.trans h.id_eq, hdevice, hf ▸ h.course⟩

theorem Flowing.boot (h : Flowing id config n spills reads p) :
    Flowing id config n spills reads p.boot.2 := by
  unfold Producer.boot
  rw [h.device_eq]
  dsimp only
  split
  · exact h.of_feeding_eq rfl rfl rfl
  · split
    · exact h
    · exact h.of_feeding_eq rfl rfl rfl

theorem Flowing.ask (h : Flowing id config n spills reads p) (time : Nat) :
    (p.beginStop time).2.1 = [] ∧ Flowing id config n spills reads (p.beginStop time).2.2 := by
  unfold Producer.beginStop
  rw [h.device_eq]
  dsimp only
  unfold Polling.Slot.beginStop
  cases p.slot.held with
  | none => exact ⟨rfl, h.of_feeding_eq rfl rfl (feedingOf_letGo p.slot n)⟩
  | some k => exact ⟨rfl, h.of_feeding_eq rfl rfl (feedingOf_letGo p.slot n)⟩

theorem Flowing.await (h : Flowing id config n spills reads p) {stopping : Stopping}
    {wasRunning : Bool} (he : p.endStop? time stopping = some (wasRunning, more, p')) :
    more = [] ∧ Flowing id config n spills reads p' := by
  unfold endStop? at he
  split at he
  · obtain ⟨-, hh⟩ := Prod.mk.inj (Option.some.inj he)
    obtain ⟨rfl, rfl⟩ := Prod.mk.inj hh
    exact ⟨rfl, h⟩
  · obtain ⟨⟨alive, slot⟩, hslot, hh⟩ := Option.map_eq_some_iff.mp he
    obtain ⟨-, hh⟩ := Prod.mk.inj hh
    obtain ⟨rfl, rfl⟩ := Prod.mk.inj hh
    refine ⟨rfl, h.of_feeding_eq rfl h.device_eq ?_⟩
    unfold Polling.Slot.endStop? at hslot
    split at hslot
    · nomatch hslot
    · split at hslot
      · obtain ⟨-, rfl⟩ := Prod.mk.inj (Option.some.inj hslot)
        rfl
      · obtain ⟨-, rfl⟩ := Prod.mk.inj (Option.some.inj hslot)
        rfl
  · rw [h.device_eq] at he
    split at he
    · obtain ⟨-, hh⟩ := Prod.mk.inj (Option.some.inj he)
      obtain ⟨rfl, rfl⟩ := Prod.mk.inj hh
      exact ⟨rfl, h⟩
    · nomatch he

/-! ## Operations of a task -/

theorem into_map (n q : Nat) (spills : List Spill) :
    Session.into n (spills.map (Delivery.mk q)) = if q = n then spills else [] := by
  unfold Session.into
  rw [List.filter_map, List.map_map]
  by_cases h : q = n
  · simp [h, Function.comp_def]
  · simp [h, Function.comp_def]

/-- The task that feeds queue `n` reads the acquisition out. -/
theorem Flowing.task (h : Flowing id config n spills reads p) {before after}
    (hsplit : p.slot.tasks = before ++ t :: after) (hq : t.work.queue = n) :
    feedingOf n before = [] ∧ feedingOf n after = [] ∧
      ∃ a, t.work.work = .synthetic a ∧ Synthetic.Running id config spills reads a := by
  have hfeeding : p.feeding n = feedingOf n before ++ t.work.work :: feedingOf n after := by
    unfold feeding
    rw [hsplit, feedingOf_append, feedingOf_cons, if_pos hq]
  rcases h.course with ⟨a, ha, hrunning⟩ | ⟨hnone, -⟩
  · rw [hfeeding] at ha
    cases hb : feedingOf n before with
    | nil =>
      rw [hb, List.nil_append] at ha
      obtain ⟨hwork, hafter⟩ := List.cons.inj ha
      exact ⟨rfl, hafter, a, hwork, hrunning⟩
    | cons w rest =>
      rw [hb] at ha
      have hlen := congrArg List.length ha
      simp at hlen
  · rw [hfeeding] at hnone
    simp at hnone

/-- Task `k` ends, after a readout or not. -/
theorem Flowing.remove (h : Flowing id config n spills reads p) (hr : p.Real)
    (ht : p.slot.task? k = some t) (slot : Polling.Slot Acquisition)
    (hslot : slot.tasks = p.slot.tasks.filter (·.number != k)) (given : List Spill)
    {taken : List Synthetic.Acquisition}
    (hother : t.work.queue ≠ n → taken = [])
    (hover : ∀ a, t.work.queue = n → t.work.work = .synthetic a →
      Synthetic.Running id config spills reads a →
      Synthetic.Over id config (spills ++ given) (reads ++ taken)) :
    Flowing id config n (spills ++ if t.work.queue = n then given else []) (reads ++ taken)
      { p with slot } := by
  obtain ⟨before, after, hsplit, hfilter, -⟩ := hr.task_split ht
  have hfeeding : ({ p with slot } : Producer).feeding n =
      feedingOf n before ++ feedingOf n after := by
    unfold feeding
    rw [hslot, hfilter, feedingOf_append]
  by_cases hq : t.work.queue = n
  · obtain ⟨hb, ha, a, hwork, hrunning⟩ := h.task hsplit hq
    rw [if_pos hq]
    refine ⟨h.id_eq, h.device_eq, .inr ⟨?_, hover a hq hwork hrunning⟩⟩
    rw [hfeeding, hb, ha]
    rfl
  · rw [if_neg hq, hother hq, List.append_nil, List.append_nil]
    refine h.of_feeding_eq rfl h.device_eq (hfeeding.trans ?_)
    unfold feeding
    rw [hsplit, feedingOf_append, feedingOf_cons, if_neg hq]

/-- Task `k` goes on after a readout. -/
theorem Flowing.replace (h : Flowing id config n spills reads p) (hr : p.Real)
    (ht : p.slot.task? k = some t) {work : Acquisition} (hqueue : work.queue = t.work.queue)
    {given : List Spill} {taken : List Synthetic.Acquisition}
    (hother : t.work.queue ≠ n → taken = [])
    (hrunning : ∀ a, t.work.queue = n → t.work.work = .synthetic a →
      Synthetic.Running id config spills reads a →
      ∃ a', work.work = .synthetic a' ∧
        Synthetic.Running id config (spills ++ given) (reads ++ taken) a') :
    Flowing id config n (spills ++ if t.work.queue = n then given else []) (reads ++ taken)
      { p with slot := p.slot.modify k fun t => { t with work } } := by
  obtain ⟨before, after, hsplit, -, hmap⟩ := hr.task_split ht
  have hfeeding :
      ({ p with slot := p.slot.modify k fun t => { t with work } } : Producer).feeding n =
        feedingOf n before ++ feedingOf n ({ t with work } :: after) := by
    show feedingOf n (p.slot.tasks.map fun u => if u.number == k then { u with work } else u) = _
    rw [hmap fun u => { u with work }, feedingOf_append]
  by_cases hq : t.work.queue = n
  · obtain ⟨hb, ha, a, hwork, hrun⟩ := h.task hsplit hq
    obtain ⟨a', hwork', hrun'⟩ := hrunning a hq hwork hrun
    rw [if_pos hq]
    refine ⟨h.id_eq, h.device_eq, .inl ⟨a', ?_, hrun'⟩⟩
    rw [hfeeding, feedingOf_cons, if_pos (hqueue.trans hq), hb, ha, hwork']
    rfl
  · rw [if_neg hq, hother hq, List.append_nil, List.append_nil]
    refine h.of_feeding_eq rfl h.device_eq (hfeeding.trans ?_)
    unfold feeding
    rw [hsplit, feedingOf_append, feedingOf_cons, feedingOf_cons, if_neg hq,
      if_neg fun he => hq (hqueue.symm.trans he)]

theorem readout_eq (ht : p.slot.task? k = some t) :
    (t.work.queue ≠ n → p.readout n k = []) ∧
      ∀ a, t.work.queue = n → t.work.work = .synthetic a → p.readout n k = [a] := by
  obtain ⟨number, asked, ⟨queue, since, work⟩⟩ := t
  unfold readout
  rw [ht]
  cases work with
  | synthetic a =>
    refine ⟨fun hq => if_neg hq, fun a' hq ha => ?_⟩
    obtain rfl := Acquisition.Work.synthetic.inj ha
    exact if_pos hq
  | replay w => exact ⟨fun _ => rfl, fun a _ ha => nomatch ha⟩

theorem Flowing.tick (h : Flowing id config n spills reads p) (hr : p.Real)
    (hi : config.interval ≠ 0) (ht : p.tick? k time now = some (more, p')) :
    Flowing id config n (spills ++ Session.into n more) (reads ++ p.readout n k) p' := by
  obtain ⟨t, htask, ht⟩ := Option.map_eq_some_iff.mp ht
  obtain ⟨hmem, -⟩ := Polling.Slot.task?_eq_some htask
  obtain ⟨hother, hread⟩ := readout_eq (n := n) htask
  split at ht
  · rename_i hcrash
    obtain ⟨rfl, rfl⟩ := Prod.mk.inj ht
    have hend := h.remove hr htask (p.slot.crash k) rfl [] hother ?_
    · simpa [Session.into] using hend
    · intro a hq hwork hrunning
      rw [hread a hq hwork, List.append_nil]
      apply hrunning.tick_none (r := t.work.reading time now)
      unfold Acquisition.tick? at hcrash
      rw [hwork] at hcrash
      exact Option.map_eq_none_iff.mp hcrash
  · rename_i o ho
    obtain ⟨rfl, rfl⟩ := Prod.mk.inj ht
    rw [into_map]
    have hsynthetic : ∀ a, t.work.work = .synthetic a → ∃ o', a.tick? (t.work.reading time now) =
        some o' ∧ o.spills = o'.spills ∧
        o.next = o'.next.map fun w => { t.work with work := .synthetic w } := by
      intro a hwork
      unfold Acquisition.tick? at ho
      rw [hwork] at ho
      obtain ⟨o', ho', rfl⟩ := Option.map_eq_some_iff.mp ho
      exact ⟨o', ho', rfl, rfl⟩
    cases hnext : o.next with
    | none =>
      refine h.remove hr htask _ rfl _ hother fun a hq hwork hrunning => ?_
      obtain ⟨o', ho', hspills, hnext'⟩ := hsynthetic a hwork
      have hover := hrunning.tick hi ho'
      rw [hnext] at hnext'
      rw [Option.map_eq_none_iff.mp hnext'.symm] at hover
      rw [hread a hq hwork, hspills]
      exact hover
    | some work =>
      have hqueue := (((hr.runless t hmem).tick ho).2 work hnext).2
      refine h.replace hr htask hqueue hother fun a hq hwork hrunning => ?_
      obtain ⟨o', ho', hspills, hnext'⟩ := hsynthetic a hwork
      rw [hnext] at hnext'
      obtain ⟨a', ha', rfl⟩ := Option.map_eq_some_iff.mp hnext'.symm
      have hgoes := hrunning.tick hi ho'
      rw [ha'] at hgoes
      rw [hread a hq hwork, hspills]
      exact ⟨a', rfl, hgoes⟩

theorem Flowing.notice (h : Flowing id config n spills reads p) (hr : p.Real)
    (ht : p.notice? k time now = some (more, p')) :
    Flowing id config n (spills ++ Session.into n more) reads p' := by
  unfold notice? at ht
  split at ht
  · rename_i t htask
    split at ht
    · obtain ⟨rfl, rfl⟩ := Prod.mk.inj (Option.some.inj ht)
      have hinto := into_map n t.work.queue [t.work.stopSpill (t.work.reading time now)]
      rw [List.map_singleton] at hinto
      rw [hinto]
      have hend := h.remove hr htask (p.slot.finish k) rfl
        [t.work.stopSpill (t.work.reading time now)] (fun _ => rfl) ?_
      · rwa [List.append_nil] at hend
      · intro a _ hwork hrunning
        rw [List.append_nil]
        have hstop := hrunning.stop (t.work.reading time now)
        unfold Acquisition.stopSpill
        rw [hwork]
        exact hstop
    · nomatch ht
  · nomatch ht

theorem Flowing.endStop {first : List Delivery}
    (h : Flowing id config n (spills ++ Session.into n first) reads p) (time : Nat)
    (stopping : Stopping) :
    let result := match p.endStop? time stopping with
      | some (wasRunning, rest, p) => (wasRunning, first ++ rest, p)
      | none => (false, first, p)
    Flowing id config n (spills ++ Session.into n result.2.1) reads result.2.2 := by
  dsimp only
  split
  · rename_i wasRunning rest p₁ he
    obtain ⟨rfl, hflow⟩ := h.await he
    rw [List.append_nil]
    exact hflow
  · exact h

theorem Flowing.stop (h : Flowing id config n spills reads p) (hr : p.Real) (time : Nat)
    (now : Instant) :
    Flowing id config n (spills ++ Session.into n (p.stop time now).2.1) reads
      (p.stop time now).2.2 := by
  obtain ⟨hfirst, hask⟩ := h.ask time
  have hreal := (hr.beginStop time).1.real
  unfold Producer.stop
  generalize p.beginStop time = begun at hfirst hask hreal
  obtain ⟨stopping, first, p₁⟩ := begun
  obtain rfl : first = [] := hfirst
  have hnone : Flowing id config n (spills ++ Session.into n ([] ++ [])) reads p₁ := by
    show Flowing id config n (spills ++ []) reads p₁
    rw [List.append_nil]
    exact hask
  cases stopping with
  | complete wasRunning => exact hnone.endStop time (.complete wasRunning)
  | delay wake => exact hnone.endStop wake (.delay wake)
  | task request =>
    dsimp only
    cases hn : p₁.notice? request.number time now with
    | none => exact hnone.endStop time (.task request)
    | some noticed =>
      obtain ⟨last, p₂⟩ := noticed
      have hnoticed : Flowing id config n (spills ++ Session.into n ([] ++ last)) reads p₂ :=
        hask.notice hreal hn
      exact hnoticed.endStop time (.task request)

theorem Flowing.shutdown (h : Flowing id config n spills reads p) (hr : p.Real) (time : Nat)
    (now : Instant) :
    Flowing id config n (spills ++ Session.into n (p.shutdown time now).2.1) reads
      (p.shutdown time now).2.2 := by
  have hstop := h.stop hr time now
  unfold Producer.shutdown
  rw [h.device_eq]
  exact hstop.of_feeding_eq rfl hstop.device_eq rfl

/-- What a start of a digitizer leads to: nothing, or one more task that begins an acquisition. -/
theorem Flowing.start_cases (h : Flowing id config n spills reads p) (l : Launch) :
    (p.start l).2.1 = [] ∧ (p.start l).2.2.id = id ∧ (p.start l).2.2.device = .synthetic config ∧
    ((p.start l).1 = false ∧ (p.start l).2.2.feeding n = p.feeding n ∨
      ∃ source, (p.start l).2.2.feeding n = p.feeding n ++
        if l.queue = n then [.synthetic (.start id config source)] else []) := by
  obtain ⟨pid, status, device, slot⟩ := p
  obtain rfl : pid = id := h.id_eq
  obtain rfl : device = .synthetic config := h.device_eq
  unfold Producer.start
  dsimp only
  split
  · unfold Polling.Slot.start
    split
    · exact ⟨rfl, rfl, rfl, .inl ⟨rfl, rfl⟩⟩
    · refine ⟨rfl, rfl, rfl, .inr ⟨?source, ?_⟩⟩
      -- The last step tells which source it is.
      rotate_left
      show feedingOf n (slot.letGo.tasks ++ [_]) = _
      rw [feedingOf_append, feedingOf_cons, feedingOf_letGo]
      rfl
  · exact ⟨rfl, rfl, rfl, .inl ⟨rfl, rfl⟩⟩

/-- A start into another queue changes nothing for this one. -/
theorem Flowing.start_other (h : Flowing id config n spills reads p) {l : Launch}
    (hl : l.queue ≠ n) :
    (p.start l).2.1 = [] ∧ Flowing id config n spills reads (p.start l).2.2 := by
  obtain ⟨hnil, hid, hdevice, hfeeding⟩ := h.start_cases l
  refine ⟨hnil, h.of_feeding_eq (hid.trans h.id_eq.symm) hdevice ?_⟩
  rcases hfeeding with ⟨-, hsame⟩ | ⟨source, hsame⟩
  · exact hsame
  · rw [hsame, if_neg hl, List.append_nil]

/-- A start into a queue that no task feeds and that has got nothing. -/
theorem Flowing.start (h : Flowing id config n [] [] p) (hf : p.feeding n = []) {l : Launch}
    (hl : l.queue = n) : (p.start l).2.1 = [] ∧ Flowing id config n [] [] (p.start l).2.2 := by
  obtain ⟨hnil, hid, hdevice, hfeeding⟩ := h.start_cases l
  refine ⟨hnil, ?_⟩
  rcases hfeeding with ⟨-, hsame⟩ | ⟨source, hsame⟩
  · exact h.of_feeding_eq (hid.trans h.id_eq.symm) hdevice hsame
  · rw [hf, if_pos hl, List.nil_append] at hsame
    exact ⟨hid, hdevice, .inl ⟨_, hsame, Synthetic.running_start id source⟩⟩

/-- Every operation but a start into the queue and a change of settings. -/
theorem Flowing.operate (h : Flowing id config n spills reads p) (hr : p.Real)
    (hi : config.interval ≠ 0) {op : Operation} (hstart : ∀ l, op = .start l → l.queue ≠ n)
    (hwrite : ∀ settings, op ≠ .write settings) (ho : p.operate? time now op = some (more, p')) :
    Flowing id config n (spills ++ Session.into n more) (reads ++ p.readsBy n op) p' := by
  have hsilent : more = [] → Flowing id config n spills reads p' →
      Flowing id config n (spills ++ Session.into n more) (reads ++ []) p' := by
    rintro rfl hflow
    rw [List.append_nil]
    exact (List.append_nil spills).symm ▸ hflow
  cases op with
  | boot =>
    obtain ⟨rfl, rfl⟩ := Prod.mk.inj (Option.some.inj ho)
    exact hsilent rfl h.boot
  | start l =>
    obtain ⟨hnil, hflow⟩ := h.start_other (hstart l rfl)
    have hresult : (p.start l).2 = (more, p') := Option.some.inj ho
    rw [hresult] at hnil hflow
    exact hsilent hnil hflow
  | ask =>
    obtain ⟨hnil, hflow⟩ := h.ask time
    have hresult : (p.beginStop time).2 = (more, p') := Option.some.inj ho
    rw [hresult] at hnil hflow
    exact hsilent hnil hflow
  | await stopping =>
    obtain ⟨⟨wasRunning, more', p₁⟩, he, hresult⟩ := Option.map_eq_some_iff.mp ho
    obtain ⟨rfl, rfl⟩ := Prod.mk.inj hresult
    obtain ⟨hnil, hflow⟩ := h.await he
    exact hsilent hnil hflow
  | tick k => exact h.tick hr hi ho
  | notice k =>
    show Flowing id config n _ (reads ++ []) p'
    rw [List.append_nil]
    exact h.notice hr ho
  | shutdown =>
    have hflow := h.shutdown hr time now
    have hresult : (p.shutdown time now).2 = (more, p') := Option.some.inj ho
    rw [hresult] at hflow
    show Flowing id config n _ (reads ++ []) p'
    rw [List.append_nil]
    exact hflow
  | write settings => exact absurd rfl (hwrite settings)

end

end Producer

end ListMode
