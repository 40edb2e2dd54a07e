import ListMode.Producer
import ListMode.Proofs.Polling

/-!
# What an operation does to the slot of a producer

One lemma for each operation. Polling tasks leave everything but the slot alone; a start, and either
half of a stop, of a digitizer or a replay are those of its slot.
-/

namespace ListMode

/-- An acquisition that goes on keeps its queue. -/
theorem Acquisition.queue_of_tick? {a a' : Acquisition} {r : Reading} {o : Readout Acquisition}
    (h : a.tick? r = some o) (hnext : o.next = some a') : a'.queue = a.queue := by
  unfold tick? at h
  split at h
  · obtain ⟨o', -, rfl⟩ := Option.map_eq_some_iff.mp h
    obtain ⟨w, -, rfl⟩ := Option.map_eq_some_iff.mp hnext
    rfl
  · obtain rfl := Option.some.inj h
    obtain ⟨w, -, rfl⟩ := Option.map_eq_some_iff.mp hnext
    rfl

namespace Producer

/-- Polling task `n` of a slot goes on into the same queue, ends, or crashes. -/
inductive Polls (slot : Polling.Slot Acquisition) (n : Nat) : Polling.Slot Acquisition → Prop where
  | goesOn {t : Polling.Task Acquisition} {work : Acquisition} (ht : slot.task? n = some t)
      (hqueue : work.queue = t.work.queue) : Polls slot n (slot.modify n fun t => { t with work })
  | ends {t : Polling.Task Acquisition} (ht : slot.task? n = some t) : Polls slot n (slot.finish n)
  | crashes {t : Polling.Task Acquisition} (ht : slot.task? n = some t) :
      Polls slot n (slot.crash n)

section

variable {p p' : Producer} {handed : List Delivery} {n time : Nat} {now : Instant}
  {slot slot' : Polling.Slot Acquisition} {waiting : List Polling.Request}

/-- Whatever a task does, at most one counts. -/
theorem Polls.sole (h : Polls slot n slot') (hsole : slot.Sole waiting) : slot'.Sole waiting := by
  cases h with
  | goesOn => exact hsole.modify fun _ => rfl
  | ends ht => exact (hsole.finish ht).1
  | crashes ht => exact hsole.crash ht

/-- What the slot holds is not for the task to change. -/
theorem Polls.held_eq (h : Polls slot n slot') : slot'.held = slot.held := by
  cases h with
  | goesOn | ends | crashes => rfl

theorem polls_of_tick? (h : p.tick? n time now = some (handed, p')) :
    ∃ slot, Polls p.slot n slot ∧ p' = { p with slot } := by
  unfold tick? at h
  obtain ⟨t, ht, h⟩ := Option.map_eq_some_iff.mp h
  split at h
  · exact ⟨_, .crashes ht, (Prod.mk.inj h).2.symm⟩
  · rename_i o ho
    obtain ⟨-, rfl⟩ := Prod.mk.inj h
    cases hnext : o.next with
    | none => exact ⟨_, .ends ht, rfl⟩
    | some work => exact ⟨_, .goesOn ht (Acquisition.queue_of_tick? ho hnext), rfl⟩

theorem polls_of_notice? (h : p.notice? n time now = some (handed, p')) :
    ∃ slot, Polls p.slot n slot ∧ p' = { p with slot } := by
  unfold notice? at h
  split at h
  · rename_i t ht
    split at h
    · exact ⟨_, .ends ht, (Prod.mk.inj (Option.some.inj h)).2.symm⟩
    · nomatch h
  · nomatch h

/-- Without tasks nothing is handed over. -/
theorem tick?_eq_none (h : p.slot.tasks = []) : p.tick? n time now = none := by
  simp [tick?, Polling.Slot.task?, h]

theorem notice?_eq_none (h : p.slot.tasks = []) : p.notice? n time now = none := by
  simp [notice?, Polling.Slot.task?, h]

theorem boot_eq (p : Producer) : ∃ status, p.boot.2 = { p with status } := by
  unfold boot
  split
  · split
    · exact ⟨_, rfl⟩
    · split
      · exact ⟨p.status, rfl⟩
      · exact ⟨_, rfl⟩
  · exact ⟨_, rfl⟩
  · split
    · exact ⟨p.status, rfl⟩
    · exact ⟨_, rfl⟩

/-- A producer that is written to stays of its kind. -/
theorem write_eq (p : Producer) (settings : Tree) :
    ∃ device, (p.write settings).2 = { p with device } ∧
      ((∀ x, p.device ≠ .scripted x) → ∀ x, device ≠ .scripted x) := by
  unfold write
  split
  · split
    · exact ⟨p.device, rfl, fun h => h⟩
    · split
      · exact ⟨p.device, rfl, fun h => h⟩
      · exact ⟨_, rfl, fun _ _ => nofun⟩
  · exact ⟨_, rfl, fun _ _ => nofun⟩
  · rename_i x hx
    split
    · exact ⟨p.device, rfl, fun h => h⟩
    · exact ⟨_, rfl, fun h => absurd hx (h x)⟩

/-- A digitizer or a replay that can run is started by its slot. -/
theorem start_eq (h : ∀ x, p.device ≠ .scripted x) (l : Launch) :
    p.status.canRun = false ∧ p.start l = (false, [], p) ∨
      p.status.canRun = true ∧ ∃ work, p.start l = ((p.slot.start ⟨l.queue, l.time, work⟩).1, [],
        { p with slot := (p.slot.start ⟨l.queue, l.time, work⟩).2 }) := by
  obtain ⟨id, status, device, slot⟩ := p
  unfold start
  cases hcan : status.canRun
  · refine .inl ⟨rfl, ?_⟩
    cases device with
    | synthetic | replay => rfl
    | scripted x => exact absurd rfl (h x)
  · refine .inr ⟨rfl, ?_⟩
    cases device with
    | synthetic config => exact ⟨_, rfl⟩
    | replay recording interval settings => exact ⟨_, rfl⟩
    | scripted x => exact absurd rfl (h x)

/-- A producer that refuses to start stays as it is and hands nothing over. -/
theorem start_refused {l : Launch} (h : (p.start l).1 = false) :
    p.start l = (false, [], p) := by
  obtain ⟨id, status, device, slot⟩ := p
  unfold start at h ⊢
  cases device with
  | synthetic | replay =>
    dsimp only at h ⊢
    split
    · rename_i hcan
      rw [if_pos hcan] at h
      rw [Polling.Slot.start_refused h]
    · rfl
  | scripted x =>
    dsimp only at h ⊢
    split
    · rfl
    · rename_i haccepts
      rw [if_neg haccepts] at h
      nomatch h

theorem beginStop_eq (h : ∀ x, p.device ≠ .scripted x) (time : Nat) :
    p.beginStop time = ((p.slot.beginStop.1.map .task).getD (.complete false), [],
      { p with slot := p.slot.beginStop.2 }) := by
  unfold beginStop
  split
  · rename_i x hx
    exact absurd hx (h x)
  · split
    · rename_i hstop
      rw [hstop]
      rfl
    · rename_i hstop
      rw [hstop]
      rfl

/-- A stop of a digitizer or a replay that is completed was one of its slot, or changes nothing. -/
theorem endStop_cases (h : ∀ x, p.device ≠ .scripted x) {stopping : Stopping} {wasRunning : Bool}
    (he : p.endStop? time stopping = some (wasRunning, handed, p')) :
    p' = p ∧ (∀ request, stopping ≠ .task request) ∨ ∃ request wasAlive slot,
      stopping = .task request ∧ p.slot.endStop? request = some (wasAlive, slot) ∧
      p' = { p with slot } := by
  unfold endStop? at he
  split at he
  · obtain ⟨-, hresult⟩ := Prod.mk.inj (Option.some.inj he)
    exact .inl ⟨(Prod.mk.inj hresult).2.symm, nofun⟩
  · rename_i request
    obtain ⟨⟨wasAlive, slot⟩, hslot, hresult⟩ := Option.map_eq_some_iff.mp he
    obtain ⟨-, hresult⟩ := Prod.mk.inj hresult
    exact .inr ⟨request, wasAlive, slot, rfl, hslot, (Prod.mk.inj hresult).2.symm⟩
  · split at he
    · split at he
      · rename_i x hx
        exact absurd hx (h x)
      · obtain ⟨-, hresult⟩ := Prod.mk.inj (Option.some.inj he)
        exact .inl ⟨(Prod.mk.inj hresult).2.symm, nofun⟩
    · nomatch he

/-- A digitizer or a replay seems to run as long as its slot believes that a task is alive. -/
theorem isRunning_eq (h : ∀ x, p.device ≠ .scripted x) : p.isRunning = p.slot.alive := by
  unfold isRunning
  split
  · rename_i x hx
    exact absurd hx (h x)
  · rfl

/-- A digitizer or a replay is shut down by a stop. -/
theorem shutdown_eq (h : ∀ x, p.device ≠ .scripted x) (time : Nat) (now : Instant) :
    p.shutdown time now = (.ok (), (p.stop time now).2.1,
      { (p.stop time now).2.2 with status := .initial }) := by
  unfold shutdown
  split
  · rename_i x hx
    exact absurd hx (h x)
  · rfl

end

end Producer

end ListMode
