import ListMode.Proofs.Producer.Calls

/-!
# The life of a digitizer, one call at a time

Each call returns before the next is made. In between, and while a stop or a shutdown waits, the
polling task goes on: it reads the device out, ends by itself, crashes, or notices that it is to
stop. `Lawful` is what all of this keeps: the producer is offline or its configuration has been
checked, and at most one task counts.
-/

namespace ListMode.Producer

/-- A step of a polling task: it reads the device out, or it notices that it is to stop. -/
inductive Poll where
  | tick (n time : Nat) (now : Instant)
  | notice (n time : Nat) (now : Instant)

/-- The time from the moment a task is asked to stop until this is seen to be done, and the task's
steps meanwhile. -/
structure Wait where
  since : Nat
  polls : List Poll
  till : Nat

/-- A call, from its beginning to its end, or a step of a task between two calls. -/
inductive Call where
  | boot
  | shutdown (w : Wait)
  | start (l : Launch)
  | stop (w : Wait)
  | write (settings : Tree)
  | poll (x : Poll)

/-- The producer after a step of a task, if the step is enabled. -/
def poll? (p : Producer) : Poll → Option Producer
  | .tick n time now => (p.tick? n time now).map (·.2)
  | .notice n time now => (p.notice? n time now).map (·.2)

def pollAll? (p : Producer) : List Poll → Option Producer
  | [] => some p
  | x :: rest => (p.poll? x).bind (·.pollAll? rest)

/-- What a stop answers, and the producer when it returns. `none` if it does not return then. -/
def stopped? (p : Producer) (w : Wait) : Option (Bool × Producer) :=
  let (stopping, _, p) := p.beginStop w.since
  (p.pollAll? w.polls).bind fun p =>
    (p.endStop? w.till stopping).map fun (wasRunning, _, p) => (wasRunning, p)

/-- The producer after a call. -/
def perform? (p : Producer) : Call → Option Producer
  | .boot => some p.boot.2
  | .shutdown w => (p.stopped? w).map fun (_, p) => { p with status := .initial }
  | .start l => some (p.start l).2.2
  | .stop w => (p.stopped? w).map (·.2)
  | .write settings => some (p.write settings).2
  | .poll x => p.poll? x

/-- The producer after a list of calls, if each returns. -/
def after? (p : Producer) : List Call → Option Producer
  | [] => some p
  | c :: rest => (p.perform? c).bind (·.after? rest)

/-! ## Tasks -/

section

variable {p p' : Producer} {waiting : List Polling.Request}

theorem polls_of_poll? {x : Poll} (h : p.poll? x = some p') :
    ∃ n slot, Polls p.slot n slot ∧ p' = { p with slot } := by
  cases x with
  | tick n time now =>
    obtain ⟨⟨_, p₁⟩, htick, rfl⟩ := Option.map_eq_some_iff.mp h
    exact ⟨n, polls_of_tick? htick⟩
  | notice n time now =>
    obtain ⟨⟨_, p₁⟩, hnotice, rfl⟩ := Option.map_eq_some_iff.mp h
    exact ⟨n, polls_of_notice? hnotice⟩

/-- However long a task goes on, at most one counts, and the slot holds the same. -/
theorem slot_of_pollAll? {polls : List Poll} (h : p.pollAll? polls = some p')
    (hsole : p.slot.Sole waiting) :
    ∃ slot, p' = { p with slot } ∧ slot.Sole waiting ∧ slot.held = p.slot.held := by
  induction polls generalizing p with
  | nil =>
    obtain rfl := Option.some.inj h
    exact ⟨p.slot, rfl, hsole, rfl⟩
  | cons x rest ih =>
    obtain ⟨p₁, hx, hrest⟩ := Option.bind_eq_some_iff.mp h
    obtain ⟨n, slot₁, hpolls, rfl⟩ := polls_of_poll? hx
    obtain ⟨slot, rfl, hslot, hheld⟩ := ih hrest (hpolls.sole hsole)
    exact ⟨slot, rfl, hslot, hheld.trans hpolls.held_eq⟩

/-- Where no task is, none does anything. -/
theorem eq_of_pollAll? {polls : List Poll} (h : p.pollAll? polls = some p')
    (hnone : p.slot.tasks = []) : p' = p := by
  cases polls with
  | nil => exact (Option.some.inj h).symm
  | cons x rest =>
    obtain ⟨p₁, hx, -⟩ := Option.bind_eq_some_iff.mp h
    cases x with
    | tick n time now => simp [poll?, tick?_eq_none hnone] at hx
    | notice n time now => simp [poll?, notice?_eq_none hnone] at hx

/-! ## A stop -/

/-- A stop that finds no task held answers at once. -/
theorem stopped?_of_held_none (hreal : ∀ x, p.device ≠ .scripted x) (hheld : p.slot.held = none)
    (w : Wait) : p.stopped? w = (p.pollAll? w.polls).map (false, ·) := by
  unfold stopped?
  rw [beginStop_eq hreal, Polling.Slot.beginStop_of_held_none hheld]
  exact Option.map_eq_bind.symm

/-- A stop that finds a task held waits for it. -/
theorem stopped?_of_held (hreal : ∀ x, p.device ≠ .scripted x) {n : Nat}
    (hheld : p.slot.held = some n) (w : Wait) :
    p.stopped? w = ({ p with slot := p.slot.beginStop.2 }.pollAll? w.polls).bind fun p' =>
      (p'.slot.endStop? ⟨n, p.slot.alive⟩).map fun (wasAlive, slot) =>
        (wasAlive, { p' with slot }) := by
  have hbegin : p.slot.beginStop.1 = some ⟨n, p.slot.alive⟩ := by
    simp [Polling.Slot.beginStop, hheld]
  unfold stopped?
  rw [beginStop_eq hreal, hbegin]
  refine congrArg (Option.bind _) (funext fun p' => ?_)
  exact Option.map_map _ _ _

/-- A stop that returns has left no task behind. It answers whether one was alive, or had crashed
unseen, when it was called. -/
theorem slot_of_stopped? (hreal : ∀ x, p.device ≠ .scripted x) (hsole : p.slot.Sole [])
    {w : Wait} {wasRunning : Bool} (h : p.stopped? w = some (wasRunning, p')) :
    (wasRunning = true ↔ p.slot.unfinished ≠ []) ∧ ∃ slot, p' = { p with slot } ∧
      slot.Sole [] ∧ slot.held = none ∧ slot.unfinished = [] := by
  cases hheld : p.slot.held with
  | none =>
    rw [stopped?_of_held_none hreal hheld] at h
    obtain ⟨p₁, hpolls, hresult⟩ := Option.map_eq_some_iff.mp h
    obtain ⟨rfl, rfl⟩ := Prod.mk.inj hresult
    obtain ⟨slot, rfl, hslot, hsame⟩ := slot_of_pollAll? hpolls hsole
    have hnone := hslot.unfinished_eq_nil (hsame.trans hheld)
    exact ⟨by simp [hsole.unfinished_eq_nil hheld], slot, rfl, hslot, hsame.trans hheld, hnone⟩
  | some n =>
    have hbegun : p.slot.beginStop.2.Sole [⟨n, p.slot.alive⟩] := by
      simpa [Polling.Slot.beginStop, hheld] using hsole.beginStop
    rw [stopped?_of_held hreal hheld] at h
    obtain ⟨p₁, hpolls, hend⟩ := Option.bind_eq_some_iff.mp h
    obtain ⟨slot₁, rfl, hslot₁, -⟩ := slot_of_pollAll? hpolls hbegun
    obtain ⟨⟨wasAlive, slot⟩, hslot, hresult⟩ := Option.map_eq_some_iff.mp hend
    obtain ⟨rfl, rfl⟩ := Prod.mk.inj hresult
    obtain ⟨hsole', hnone⟩ := hslot₁.endStop List.mem_cons_self hslot
    rw [List.erase_cons_head] at hsole'
    have hwas : wasAlive = p.slot.alive := Polling.Slot.wasAlive_of_endStop? hslot
    exact ⟨hwas ▸ hsole.alive, slot, rfl, hsole', hnone⟩

/-- A stop can always return: when the task that it has asked to stop notices. -/
theorem stopped?_isSome (hreal : ∀ x, p.device ≠ .scripted x) (since till : Nat) :
    ∃ polls, (p.stopped? ⟨since, polls, till⟩).isSome = true := by
  cases hheld : p.slot.held with
  | none =>
    refine ⟨[], ?_⟩
    rw [stopped?_of_held_none hreal hheld]
    rfl
  | some n =>
    cases hn : p.slot.beginStop.2.task? n with
    | none =>
      refine ⟨[], ?_⟩
      rw [stopped?_of_held hreal hheld]
      exact (Option.isSome_map ..).trans (Polling.Slot.endStop?_isSome hn)
    | some t =>
      have hasked := Polling.Slot.asked_of_letGo hheld hn
      have hends : ({ p with slot := p.slot.beginStop.2 } : Producer).pollAll?
          [.notice n till default] =
            some { p with slot := p.slot.beginStop.2.finish n } := by
        simp [pollAll?, poll?, notice?, hn, hasked]
      refine ⟨[.notice n till default], ?_⟩
      rw [stopped?_of_held hreal hheld, hends]
      exact (Option.isSome_map ..).trans
        (Polling.Slot.endStop?_isSome (Polling.Slot.task?_finish _ n))

/-! ## What every call keeps -/

/-- A digitizer that is offline, or whose configuration can be used, with one task at most. -/
structure Lawful (p : Producer) : Prop where
  checked : ∃ config, p.device = .synthetic config ∧ (config.Usable ∨ p.status = .initial)
  known : p.status = .initial ∨ p.status = .booted ∨ p.status = Status.booted.union .oscilloscope
  sole : p.slot.Sole []

theorem Lawful.real (h : p.Lawful) : ∀ x, p.device ≠ .scripted x := by
  obtain ⟨config, hdevice, -⟩ := h.checked
  rw [hdevice]
  exact fun _ => nofun

theorem Lawful.isRunning_iff (h : p.Lawful) : p.isRunning = true ↔ p.slot.unfinished ≠ [] := by
  obtain ⟨config, hdevice, -⟩ := h.checked
  rw [isRunning, hdevice]
  exact h.sole.alive

theorem lawful_synthetic (id : String) (config : Synthetic.Config) :
    (Producer.synthetic id config).Lawful :=
  ⟨⟨config, rfl, .inr rfl⟩, .inl rfl, Polling.Slot.sole_empty⟩

/-- A boot checks the configuration. If it fails for a configuration that cannot be used, it leaves
the status alone, but then the digitizer was offline. -/
theorem Lawful.boot (h : p.Lawful) :
    p.boot.2.Lawful ∧ ∀ fault p', p.boot = (.error fault, p') → p'.status = .initial := by
  obtain ⟨⟨config, hdevice, hchecked⟩, hknown, hsole⟩ := h
  unfold Producer.boot
  rw [hdevice]
  dsimp only
  split
  · refine ⟨⟨⟨config, rfl, .inr rfl⟩, .inl rfl, hsole⟩, fun fault p' he => ?_⟩
    obtain ⟨-, rfl⟩ := Prod.mk.inj he
    rfl
  · split
    · rename_i reason hfault
      refine ⟨⟨⟨config, hdevice, hchecked⟩, hknown, hsole⟩, fun fault p' he => ?_⟩
      obtain ⟨-, rfl⟩ := Prod.mk.inj he
      refine hchecked.resolve_left fun husable => ?_
      rw [config.fault?_eq_none_iff.mpr husable] at hfault
      nomatch hfault
    · rename_i hfault
      have husable := config.fault?_eq_none_iff.mp hfault
      refine ⟨⟨⟨config, rfl, .inl husable⟩, ?_, hsole⟩, fun fault p' => nofun⟩
      dsimp only
      split
      · exact .inr (.inr rfl)
      · exact .inr (.inl rfl)

/-- Settings that are accepted can be used, and settings that are not change nothing. -/
theorem Lawful.write (h : p.Lawful) (settings : Tree) :
    (∃ config, config.Usable ∧ p.write settings = (.ok (), { p with device := .synthetic config })) ∨
      ∃ fault, p.write settings = (.error fault, p) := by
  obtain ⟨config, hdevice, -⟩ := h.checked
  unfold Producer.write
  rw [hdevice]
  dsimp only
  split
  · exact .inr ⟨_, rfl⟩
  · rename_i config' _
    split
    · exact .inr ⟨_, rfl⟩
    · rename_i hfault
      exact .inl ⟨config', config'.fault?_eq_none_iff.mp hfault, rfl⟩

/-- Only a write replaces the configuration, and it puts one that can be used in its place. -/
theorem Lawful.perform (h : p.Lawful) {c : Call} (hc : p.perform? c = some p') :
    p'.Lawful ∧ (p'.device = p.device ∨ ∃ config, p'.device = .synthetic config ∧ config.Usable) := by
  obtain ⟨config, hdevice, hchecked⟩ := h.checked
  cases c with
  | boot =>
    obtain rfl := Option.some.inj hc
    obtain ⟨status, hboot⟩ := boot_eq p
    refine ⟨h.boot.1, .inl ?_⟩
    rw [hboot]
  | shutdown w =>
    obtain ⟨⟨wasRunning, p₁⟩, hstop, rfl⟩ := Option.map_eq_some_iff.mp hc
    obtain ⟨-, slot, rfl, hsole, -⟩ := slot_of_stopped? h.real h.sole hstop
    exact ⟨⟨⟨config, hdevice, .inr rfl⟩, .inl rfl, hsole⟩, .inl rfl⟩
  | start l =>
    obtain rfl := Option.some.inj hc
    rcases start_eq h.real l with ⟨-, he⟩ | ⟨-, work, he⟩
    · rw [he]
      exact ⟨h, .inl rfl⟩
    · rw [he]
      exact ⟨⟨h.checked, h.known, h.sole.start _⟩, .inl rfl⟩
  | stop w =>
    obtain ⟨⟨wasRunning, p₁⟩, hstop, rfl⟩ := Option.map_eq_some_iff.mp hc
    obtain ⟨-, slot, rfl, hsole, -⟩ := slot_of_stopped? h.real h.sole hstop
    exact ⟨⟨h.checked, h.known, hsole⟩, .inl rfl⟩
  | write settings =>
    obtain rfl := Option.some.inj hc
    rcases h.write settings with ⟨config', husable, he⟩ | ⟨fault, he⟩
    · rw [he]
      exact ⟨⟨⟨config', rfl, .inl husable⟩, h.known, h.sole⟩, .inr ⟨config', rfl, husable⟩⟩
    · rw [he]
      exact ⟨h, .inl rfl⟩
  | poll x =>
    obtain ⟨n, slot, hpolls, rfl⟩ := polls_of_poll? hc
    exact ⟨⟨h.checked, h.known, hpolls.sole h.sole⟩, .inl rfl⟩

theorem Lawful.after {calls : List Call} (h : p.Lawful) (hc : p.after? calls = some p') :
    p'.Lawful ∧ (p'.device = p.device ∨ ∃ config, p'.device = .synthetic config ∧ config.Usable) := by
  induction calls generalizing p with
  | nil =>
    obtain rfl := Option.some.inj hc
    exact ⟨h, .inl rfl⟩
  | cons c rest ih =>
    obtain ⟨p₁, hp₁, hrest⟩ := Option.bind_eq_some_iff.mp hc
    obtain ⟨h₁, hdevice₁⟩ := h.perform hp₁
    obtain ⟨h', hdevice'⟩ := ih h₁ hrest
    refine ⟨h', ?_⟩
    rcases hdevice' with hsame | husable
    · rw [hsame]
      exact hdevice₁
    · exact .inr husable

/-- A start is accepted exactly if the digitizer can run and no task is unfinished. -/
theorem Lawful.start_iff (h : p.Lawful) (l : Launch) :
    (p.start l).1 = true ↔ p.status.canRun = true ∧ p.slot.unfinished = [] := by
  rcases start_eq h.real l with ⟨hcannot, he⟩ | ⟨hcan, work, he⟩
  · simp [he, hcannot]
  · rw [he, h.sole.start_iff, hcan]
    simp

/-- A shutdown takes the digitizer offline, and another one finds nothing to do. -/
theorem Lawful.shutdown (h : p.Lawful) {w : Wait} (hc : p.perform? (.shutdown w) = some p') :
    p'.status = .initial ∧ p'.isRunning = false ∧ p'.slot.unfinished = [] ∧
      ∀ w' p'', p'.perform? (.shutdown w') = some p'' → p'' = p' := by
  have h' := (h.perform hc).1
  obtain ⟨⟨wasRunning, p₁⟩, hstop, rfl⟩ := Option.map_eq_some_iff.mp hc
  obtain ⟨-, slot, rfl, hsole, hheld, hnone⟩ := slot_of_stopped? h.real h.sole hstop
  refine ⟨rfl, ?_, hnone, fun w' p'' hc' => ?_⟩
  · rw [← Bool.not_eq_true, h'.isRunning_iff]
    exact fun hne => hne hnone
  · obtain ⟨⟨_, p₂⟩, hstop', rfl⟩ := Option.map_eq_some_iff.mp hc'
    rw [stopped?_of_held_none h'.real hheld] at hstop'
    obtain ⟨p₃, hpolls, hresult⟩ := Option.map_eq_some_iff.mp hstop'
    obtain ⟨-, rfl⟩ := Prod.mk.inj hresult
    have htasks := List.map_eq_nil_iff.mp (List.append_eq_nil_iff.mp hnone).1
    rw [eq_of_pollAll? hpolls htasks]

/-- The life of a digitizer, whatever its configuration, under any calls made one at a time. Its
status is that of a digitizer offline or booted, and offline after every boot that fails. A shutdown
takes it offline with nothing running, and a second one changes nothing. A task counts as unfinished
while it is alive, and when it has crashed and nobody has waited for it. As long as there is one the
digitizer looks running, it cannot be started, and a stop answers that there was one; every stop can
return. Once settings have been accepted the configuration can be used for ever. -/
theorem calls_one_at_a_time {id : String} {config : Synthetic.Config} {calls : List Call}
    (hcalls : (Producer.synthetic id config).after? calls = some p) :
    (p.status = .initial ∨ p.status = .booted ∨ p.status = Status.booted.union .oscilloscope) ∧
    (∀ fault p', p.boot = (.error fault, p') → p'.status = .initial) ∧
    (∀ w p', p.perform? (.shutdown w) = some p' →
      p'.status = .initial ∧ p'.isRunning = false ∧ p'.slot.unfinished = [] ∧
        ∀ w' p'', p'.perform? (.shutdown w') = some p'' → p'' = p') ∧
    (∀ l, (p.start l).1 = true ↔ p.status.canRun = true ∧ p.slot.unfinished = []) ∧
    (∀ w wasRunning p', p.stopped? w = some (wasRunning, p') →
      (wasRunning = true ↔ p.slot.unfinished ≠ [])) ∧
    (∀ since till, ∃ polls, (p.stopped? ⟨since, polls, till⟩).isSome = true) ∧
    (p.isRunning = true ↔ p.slot.unfinished ≠ []) ∧
    ∀ settings p', p.write settings = (.ok (), p') → ∀ later p'', p'.after? later = some p'' →
      ∃ config, p''.device = .synthetic config ∧ config.Usable := by
  have h := ((lawful_synthetic id config).after hcalls).1
  refine ⟨h.known, h.boot.2, fun w p' => h.shutdown, h.start_iff, fun w wasRunning p' hstop => ?_,
    stopped?_isSome h.real, h.isRunning_iff, fun settings p' haccepted later p'' hlater => ?_⟩
  · exact (slot_of_stopped? h.real h.sole hstop).1
  · have hwrite : p.perform? (.write settings) = some p' :=
      congrArg (some ∘ Prod.snd) haccepted
    have h' := (h.perform hwrite).1
    rcases h.write settings with ⟨config', husable, he⟩ | ⟨fault, he⟩
    · rw [haccepted] at he
      obtain ⟨-, rfl⟩ := Prod.mk.inj he
      rcases (h'.after hlater).2 with hsame | hchanged
      · exact ⟨config', hsame, husable⟩
      · exact hchanged
    · rw [haccepted] at he
      nomatch he

end

/-- A digitizer that cannot be booted until settings are accepted, and that is then started, left to
itself and shut down. -/
theorem calls_one_at_a_time_recovered :
    let broken : Synthetic.Config := { (default : Synthetic.Config) with channels := [] }
    let calls : List Call := [.boot, .write (.obj []), .boot, .start ⟨0, 0, default⟩,
      .poll (.tick 0 100 default)]
    let w : Wait := ⟨150, [.notice 0 150 default], 150⟩
    ∃ p p', (Producer.synthetic "sim" broken).after? calls = some p ∧ p.isRunning = true ∧
      p.perform? (.shutdown w) = some p' ∧ p'.status = .initial ∧ p'.isRunning = false := by
  intro broken calls w
  have hends : (((Producer.synthetic "sim" broken).after? calls).bind fun p =>
      (p.perform? (.shutdown w)).map fun _ => p.isRunning) = some true := by
    decide +kernel
  obtain ⟨p, hp, hends⟩ := Option.bind_eq_some_iff.mp hends
  obtain ⟨p', hp', hrunning⟩ := Option.map_eq_some_iff.mp hends
  obtain ⟨-, -, hshutdown, -⟩ := calls_one_at_a_time hp
  obtain ⟨hstatus, hstopped, -⟩ := hshutdown w p' hp'
  exact ⟨p, p', hp, hrunning, hp', hstatus, hstopped⟩

/-- A digitizer whose task has crashed looks running without one: it cannot be started, and a stop
answers that there was something to stop. -/
theorem crash_looks_alive :
    let fast := Producer.synthetic "sim" { (default : Synthetic.Config) with
      rate := 1e308, interval := 10000 }
    let calls : List Call := [.boot, .start ⟨0, 0, default⟩, .poll (.tick 0 10000 default)]
    (fast.after? calls).map (fun p => (p.slot.tasks.length, p.status.canRun, p.isRunning,
        (p.start ⟨1, 10000, default⟩).1, (p.stopped? ⟨10000, [], 10000⟩).map (·.1))) =
      some (0, true, true, false, some true) := by
  decide +kernel

end ListMode.Producer
