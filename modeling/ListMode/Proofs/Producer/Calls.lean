import ListMode.Proofs.Producer.Slot

/-!
# Calls to one producer

Anybody may call a producer at any time. A stop or a shutdown waits for the polling task that it has
asked to stop, and meanwhile other calls and the tasks go on. `Shared` is a producer with the calls
that wait, and a list of `Act`s is one interleaving.

Where nobody starts the producer while a call waits, at most one task is alive, and after a stop has
returned nothing is handed over until the next start. Calls that overlap in another way can break
both, and a task that crashes leaves the producer looking alive.
-/

namespace ListMode.Producer

/-- A digitizer or a replay, and the calls that wait for its tasks, oldest first: a stop, or a
shutdown, which then takes the producer offline. -/
structure Shared where
  producer : Producer
  waiting : List (Polling.Request × Bool)

/-- The producer when a stop, or a shutdown, returns. -/
def left (p : Producer) (offline : Bool) : Producer :=
  if offline then { p with status := .initial } else p

@[simp] theorem slot_left (p : Producer) (offline : Bool) : (p.left offline).slot = p.slot := by
  cases offline <;> rfl

@[simp] theorem device_left (p : Producer) (offline : Bool) :
    (p.left offline).device = p.device := by
  cases offline <;> rfl

@[simp] theorem id_left (p : Producer) (offline : Bool) : (p.left offline).id = p.id := by
  cases offline <;> rfl

namespace Shared

/-- An atomic action of a caller or of a task. -/
inductive Act where
  | boot
  | write (settings : Tree)
  | start (l : Launch)
  /-- A stop or a shutdown begins. It returns at once if the slot holds no task. -/
  | stop (time : Nat) (offline : Bool)
  /-- A call that waits goes on and returns. -/
  | resume (time : Nat) (call : Polling.Request × Bool)
  | tick (n time : Nat) (now : Instant)
  | notice (n time : Nat) (now : Instant)

def Act.isStart : Act → Bool
  | .start _ => true
  | _ => false

/-- What an action hands over, and what it leads to, if it is enabled. -/
def act? (s : Shared) : Act → Option (List Delivery × Shared)
  | .boot => some ([], { s with producer := s.producer.boot.2 })
  | .write settings => some ([], { s with producer := (s.producer.write settings).2 })
  | .start l => some ((s.producer.start l).2.1, { s with producer := (s.producer.start l).2.2 })
  | .stop time offline =>
    match s.producer.beginStop time with
    | (.task request, spills, producer) =>
      some (spills, ⟨producer, s.waiting ++ [(request, offline)]⟩)
    | (_, spills, producer) => some (spills, { s with producer := producer.left offline })
  | .resume time call =>
    if call ∈ s.waiting then
      (s.producer.endStop? time (.task call.1)).map fun (_, spills, producer) =>
        (spills, ⟨producer.left call.2, s.waiting.erase call⟩)
    else none
  | .tick n time now =>
    (s.producer.tick? n time now).map fun (spills, producer) => (spills, { s with producer })
  | .notice n time now =>
    (s.producer.notice? n time now).map fun (spills, producer) => (spills, { s with producer })

/-- The producer after a list of actions, if each is enabled when its turn comes. -/
def after? (s : Shared) : List Act → Option Shared
  | [] => some s
  | a :: rest => (s.act? a).bind fun (_, s) => s.after? rest

/-- What is handed over during a list of actions, as far as they are enabled. -/
def handedDuring (s : Shared) : List Act → List Delivery
  | [] => []
  | a :: rest => ((s.act? a).map fun (spills, s) => spills ++ s.handedDuring rest).getD []

/-- Nobody starts the producer while a call waits. -/
def Apart (s : Shared) : List Act → Prop
  | [] => True
  | a :: rest => (a.isStart = true → s.waiting = []) ∧
      ∀ spills s', s.act? a = some (spills, s') → s'.Apart rest

/-- By this action a stop returns that was not made while another one waited. -/
def Returns (s : Shared) : Act → Prop
  | .resume .. => True
  | .stop .. => s.waiting = [] ∧ s.producer.slot.held = none
  | _ => False

/-- A digitizer or a replay with at most one task that counts. -/
structure Proper (s : Shared) : Prop where
  real : ∀ x, s.producer.device ≠ .scripted x
  sole : s.producer.slot.Sole (s.waiting.map (·.1))

section

variable {s s' : Shared} {a : Act} {spills : List Delivery}

/-- A stop begins: it returns at once, or waits for the task that the slot held. -/
theorem act?_stop (hreal : ∀ x, s.producer.device ≠ .scripted x) (time : Nat) (offline : Bool) :
    s.act? (.stop time offline) = some ([], match s.producer.slot.beginStop with
      | (none, slot) => { s with producer := { s.producer with slot }.left offline }
      | (some request, slot) =>
        ⟨{ s.producer with slot }, s.waiting ++ [(request, offline)]⟩) := by
  unfold act?
  dsimp only
  rw [beginStop_eq hreal]
  rcases s.producer.slot.beginStop with ⟨_ | request, slot⟩
  · rfl
  · rfl

/-- A call that waits returns when its task has ended. -/
theorem resume_cases {time : Nat} {call : Polling.Request × Bool}
    (ha : s.act? (.resume time call) = some (spills, s')) :
    call ∈ s.waiting ∧ spills = [] ∧ ∃ wasAlive slot,
      s.producer.slot.endStop? call.1 = some (wasAlive, slot) ∧
      s' = ⟨{ s.producer with slot }.left call.2, s.waiting.erase call⟩ := by
  unfold act? at ha
  dsimp only at ha
  split at ha
  · rename_i hcall
    obtain ⟨⟨wasRunning, more, p⟩, he, hresult⟩ := Option.map_eq_some_iff.mp ha
    obtain ⟨rfl, rfl⟩ := Prod.mk.inj hresult
    obtain ⟨⟨wasAlive, slot⟩, hslot, hp⟩ := Option.map_eq_some_iff.mp he
    obtain ⟨-, hp⟩ := Prod.mk.inj hp
    obtain ⟨rfl, rfl⟩ := Prod.mk.inj hp
    exact ⟨hcall, rfl, wasAlive, slot, hslot, rfl⟩
  · nomatch ha

/-! ## One task at most -/

/-- What a task does keeps the producer proper. -/
theorem Proper.polls (h : s.Proper) {n : Nat} {slot : Polling.Slot Acquisition}
    (hpolls : Polls s.producer.slot n slot) :
    ({ s with producer := { s.producer with slot } } : Shared).Proper :=
  ⟨h.real, hpolls.sole h.sole⟩

/-- A call that waits and goes on leaves no task behind. -/
theorem Proper.resume (h : s.Proper) {time : Nat} {call : Polling.Request × Bool}
    (ha : s.act? (.resume time call) = some (spills, s')) :
    s'.Proper ∧ s'.producer.slot.tasks = [] := by
  obtain ⟨hcall, -, wasAlive, slot, hslot, rfl⟩ := resume_cases ha
  have hmem : call.1 ∈ s.waiting.map (·.1) := List.mem_map_of_mem hcall
  obtain ⟨hsole, -, hnone⟩ := h.sole.endStop hmem hslot
  have hwaiting : s.waiting = [call] := by
    obtain ⟨-, hone⟩ := h.sole.waiting_eq hmem
    obtain ⟨x, hx, -⟩ := List.map_eq_singleton_iff.mp hone
    rw [hx, List.mem_singleton] at hcall
    rw [hx, hcall]
  rw [hwaiting, List.map_singleton, List.erase_cons_head] at hsole
  rw [hwaiting, List.erase_cons_head]
  constructor
  · refine ⟨?_, ?_⟩
    · rw [device_left]
      exact h.real
    · rw [slot_left]
      exact hsole
  · rw [slot_left]
    exact List.map_eq_nil_iff.mp (List.append_eq_nil_iff.mp hnone).1

theorem Proper.stop (h : s.Proper) {time : Nat} {offline : Bool}
    (ha : s.act? (.stop time offline) = some (spills, s')) : s'.Proper := by
  have hsole := h.sole.beginStop
  rw [act?_stop h.real] at ha
  obtain ⟨-, rfl⟩ := Prod.mk.inj (Option.some.inj ha)
  generalize s.producer.slot.beginStop = begun at hsole ⊢
  rcases begun with ⟨_ | request, slot⟩
  · rw [Option.toList_none, List.append_nil] at hsole
    refine ⟨?_, ?_⟩
    · rw [device_left]
      exact h.real
    · rw [slot_left]
      exact hsole
  · refine ⟨h.real, ?_⟩
    rw [List.map_append]
    exact hsole

theorem Proper.act (h : s.Proper) (ha : s.act? a = some (spills, s'))
    (hstart : a.isStart = true → s.waiting = []) : s'.Proper := by
  cases a with
  | boot =>
    obtain ⟨-, rfl⟩ := Prod.mk.inj (Option.some.inj ha)
    obtain ⟨status, hboot⟩ := boot_eq s.producer
    rw [hboot]
    exact ⟨h.real, h.sole⟩
  | write settings =>
    obtain ⟨-, rfl⟩ := Prod.mk.inj (Option.some.inj ha)
    obtain ⟨device, hwrite, hreal⟩ := write_eq s.producer settings
    rw [hwrite]
    exact ⟨hreal h.real, h.sole⟩
  | start l =>
    obtain ⟨-, rfl⟩ := Prod.mk.inj (Option.some.inj ha)
    rcases start_eq h.real l with ⟨-, he⟩ | ⟨-, work, he⟩
    · rw [he]
      exact h
    · rw [he]
      have hnone := hstart rfl
      have hsole := h.sole
      rw [hnone, List.map_nil] at hsole
      refine ⟨h.real, ?_⟩
      show Polling.Slot.Sole (s.waiting.map (·.1)) _
      rw [hnone]
      exact hsole.start _
  | stop time offline => exact h.stop ha
  | resume time call => exact (h.resume ha).1
  | tick n time now =>
    obtain ⟨⟨more, p⟩, ht, hresult⟩ := Option.map_eq_some_iff.mp ha
    obtain ⟨-, rfl⟩ := Prod.mk.inj hresult
    obtain ⟨slot, hpolls, rfl⟩ := polls_of_tick? ht
    exact h.polls hpolls
  | notice n time now =>
    obtain ⟨⟨more, p⟩, ht, hresult⟩ := Option.map_eq_some_iff.mp ha
    obtain ⟨-, rfl⟩ := Prod.mk.inj hresult
    obtain ⟨slot, hpolls, rfl⟩ := polls_of_notice? ht
    exact h.polls hpolls

theorem Proper.after {acts : List Act} (h : s.Proper) (ha : s.after? acts = some s')
    (hapart : s.Apart acts) : s'.Proper := by
  induction acts generalizing s with
  | nil =>
    obtain rfl := Option.some.inj ha
    exact h
  | cons a rest ih =>
    obtain ⟨⟨spills, s₁⟩, hs₁, ha⟩ := Option.bind_eq_some_iff.mp ha
    exact ih (h.act hs₁ hapart.1) ha (hapart.2 spills s₁ hs₁)

/-! ## After a stop -/

theorem tasks_beginStop {slot : Polling.Slot Acquisition} (hnone : slot.tasks = []) :
    slot.beginStop.2.tasks = [] := List.map_eq_nil_iff.mpr hnone

/-- A stop that nobody disturbed leaves no task behind. -/
theorem Proper.returns (h : s.Proper) (ha : s.act? a = some (spills, s'))
    (hreturns : s.Returns a) : s'.producer.slot.tasks = [] := by
  cases a with
  | resume time call => exact (h.resume ha).2
  | stop time offline =>
    obtain ⟨hwaiting, hheld⟩ := hreturns
    have hsole := h.sole
    rw [hwaiting, List.map_nil] at hsole
    have hnone := (List.append_eq_nil_iff.mp (hsole.unfinished_eq_nil hheld)).1
    have htasks := tasks_beginStop (List.map_eq_nil_iff.mp hnone)
    rw [act?_stop h.real] at ha
    obtain ⟨-, rfl⟩ := Prod.mk.inj (Option.some.inj ha)
    generalize s.producer.slot.beginStop = begun at htasks ⊢
    rcases begun with ⟨_ | request, slot⟩
    · rw [slot_left]
      exact htasks
    · exact htasks
  | boot | write | start | tick | notice => nomatch hreturns

/-- Where no task is, none comes but by a start, and nothing is handed over. -/
theorem still_act (hreal : ∀ x, s.producer.device ≠ .scripted x)
    (hnone : s.producer.slot.tasks = []) (hstart : a.isStart = false)
    (ha : s.act? a = some (spills, s')) :
    spills = [] ∧ (∀ x, s'.producer.device ≠ .scripted x) ∧ s'.producer.slot.tasks = [] := by
  cases a with
  | boot =>
    obtain ⟨rfl, rfl⟩ := Prod.mk.inj (Option.some.inj ha)
    obtain ⟨status, hboot⟩ := boot_eq s.producer
    rw [hboot]
    exact ⟨rfl, hreal, hnone⟩
  | write settings =>
    obtain ⟨rfl, rfl⟩ := Prod.mk.inj (Option.some.inj ha)
    obtain ⟨device, hwrite, hkind⟩ := write_eq s.producer settings
    rw [hwrite]
    exact ⟨rfl, hkind hreal, hnone⟩
  | start => nomatch hstart
  | stop time offline =>
    have htasks := tasks_beginStop hnone
    rw [act?_stop hreal] at ha
    obtain ⟨rfl, rfl⟩ := Prod.mk.inj (Option.some.inj ha)
    generalize s.producer.slot.beginStop = begun at htasks ⊢
    rcases begun with ⟨_ | request, slot⟩
    · rw [device_left, slot_left]
      exact ⟨rfl, hreal, htasks⟩
    · exact ⟨rfl, hreal, htasks⟩
  | resume time call =>
    obtain ⟨-, rfl, wasAlive, slot, hslot, rfl⟩ := resume_cases ha
    rw [device_left, slot_left]
    exact ⟨rfl, hreal, (Polling.Slot.kept_endStop? hslot).1.trans hnone⟩
  | tick n time now =>
    unfold act? at ha
    dsimp only at ha
    rw [tick?_eq_none hnone] at ha
    nomatch ha
  | notice n time now =>
    unfold act? at ha
    dsimp only at ha
    rw [notice?_eq_none hnone] at ha
    nomatch ha

theorem handedDuring_eq_nil {acts : List Act} (hreal : ∀ x, s.producer.device ≠ .scripted x)
    (hnone : s.producer.slot.tasks = []) (hstart : ∀ b ∈ acts, b.isStart = false) :
    s.handedDuring acts = [] := by
  induction acts generalizing s with
  | nil => rfl
  | cons a rest ih =>
    unfold handedDuring
    cases ha : s.act? a with
    | none => rfl
    | some result =>
      obtain ⟨spills, s₁⟩ := result
      obtain ⟨rfl, hreal₁, hnone₁⟩ :=
        still_act hreal hnone (hstart a List.mem_cons_self) ha
      exact ih hreal₁ hnone₁ fun b hb => hstart b (List.mem_cons_of_mem _ hb)

/-- A digitizer or a replay that nobody starts while a call waits. At most one task is alive, and
the producer looks running exactly while there is one, or one that has crashed and has not been
waited for. When a stop or a shutdown returns that was not made while another one waited, no task is
alive, and nothing is handed over until the next start. -/
theorem one_task_at_a_time {p : Producer} {acts : List Act}
    (hreal : ∀ x, p.device ≠ .scripted x) (hslot : p.slot = .empty)
    (hacts : (Shared.mk p []).after? acts = some s) (hapart : (Shared.mk p []).Apart acts) :
    s.producer.slot.tasks.length ≤ 1 ∧
    (s.producer.isRunning = true ↔
      s.producer.slot.tasks ≠ [] ∨ s.producer.slot.crashed ≠ []) ∧
    ∀ a spills s', s.act? a = some (spills, s') → s.Returns a → s'.producer.slot.tasks = [] ∧
      ∀ rest : List Act, (∀ b ∈ rest, b.isStart = false) → s'.handedDuring rest = [] := by
  have hnew : (Shared.mk p []).Proper := ⟨hreal, hslot ▸ Polling.Slot.sole_empty⟩
  have h := hnew.after hacts hapart
  refine ⟨h.sole.length_tasks, ?_, fun a spills s' ha hreturns => ?_⟩
  · rw [isRunning_eq h.real, h.sole.alive, Polling.Slot.unfinished, ne_eq, List.append_eq_nil_iff,
      List.map_eq_nil_iff, Classical.not_and_iff_not_or_not]
  · have hnone := h.returns ha hreturns
    have hproper : s'.Proper := by
      refine h.act ha fun hstart => ?_
      cases a with
      | start => exact hreturns.elim
      | _ => exact absurd hstart Bool.false_ne_true
    exact ⟨hnone, fun rest hrest => handedDuring_eq_nil hproper.real hnone hrest⟩

end

/-- A replay that is stopped while it hands its spills over, asked to stop again, and left alone. -/
theorem one_task_at_a_time_replay :
    let p := Producer.replay "left" [.events "recorded" [⟨0, 10, 7, .empty⟩]] 5
    let acts : List Act := [.boot, .start ⟨0, 0, default⟩, .tick 0 5 default, .stop 5 false,
      .notice 0 5 default]
    let call : Polling.Request × Bool := (⟨0, true⟩, false)
    (∀ x, p.device ≠ .scripted x) ∧ p.slot = .empty ∧ (Shared.mk p []).Apart acts ∧
    ∃ s spills s', (Shared.mk p []).after? acts = some s ∧
      s.act? (.resume 6 call) = some (spills, s') ∧ s'.producer.slot.tasks = [] ∧
      s'.handedDuring [.stop 7 true, .tick 0 8 default, .notice 0 8 default] = [] := by
  intro p acts call
  have hends : (((Shared.mk p []).after? acts).bind (·.act? (.resume 6 call))).isSome = true := by
    decide +revert
  have hreal : ∀ x, p.device ≠ .scripted x := fun x => nofun
  have hapart : (Shared.mk p []).Apart acts := by
    refine ⟨nofun, fun _ s₁ h₁ => ⟨fun _ => ?_, fun _ _ _ => ⟨nofun, fun _ _ _ => ⟨nofun,
      fun _ _ _ => ⟨nofun, fun _ _ _ => trivial⟩⟩⟩⟩⟩
    obtain ⟨-, rfl⟩ := Prod.mk.inj (Option.some.inj h₁)
    rfl
  obtain ⟨⟨spills, s'⟩, hends⟩ := Option.isSome_iff_exists.mp hends
  obtain ⟨s, hs, hs'⟩ := Option.bind_eq_some_iff.mp hends
  obtain ⟨-, -, hreturn⟩ := one_task_at_a_time hreal rfl hs hapart
  obtain ⟨hnone, hrest⟩ := hreturn _ spills s' hs' trivial
  exact ⟨hreal, rfl, hapart, s, spills, s', hs, hs', hnone, hrest _ (by decide)⟩

/-- What does not hold of calls that overlap, and of a task that crashes. A replay that is started
while a stop waits has two tasks, and when the first ends it looks still with one alive. A second
stop returns at once while the task goes on handing over. A digitizer whose task has crashed looks
alive without one. -/
theorem overlapping_calls_break :
    let left := Producer.replay "left" [.events "recorded" [⟨0, 10, 7, .empty⟩]] 5
    let fast := Producer.synthetic "sim" { (default : Synthetic.Config) with
      rate := 1e308, interval := 10000 }
    let start := Act.start ⟨0, 0, default⟩
    let seen (s : Shared) := (s.producer.slot.tasks.length, s.producer.isRunning)
    ((Shared.mk left []).after? [.boot, start, .stop 1 false, start]).map seen = some (2, true) ∧
    ((Shared.mk left []).after? [.boot, start, .stop 1 false, start, .notice 0 2 default]).map seen
      = some (1, false) ∧
    ((Shared.mk left []).after? [.boot, start, .stop 1 false, .stop 2 false]).map
        (fun s => (s.waiting.length, (s.handedDuring [.tick 0 5 default]).length)) = some (1, 1) ∧
    ((Shared.mk fast []).after? [.boot, start, .tick 0 10000 default]).map seen =
      some (0, true) := by
  decide +kernel

end Shared

end ListMode.Producer
