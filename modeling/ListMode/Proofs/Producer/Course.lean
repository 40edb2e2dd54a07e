import ListMode.Proofs.Producer.Calls

/-!
# The course of one acquisition

While an acquisition goes on, anybody may call its producer, and other tasks may still be about to
end. `Course` says what a single acquisition can hand over, readout by readout, and where that leaves
it. In every interleaving of calls and tasks each acquisition takes such a course: what its task
hands over does not depend on what the others do, and it ends as stopped only if its task was asked
to before.
-/

namespace ListMode

/-- Where an acquisition stands. -/
inductive Acquisition.Standing where
  | going (a : Acquisition)
  /-- It has ended by itself. -/
  | complete
  /-- It has ended because it was asked to. -/
  | stopped
  | crashed

/-- After `k` readouts the acquisition that began as `first` has handed over `spills`, and stands as
said. -/
inductive Acquisition.Course (first : Acquisition) :
    (k : Nat) → (spills : List Spill) → Acquisition.Standing → Prop where
  | begins : Course first 0 [] (.going first)
  | goesOn {k : Nat} {spills : List Spill} {a a' : Acquisition} {r : Reading}
      {o : Readout Acquisition} (h : Course first k spills (.going a)) (ho : a.tick? r = some o)
      (hnext : o.next = some a') : Course first (k + 1) (spills ++ o.spills) (.going a')
  | completes {k : Nat} {spills : List Spill} {a : Acquisition} {r : Reading}
      {o : Readout Acquisition} (h : Course first k spills (.going a)) (ho : a.tick? r = some o)
      (hnext : o.next = none) : Course first (k + 1) (spills ++ o.spills) .complete
  | crashes {k : Nat} {spills : List Spill} {a : Acquisition} {r : Reading}
      (h : Course first k spills (.going a)) (ho : a.tick? r = none) :
      Course first (k + 1) spills .crashed
  | stops {k : Nat} {spills : List Spill} {a : Acquisition} (r : Reading)
      (h : Course first k spills (.going a)) : Course first k (spills ++ [a.stopSpill r]) .stopped

/-- Task `n` of the slot is where its acquisition stands. `asked` says that it has been asked to
stop. -/
def Polling.Slot.Shows (slot : Polling.Slot Acquisition) (n : Nat) (asked : Prop) :
    Acquisition.Standing → Prop
  | .going a => ∃ t, slot.task? n = some t ∧ t.work = a ∧ (t.asked = true → asked)
  | .stopped => slot.task? n = none ∧ asked
  | .complete | .crashed => slot.task? n = none

namespace Producer

theorem real_synthetic (id : String) (config : Synthetic.Config) :
    ∀ x, (synthetic id config).device ≠ .scripted x := nofun

theorem real_replay (id : String) (recording : List Spill) (interval : Nat) :
    ∀ x, (replay id recording interval).device ≠ .scripted x := nofun

/-- The acquisition that a start begins, if the device acquires in tasks. -/
def acquisition? (p : Producer) (l : Launch) : Option Acquisition :=
  match p.device with
  | .synthetic config =>
    let source := match config.seed with
      | some seed => Random.Source.ofSeed seed
      | none => l.source
    some ⟨l.queue, l.time, .synthetic (.start p.id config source)⟩
  | .replay recording interval _ =>
    some ⟨l.queue, l.time, .replay (.start p.id interval recording)⟩
  | .scripted _ => none

/-- A start that is accepted gives the acquisition to the slot, and hands nothing over. -/
theorem start_acquisition {p : Producer} {l : Launch} {first : Acquisition}
    (hfirst : p.acquisition? l = some first) (hstart : (p.start l).1 = true) :
    (p.slot.start first).1 = true ∧
      (p.start l).2 = ([], { p with slot := (p.slot.start first).2 }) := by
  obtain ⟨id, status, device, slot⟩ := p
  unfold start at hstart ⊢
  cases hcan : status.canRun
  · cases device with
    | synthetic | replay =>
      simp only [hcan, Bool.false_eq_true, if_false] at hstart
    | scripted x => nomatch hfirst
  · cases device with
    | synthetic | replay =>
      obtain rfl := Option.some.inj hfirst
      simp only [hcan, if_true] at hstart
      exact ⟨hstart, rfl⟩
    | scripted x => nomatch hfirst

namespace Shared

/-- Task `n` reads out. -/
def Act.isTick (n : Nat) : Act → Bool
  | .tick m .. => m == n
  | _ => false

/-- It is task `n` that acts. -/
def Act.isOf (n : Nat) : Act → Bool
  | .tick m .. | .notice m .. => m == n
  | _ => false

/-- What task `n` hands over during a list of actions, as far as they are enabled. -/
def handedBy (s : Shared) (n : Nat) : List Act → List Spill
  | [] => []
  | a :: rest => ((s.act? a).map fun (handed, s) =>
      (if a.isOf n then handed.map (·.spill) else []) ++ s.handedBy n rest).getD []

/-- By this action a caller takes the place of the held task away: he stops the producer, shuts it
down, or gets it to start. -/
def displaces (s : Shared) : Act → Bool
  | .stop .. => true
  | .start l => (s.producer.start l).1
  | _ => false

/-- By this action the slot asks task `n`, which has not ended, to stop. -/
def Asks (s : Shared) (n : Nat) (a : Act) : Prop :=
  s.displaces a = true ∧ s.producer.slot.held = some n ∧
    (s.producer.slot.task? n).isSome = true

/-- Some action of the list asks task `n` to stop. -/
def AskedDuring (s : Shared) (n : Nat) : List Act → Prop
  | [] => False
  | a :: rest => s.Asks n a ∨
      ∃ handed s', s.act? a = some (handed, s') ∧ s'.AskedDuring n rest

/-! ## What an action does to the slot -/

/-- What an action of a caller or of a task does to the slot, and what it hands over. -/
inductive Turn (slot : Polling.Slot Acquisition) :
    Act → List Delivery → Polling.Slot Acquisition → Prop where
  | rests {a : Act} (ha : ∀ n, a.isOf n = false) : Turn slot a [] slot
  | starts {l : Launch} (work : Acquisition) : Turn slot (.start l) [] (slot.start work).2
  | asks {time : Nat} {offline : Bool} : Turn slot (.stop time offline) [] slot.beginStop.2
  | returns {time : Nat} {call : Polling.Request × Bool} {wasAlive : Bool}
      {slot' : Polling.Slot Acquisition} (he : slot.endStop? call.1 = some (wasAlive, slot')) :
      Turn slot (.resume time call) [] slot'
  | goesOn {n time : Nat} {now : Instant} {t : Polling.Task Acquisition} {o : Readout Acquisition}
      {work : Acquisition} (ht : slot.task? n = some t)
      (ho : t.work.tick? (t.work.reading time now) = some o) (hnext : o.next = some work) :
      Turn slot (.tick n time now) (o.spills.map (⟨t.work.queue, ·⟩))
        (slot.modify n fun t => { t with work })
  | completes {n time : Nat} {now : Instant} {t : Polling.Task Acquisition}
      {o : Readout Acquisition} (ht : slot.task? n = some t)
      (ho : t.work.tick? (t.work.reading time now) = some o) (hnext : o.next = none) :
      Turn slot (.tick n time now) (o.spills.map (⟨t.work.queue, ·⟩)) (slot.finish n)
  | crashes {n time : Nat} {now : Instant} {t : Polling.Task Acquisition}
      (ht : slot.task? n = some t) (ho : t.work.tick? (t.work.reading time now) = none) :
      Turn slot (.tick n time now) [] (slot.crash n)
  | stops {n time : Nat} {now : Instant} {t : Polling.Task Acquisition}
      (ht : slot.task? n = some t) (hasked : t.asked = true) :
      Turn slot (.notice n time now)
        [⟨t.work.queue, t.work.stopSpill (t.work.reading time now)⟩] (slot.finish n)

section

variable {s s' : Shared} {a : Act} {handed : List Delivery} {n : Nat}
  {slot slot' : Polling.Slot Acquisition}

/-- A digitizer or a replay stays one, under its name, and only a write changes its device. -/
structure Keeps (p p' : Producer) : Prop where
  id_eq : p'.id = p.id
  real : ∀ x, p'.device ≠ .scripted x
  device_eq : p'.device = p.device ∨ ∃ settings, p' = (p.write settings).2

theorem turn_of_act (hreal : ∀ x, s.producer.device ≠ .scripted x)
    (ha : s.act? a = some (handed, s')) :
    Turn s.producer.slot a handed s'.producer.slot ∧ Keeps s.producer s'.producer := by
  cases a with
  | boot =>
    obtain ⟨rfl, rfl⟩ := Prod.mk.inj (Option.some.inj ha)
    obtain ⟨status, hboot⟩ := boot_eq s.producer
    rw [hboot]
    exact ⟨.rests fun _ => rfl, rfl, hreal, .inl rfl⟩
  | write settings =>
    obtain ⟨rfl, rfl⟩ := Prod.mk.inj (Option.some.inj ha)
    obtain ⟨device, hwrite, hkind⟩ := write_eq s.producer settings
    refine ⟨?_, ?_, ?_, .inr ⟨settings, rfl⟩⟩
    · rw [hwrite]
      exact .rests fun _ => rfl
    · rw [hwrite]
    · rw [hwrite]
      exact hkind hreal
  | start l =>
    obtain ⟨rfl, rfl⟩ := Prod.mk.inj (Option.some.inj ha)
    rcases start_eq hreal l with ⟨-, he⟩ | ⟨-, work, he⟩
    · rw [he]
      exact ⟨.rests fun _ => rfl, rfl, hreal, .inl rfl⟩
    · rw [he]
      exact ⟨.starts _, rfl, hreal, .inl rfl⟩
  | stop time offline =>
    rw [act?_stop hreal] at ha
    obtain ⟨rfl, rfl⟩ := Prod.mk.inj (Option.some.inj ha)
    have hturn : Turn s.producer.slot (.stop time offline) [] s.producer.slot.beginStop.2 := .asks
    generalize s.producer.slot.beginStop = begun at hturn ⊢
    rcases begun with ⟨_ | request, slot⟩
    · refine ⟨?_, id_left _ offline, ?_, .inl (device_left _ offline)⟩
      · rw [slot_left]
        exact hturn
      · rw [device_left]
        exact hreal
    · exact ⟨hturn, rfl, hreal, .inl rfl⟩
  | resume time call =>
    obtain ⟨-, rfl, wasAlive, slot, hslot, rfl⟩ := resume_cases ha
    refine ⟨?_, id_left _ call.2, ?_, .inl (device_left _ call.2)⟩
    · rw [slot_left]
      exact .returns hslot
    · rw [device_left]
      exact hreal
  | tick n time now =>
    obtain ⟨⟨more, p⟩, hp, hresult⟩ := Option.map_eq_some_iff.mp ha
    obtain ⟨rfl, rfl⟩ := Prod.mk.inj hresult
    obtain ⟨t, ht, hp⟩ := Option.map_eq_some_iff.mp hp
    cases ho : t.work.tick? (t.work.reading time now) with
    | none =>
      rw [ho] at hp
      obtain ⟨rfl, rfl⟩ := Prod.mk.inj hp
      exact ⟨.crashes ht ho, rfl, hreal, .inl rfl⟩
    | some o =>
      rw [ho] at hp
      obtain ⟨rfl, rfl⟩ := Prod.mk.inj hp
      cases hnext : o.next with
      | none => exact ⟨.completes ht ho hnext, rfl, hreal, .inl rfl⟩
      | some work => exact ⟨.goesOn ht ho hnext, rfl, hreal, .inl rfl⟩
  | notice n time now =>
    obtain ⟨⟨more, p⟩, hp, hresult⟩ := Option.map_eq_some_iff.mp ha
    obtain ⟨rfl, rfl⟩ := Prod.mk.inj hresult
    unfold notice? at hp
    split at hp
    · rename_i t ht
      split at hp
      · rename_i hasked
        obtain ⟨rfl, rfl⟩ := Prod.mk.inj (Option.some.inj hp)
        exact ⟨.stops ht hasked, rfl, hreal, .inl rfl⟩
      · nomatch hp
    · nomatch hp

/-! ## One task in all interleavings -/

theorem Turn.started_le (h : Turn slot a handed slot') : slot.started ≤ slot'.started := by
  cases h with
  | rests | asks | goesOn | completes | crashes | stops => exact Nat.le_refl _
  | starts work => exact slot.started_start work
  | returns he => exact Nat.le_of_eq (Polling.Slot.kept_endStop? he).2.2.symm

theorem Turn.numbered (h : Turn slot a handed slot') (hslot : slot.Numbered) : slot'.Numbered := by
  cases h with
  | rests => exact hslot
  | starts work => exact hslot.start work
  | asks => exact hslot.letGo
  | returns he =>
    obtain ⟨htasks, -, hstarted⟩ := Polling.Slot.kept_endStop? he
    exact hslot.of_subset (htasks ▸ List.Subset.refl _) hstarted
  | goesOn => exact hslot.modify fun _ => rfl
  | completes | crashes | stops => exact hslot.of_subset (List.filter_subset_self _) rfl

/-- What an action changes about the task that is held is the work of a caller. -/
theorem displaces_of_act (hreal : ∀ x, s.producer.device ≠ .scripted x)
    (ha : s.act? a = some (handed, s'))
    (hheld : s'.producer.slot.held ≠ s.producer.slot.held) : s.displaces a = true := by
  obtain ⟨hturn, -⟩ := turn_of_act hreal ha
  generalize hslot : s'.producer.slot = slot' at hturn hheld
  cases hturn with
  | rests | goesOn | completes | crashes | stops => exact absurd rfl hheld
  | asks => rfl
  | returns he => exact absurd (Polling.Slot.kept_endStop? he).2.1 hheld
  | @starts l work =>
    obtain ⟨-, rfl⟩ := Prod.mk.inj (Option.some.inj ha)
    refine (Bool.eq_false_or_eq_true _).resolve_right fun hrefused => hheld ?_
    rw [← hslot]
    exact congrArg (·.2.2.slot.held) (start_refused hrefused)

theorem isOf_tick (n time : Nat) (now : Instant) : Act.isOf n (.tick n time now) = true :=
  beq_self_eq_true n

/-- Only task `n` makes its readouts. -/
theorem isTick_of_isOf (ha : a.isOf n = false) : a.isTick n = false := by
  cases a with
  | tick => exact ha
  | _ => rfl

theorem countP_tick (n time : Nat) (now : Instant) :
    [Act.tick n time now].countP (·.isTick n) = 1 := by
  simp [Act.isTick]

theorem map_spill (queue : Nat) (spills : List Spill) :
    (spills.map (Delivery.mk queue)).map (·.spill) = spills := by
  rw [List.map_map]
  exact List.map_id spills

/-- What does not touch the work of task `n` leaves its acquisition where it stands. -/
theorem shows_map {standing : Acquisition.Standing} {asked asked' : Prop}
    {f : Polling.Task Acquisition → Polling.Task Acquisition}
    (h : slot.Shows n asked standing) (htask : slot'.task? n = (slot.task? n).map f)
    (hwork : ∀ t, (f t).work = t.work)
    (hasked : ∀ t, slot.task? n = some t → (f t).asked = true → t.asked = true ∨ asked')
    (hmono : asked → asked') : slot'.Shows n asked' standing := by
  cases standing with
  | going a =>
    obtain ⟨t, ht, hta, hask⟩ := h
    refine ⟨f t, ?_, (hwork t).trans hta, fun hft => ?_⟩
    · rw [htask, ht, Option.map_some]
    · exact (hasked t ht hft).elim (fun h => hmono (hask h)) fun h => h
  | stopped =>
    obtain ⟨hnone, hdone⟩ := h
    exact ⟨by rw [htask, hnone, Option.map_none], hmono hdone⟩
  | complete | crashed =>
    have hnone : slot.task? n = none := h
    show slot'.task? n = none
    rw [htask, hnone, Option.map_none]

/-- Task `n` was given its number by this slot, and has taken a course of the acquisition that began
as `first`. -/
def Follows (first : Acquisition) (n : Nat) (slot : Polling.Slot Acquisition) (asked : Prop)
    (k : Nat) (spills : List Spill) : Prop :=
  n < slot.started ∧ ∃ standing, first.Course k spills standing ∧ slot.Shows n asked standing

section

variable {first : Acquisition} {asked asked' : Prop} {k : Nat} {spills : List Spill}

theorem Follows.frame (h : Follows first n slot asked k spills)
    (hstarted : slot.started ≤ slot'.started) (htask : slot'.task? n = slot.task? n)
    (hmono : asked → asked') : Follows first n slot' asked' k spills := by
  obtain ⟨hn, standing, hcourse, hshows⟩ := h
  refine ⟨Nat.lt_of_lt_of_le hn hstarted, standing, hcourse, shows_map hshows (f := fun t => t) ?_
    (fun _ => rfl) (fun _ _ => .inl) hmono⟩
  rw [htask, Option.map_id']

/-- An acquisition that has a task goes on. -/
theorem Follows.going (h : Follows first n slot asked k spills)
    {t : Polling.Task Acquisition} (ht : slot.task? n = some t) :
    first.Course k spills (.going t.work) ∧ (t.asked = true → asked) := by
  obtain ⟨-, standing, hcourse, hshows⟩ := h
  cases standing with
  | going a =>
    obtain ⟨t', ht', rfl, hasked⟩ := hshows
    obtain rfl := Option.some.inj (ht.symm.trans ht')
    exact ⟨hcourse, hasked⟩
  | stopped => nomatch ht.symm.trans hshows.1
  | complete | crashed => nomatch ht.symm.trans hshows

/-- One action. Another task, or a caller, changes at most whether the task is asked to stop. -/
theorem Follows.turn (h : Follows first n slot asked k spills) (hturn : Turn slot a handed slot')
    (hasks : slot.held = some n → slot'.held ≠ some n → (slot.task? n).isSome = true → asked')
    (hmono : asked → asked') :
    Follows first n slot' asked' (k + [a].countP (·.isTick n))
      (spills ++ if a.isOf n then handed.map (·.spill) else []) := by
  have hle := hturn.started_le
  have hn := Nat.lt_of_lt_of_le h.1 hle
  -- whoever does not act for task `n` is framed off
  have hother : a.isOf n = false → slot'.task? n = slot.task? n →
      Follows first n slot' asked' (k + [a].countP (·.isTick n))
        (spills ++ if a.isOf n then handed.map (·.spill) else []) := by
    intro ha htask
    rw [ha, List.countP_singleton, isTick_of_isOf ha]
    simp only [Bool.false_eq_true, if_false, Nat.add_zero, List.append_nil]
    exact h.frame hle htask hmono
  have hlets : a.isOf n = false → slot'.task? n = slot.letGo.task? n → slot'.held ≠ some n →
      Follows first n slot' asked' (k + [a].countP (·.isTick n))
        (spills ++ if a.isOf n then handed.map (·.spill) else []) := by
    intro ha htask hheld
    obtain ⟨-, standing, hcourse, hshows⟩ := h
    rw [ha, List.countP_singleton, isTick_of_isOf ha]
    simp only [Bool.false_eq_true, if_false, Nat.add_zero, List.append_nil]
    refine ⟨hn, standing, hcourse, shows_map hshows (htask.trans (slot.task?_letGo n))
      (fun t => ?_) (fun t ht hasked => ?_) hmono⟩
    · split <;> rfl
    · split at hasked
      · rename_i hholds
        exact .inr (hasks hholds hheld (by rw [ht]; rfl))
      · exact .inl hasked
  cases hturn with
  | rests ha => exact hother (ha n) rfl
  | starts work =>
    have htask := slot.task?_start h.1 work
    by_cases hnew : (slot.start work).1 = true
    · refine hlets rfl (htask.trans (if_pos hnew)) fun he => ?_
      rw [Polling.Slot.held_start hnew] at he
      exact Nat.ne_of_lt h.1 (Option.some.inj he).symm
    · exact hother rfl (htask.trans (if_neg hnew))
  | asks => exact hlets rfl rfl nofun
  | returns he =>
    refine hother rfl ?_
    rw [Polling.Slot.task?, (Polling.Slot.kept_endStop? he).1]
    rfl
  | @goesOn m time now t o work ht ho hnext =>
    by_cases hm : m = n
    · subst hm
      obtain ⟨hcourse, hasked⟩ := h.going ht
      have hnew := slot.task?_modify_self (f := fun t => { t with work }) (fun _ => rfl) ht
      simp only [isOf_tick, countP_tick, if_pos, map_spill]
      exact ⟨hn, .going work, hcourse.goesOn ho hnext, _, hnew, rfl, fun h => hmono (hasked h)⟩
    · exact hother (beq_eq_false_iff_ne.mpr hm)
        (slot.task?_modify_ne (f := fun t => { t with work }) (fun _ => rfl) hm)
  | @completes m time now t o ht ho hnext =>
    have hgone : (slot.finish m).task? n = _ := Polling.Slot.task?_without rfl
    by_cases hm : m = n
    · subst hm
      simp only [isOf_tick, countP_tick, if_pos, map_spill]
      exact ⟨hn, .complete, (h.going ht).1.completes ho hnext, hgone.trans (if_pos rfl)⟩
    · exact hother (beq_eq_false_iff_ne.mpr hm) (hgone.trans (if_neg hm))
  | @crashes m time now t ht ho =>
    have hgone : (slot.crash m).task? n = _ := Polling.Slot.task?_without rfl
    by_cases hm : m = n
    · subst hm
      simp only [isOf_tick, countP_tick, if_pos, List.map_nil, List.append_nil]
      exact ⟨hn, .crashed, (h.going ht).1.crashes ho, hgone.trans (if_pos rfl)⟩
    · exact hother (beq_eq_false_iff_ne.mpr hm) (hgone.trans (if_neg hm))
  | @stops m time now t ht hasked =>
    have hgone : (slot.finish m).task? n = _ := Polling.Slot.task?_without rfl
    by_cases hm : m = n
    · subst hm
      obtain ⟨hcourse, hbefore⟩ := h.going ht
      have hof : Act.isOf m (.notice m time now) = true := beq_self_eq_true m
      rw [hof, if_pos rfl]
      exact ⟨hn, .stopped, hcourse.stops _, hgone.trans (if_pos rfl), hmono (hbefore hasked)⟩
    · exact hother (beq_eq_false_iff_ne.mpr hm) (hgone.trans (if_neg hm))

/-- A whole interleaving. -/
theorem Follows.after {acts : List Act} (h : Follows first n s.producer.slot asked k spills)
    (hreal : ∀ x, s.producer.device ≠ .scripted x) (hacts : s.after? acts = some s')
    (hasked : asked ∨ s.AskedDuring n acts → asked') :
    Follows first n s'.producer.slot asked' (k + acts.countP (·.isTick n))
      (spills ++ s.handedBy n acts) := by
  induction acts generalizing s k spills asked with
  | nil =>
    obtain rfl := Option.some.inj hacts
    rw [handedBy, List.append_nil]
    exact h.frame (Nat.le_refl _) rfl fun h => hasked (.inl h)
  | cons a rest ih =>
    obtain ⟨⟨handed, s₁⟩, ha, hrest⟩ := Option.bind_eq_some_iff.mp hacts
    obtain ⟨hturn, -, hreal₁, -⟩ := turn_of_act hreal ha
    have hstep : Follows first n s₁.producer.slot (asked ∨ s.Asks n a)
        (k + [a].countP (·.isTick n))
        (spills ++ if a.isOf n then handed.map (·.spill) else []) :=
      h.turn hturn (fun hholds hlost hthere => .inr
        ⟨displaces_of_act hreal ha (hholds ▸ hlost), hholds, hthere⟩) .inl
    have hdone := ih hstep hreal₁ hrest fun hd => hasked <| by
      rcases hd with (hd | hd) | hd
      · exact .inl hd
      · exact .inr (.inl hd)
      · exact .inr (.inr ⟨handed, s₁, ha, hd⟩)
    have hhanded : s.handedBy n (a :: rest) =
        (if a.isOf n then handed.map (·.spill) else []) ++ s₁.handedBy n rest := by
      rw [handedBy, ha]
      rfl
    rw [hhanded, ← List.append_assoc, ← List.singleton_append, List.countP_append, ← Nat.add_assoc]
    exact hdone

end

/-- What all interleavings keep of a digitizer or a replay: its name, its kind, and that its slot
numbers its tasks. -/
theorem kept_after {acts : List Act} (hreal : ∀ x, s.producer.device ≠ .scripted x)
    (hslot : s.producer.slot.Numbered) (hacts : s.after? acts = some s') :
    s'.producer.id = s.producer.id ∧ (∀ x, s'.producer.device ≠ .scripted x) ∧
      s'.producer.slot.Numbered := by
  induction acts generalizing s with
  | nil =>
    obtain rfl := Option.some.inj hacts
    exact ⟨rfl, hreal, hslot⟩
  | cons a rest ih =>
    obtain ⟨⟨handed, s₁⟩, ha, hrest⟩ := Option.bind_eq_some_iff.mp hacts
    obtain ⟨hturn, hid, hreal₁, -⟩ := turn_of_act hreal ha
    obtain ⟨hid', hreal', hslot'⟩ := ih hreal₁ (hturn.numbered hslot) hrest
    exact ⟨hid'.trans hid, hreal', hslot'⟩

/-- Every acquisition that a digitizer or a replay begins takes a course of its own, with as many
readouts as its task has made. -/
theorem course_of_start {p : Producer} {before acts : List Act} {s₀ : Shared} {l : Launch}
    {first : Acquisition} (hreal : ∀ x, p.device ≠ .scripted x) (hslot : p.slot = .empty)
    (hbefore : (Shared.mk p []).after? before = some s₀)
    (hfirst : s₀.producer.acquisition? l = some first)
    (hstart : (s₀.producer.start l).1 = true)
    (hacts : s₀.after? (.start l :: acts) = some s) :
    ∃ standing,
      first.Course (acts.countP (·.isTick s₀.producer.slot.started))
        (s₀.handedBy s₀.producer.slot.started (.start l :: acts)) standing ∧
      s.producer.slot.Shows s₀.producer.slot.started
        (s₀.AskedDuring s₀.producer.slot.started (.start l :: acts)) standing := by
  obtain ⟨-, hreal₀, hnumbered⟩ := kept_after hreal
    (hslot ▸ Polling.Slot.numbered_empty) hbefore
  obtain ⟨hgiven, hstarted⟩ := start_acquisition hfirst hstart
  obtain ⟨⟨handed, s₁⟩, ha, hrest⟩ := Option.bind_eq_some_iff.mp hacts
  obtain ⟨-, -, hreal₁, -⟩ := turn_of_act hreal₀ ha
  obtain ⟨-, hs₁⟩ := Prod.mk.inj (Option.some.inj ha)
  have hnew := hnumbered.task?_new hgiven
  have hbegun : s₁.producer.slot = (s₀.producer.slot.start first).2 := by
    rw [← hs₁]
    exact congrArg (·.2.slot) hstarted
  have hfollows : Follows first s₀.producer.slot.started s₁.producer.slot False 0 [] := by
    rw [hbegun]
    refine ⟨?_, .going first, .begins, _, hnew, rfl, fun hasked => nomatch hasked⟩
    exact (hnumbered.start first) _ (List.mem_of_find?_eq_some hnew)
  have hlater : False ∨ s₁.AskedDuring s₀.producer.slot.started acts →
      s₀.AskedDuring s₀.producer.slot.started (.start l :: acts) :=
    fun hd => hd.elim False.elim fun hd => .inr ⟨handed, s₁, ha, hd⟩
  obtain ⟨-, standing, hcourse, hshows⟩ := hfollows.after hreal₁ hrest hlater
  refine ⟨standing, ?_, hshows⟩
  have hhanded : s₀.handedBy s₀.producer.slot.started (.start l :: acts) =
      s₁.handedBy s₀.producer.slot.started acts := by
    rw [handedBy, ha]
    rfl
  rw [hhanded]
  rwa [Nat.zero_add, List.nil_append] at hcourse

/-- Where nobody stops or starts the producer, no task is asked to stop. -/
theorem not_askedDuring {acts : List Act} (hacts : ∀ a ∈ acts, ∀ s : Shared, s.displaces a = false) :
    ¬s.AskedDuring n acts := by
  induction acts generalizing s with
  | nil => exact fun h => h
  | cons a rest ih =>
    obtain ⟨hstop, hrest⟩ := List.forall_mem_cons.mp hacts
    rintro (⟨hasks, -⟩ | ⟨-, s₁, -, hd⟩)
    · nomatch (hstop s).symm.trans hasks
    · exact ih hrest hd

end

end Shared

end Producer

end ListMode
