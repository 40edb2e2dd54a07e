import Mathlib.Data.List.Basic
import ListMode.Polling

/-!
# One task at a time

A slot together with the requests that wait for its tasks. `Sole` says that at most one task counts,
held by the slot or waited for by a request, and that the slot looks alive exactly as long as this
task has not ended, or has crashed and nobody has seen it. Every operation keeps this up but one: a
start while a request waits.
-/

namespace ListMode.Polling.Slot

section

variable {β : Type} {s s' : Slot β} {waiting : List Request} {n : Nat} {t : Task β}

/-- Tasks that somebody is in charge of: the slot holds them, or a request waits for them. -/
def charged (s : Slot β) (waiting : List Request) : List Nat :=
  s.held.toList ++ waiting.map (·.number)

/-- Tasks that have not ended, or crashed and have not been waited for. -/
def unfinished (s : Slot β) : List Nat := s.tasks.map (·.number) ++ s.crashed

/-- At most one task counts, and the slot looks alive exactly as long as it is unfinished. -/
structure Sole (waiting : List Request) (s : Slot β) : Prop where
  one : (s.charged waiting).length ≤ 1
  live : s.unfinished.Sublist (s.charged waiting)
  alive : s.alive = true ↔ s.unfinished ≠ []

theorem sole_empty : Sole [] (empty : Slot β) := by
  refine ⟨Nat.zero_le 1, .slnil, ?_⟩
  simp [empty, unfinished]

/-! ## What the invariant says -/

theorem task?_eq_some (h : s.task? n = some t) : t ∈ s.tasks ∧ t.number = n :=
  ⟨List.mem_of_find?_eq_some h, by simpa using List.find?_some h⟩

theorem Sole.length_unfinished (h : s.Sole waiting) : s.unfinished.length ≤ 1 :=
  Nat.le_trans h.live.length_le h.one

theorem Sole.length_tasks (h : s.Sole waiting) : s.tasks.length ≤ 1 := by
  have hlen := h.length_unfinished
  rw [unfinished, List.length_append, List.length_map] at hlen
  omega

/-- A task that has not ended is the only one, and none has crashed. -/
theorem Sole.task (h : s.Sole waiting) (ht : s.task? n = some t) :
    s.tasks = [t] ∧ s.crashed = [] := by
  obtain ⟨hmem, -⟩ := task?_eq_some ht
  have hlen := h.length_unfinished
  rw [unfinished, List.length_append, List.length_map] at hlen
  have hpos := List.length_pos_of_mem hmem
  refine ⟨?_, List.eq_nil_of_length_eq_zero (by omega)⟩
  obtain ⟨x, hx⟩ := List.length_eq_one_iff.mp (show s.tasks.length = 1 by omega)
  rw [hx, List.mem_singleton] at hmem
  rw [hx, hmem]

/-- Where nobody is in charge of a task, there is none. -/
theorem Sole.unfinished_eq_nil (h : s.Sole []) (hheld : s.held = none) : s.unfinished = [] := by
  have hlive := h.live
  rw [charged, hheld] at hlive
  exact List.sublist_nil.mp hlive

/-- While a request waits, the slot holds nothing and no other request waits. -/
theorem Sole.waiting_eq (h : s.Sole waiting) {r : Request} (hr : r ∈ waiting) :
    s.held = none ∧ waiting = [r] := by
  have hone := h.one
  rw [charged, List.length_append, List.length_map] at hone
  have hpos := List.length_pos_of_mem hr
  constructor
  · cases hheld : s.held with
    | none => rfl
    | some n =>
      rw [hheld, Option.toList_some, List.length_singleton] at hone
      omega
  · obtain ⟨x, hx⟩ := List.length_eq_one_iff.mp (show waiting.length = 1 by omega)
    rw [hx, List.mem_singleton] at hr
    rw [hx, hr]

/-! ## Operations -/

/-- A task is started exactly if none is unfinished. -/
theorem Sole.start_iff (h : s.Sole []) (work : β) :
    (s.start work).1 = true ↔ s.unfinished = [] := by
  unfold Slot.start
  split
  · rename_i hbusy
    simp only [Bool.and_eq_true] at hbusy
    simp [h.alive.mp hbusy.2]
  · rename_i hfree
    refine iff_of_true rfl ?_
    cases hheld : s.held with
    | none => exact h.unfinished_eq_nil hheld
    | some n =>
      have hdead : s.alive ≠ true := by simpa [hheld] using hfree
      exact Decidable.not_not.mp fun hne => hdead (h.alive.mpr hne)

theorem map_number_modify {f : Task β → Task β} (hf : ∀ t, (f t).number = t.number) :
    (s.modify n f).tasks.map (·.number) = s.tasks.map (·.number) := by
  unfold modify
  rw [List.map_map]
  refine List.map_congr_left fun t _ => ?_
  rw [Function.comp_apply]
  split
  · exact hf t
  · rfl

theorem unfinished_modify {f : Task β → Task β} (hf : ∀ t, (f t).number = t.number) :
    (s.modify n f).unfinished = s.unfinished :=
  congrArg (· ++ s.crashed) (map_number_modify hf)

theorem Sole.modify (h : s.Sole waiting) {f : Task β → Task β}
    (hf : ∀ t, (f t).number = t.number) : (s.modify n f).Sole waiting := by
  have hunfinished := unfinished_modify (s := s) (n := n) hf
  refine ⟨h.one, ?_, ?_⟩
  · rw [hunfinished]
    exact h.live
  · rw [hunfinished]
    exact h.alive

/-- To let go of a task changes neither its number nor its work. -/
theorem mem_letGo (ht : t ∈ s.letGo.tasks) :
    ∃ t' ∈ s.tasks, t'.number = t.number ∧ t'.work = t.work := by
  obtain ⟨t', ht', rfl⟩ := List.mem_map.mp ht
  refine ⟨t', ht', ?_⟩
  split
  · exact ⟨rfl, rfl⟩
  · exact ⟨rfl, rfl⟩

theorem map_number_letGo (s : Slot β) :
    s.letGo.tasks.map (·.number) = s.tasks.map (·.number) := by
  unfold letGo
  rw [List.map_map]
  refine List.map_congr_left fun t _ => ?_
  rw [Function.comp_apply]
  split
  · rfl
  · rfl

theorem unfinished_letGo (s : Slot β) : s.letGo.unfinished = s.unfinished :=
  congrArg (· ++ s.crashed) (map_number_letGo s)

/-- A slot without a task has none to let go of. -/
theorem beginStop_of_held_none (hheld : s.held = none) : s.beginStop = (none, s) := by
  obtain ⟨held, alive, tasks, crashed, started⟩ := s
  obtain rfl : held = none := hheld
  simp [Slot.beginStop, letGo]

theorem Sole.start (h : s.Sole []) (work : β) : (s.start work).2.Sole [] := by
  have hstart := h.start_iff work
  unfold Slot.start at hstart ⊢
  split
  · exact h
  · rename_i hfree
    rw [if_neg hfree] at hstart
    have hnone : s.letGo.unfinished = [] := (unfinished_letGo s).trans (hstart.mp rfl)
    obtain ⟨htasks, hcrashed⟩ := List.append_eq_nil_iff.mp hnone
    rw [List.map_eq_nil_iff] at htasks
    constructor
    · exact Nat.le_refl 1
    · simp [unfinished, charged, htasks, hcrashed]
    · simp [unfinished]

/-- A request takes the task over that the slot held. -/
theorem Sole.beginStop (h : s.Sole waiting) :
    s.beginStop.2.Sole (waiting ++ s.beginStop.1.toList) := by
  have hcharged : s.letGo.charged (waiting ++ s.beginStop.1.toList) = s.charged waiting := by
    have hone := h.one
    unfold charged at hone ⊢
    unfold Slot.beginStop Slot.letGo
    cases hheld : s.held with
    | none => simp
    | some n =>
      rw [hheld, Option.toList_some, List.length_append, List.length_map, List.length_singleton]
        at hone
      obtain rfl : waiting = [] := List.eq_nil_of_length_eq_zero (by omega)
      rfl
  show s.letGo.Sole _
  refine ⟨?_, ?_, ?_⟩
  · rw [hcharged]
    exact h.one
  · rw [hcharged, unfinished_letGo]
    exact h.live
  · rw [unfinished_letGo]
    exact h.alive

/-- A task ends, and with it all that was unfinished. -/
theorem Sole.finish (h : s.Sole waiting) (ht : s.task? n = some t) :
    (s.finish n).Sole waiting ∧ (s.finish n).unfinished = [] := by
  obtain ⟨htasks, hcrashed⟩ := h.task ht
  have hnone : (s.finish n).unfinished = [] := by
    simp [unfinished, Slot.finish, htasks, hcrashed, (task?_eq_some ht).2]
  refine ⟨⟨h.one, ?_, ?_⟩, hnone⟩
  · rw [hnone]
    exact List.nil_sublist _
  · rw [hnone]
    simp [Slot.finish]

theorem Sole.crash (h : s.Sole waiting) (ht : s.task? n = some t) : (s.crash n).Sole waiting := by
  obtain ⟨htasks, hcrashed⟩ := h.task ht
  have hnumber := (task?_eq_some ht).2
  have hsame : (s.crash n).unfinished = s.unfinished := by
    simp [unfinished, Slot.crash, htasks, hcrashed, hnumber]
  refine ⟨h.one, ?_, ?_⟩
  · rw [hsame]
    exact h.live
  · rw [hsame]
    exact h.alive

theorem task?_finish (s : Slot β) (n : Nat) : (s.finish n).task? n = none := by
  simp [task?, Slot.finish]

/-- A request is complete as soon as its task has ended. -/
theorem endStop?_isSome {r : Request} (hgone : s.task? r.number = none) :
    (s.endStop? r).isSome = true := by
  unfold Slot.endStop?
  rw [hgone, if_neg (by simp)]
  split
  · rfl
  · rfl

/-- A request answers what it found when it was made. -/
theorem wasAlive_of_endStop? {r : Request} {wasAlive : Bool}
    (he : s.endStop? r = some (wasAlive, s')) : wasAlive = r.wasAlive := by
  unfold Slot.endStop? at he
  split at he
  · nomatch he
  · split at he
    · exact (Prod.mk.inj (Option.some.inj he)).1.symm
    · exact (Prod.mk.inj (Option.some.inj he)).1.symm

/-- A request that is complete leaves nothing unfinished. -/
theorem Sole.endStop (h : s.Sole waiting) {r : Request} {wasAlive : Bool} (hr : r ∈ waiting)
    (he : s.endStop? r = some (wasAlive, s')) :
    s'.Sole (waiting.erase r) ∧ s'.held = none ∧ s'.unfinished = [] := by
  obtain ⟨hheld, rfl⟩ := h.waiting_eq hr
  have hlive := h.live
  rw [charged, hheld, Option.toList_none, List.nil_append, List.map_singleton] at hlive
  unfold Slot.endStop? at he
  split at he
  · nomatch he
  · rename_i hgone
    have htasks : s.tasks = [] := by
      refine List.eq_nil_iff_forall_not_mem.mpr fun t ht => ?_
      refine hgone (List.find?_isSome.mpr ⟨t, ht, beq_iff_eq.mpr ?_⟩)
      have hmem : t.number ∈ s.unfinished := List.mem_append_left _ (List.mem_map_of_mem ht)
      exact List.mem_singleton.mp (hlive.subset hmem)
    have hdone : s'.held = none ∧ s'.unfinished = [] ∧ s'.alive = false := by
      rw [unfinished, htasks, List.map_nil, List.nil_append] at hlive
      split at he
      · rename_i hmem
        obtain ⟨-, rfl⟩ := Prod.mk.inj (Option.some.inj he)
        have hcrashed : s.crashed = [r.number] := by
          rcases List.sublist_singleton.mp hlive with hnil | hone
          · rw [hnil] at hmem
            nomatch hmem
          · exact hone
        exact ⟨hheld, by simp [unfinished, htasks, hcrashed], rfl⟩
      · rename_i hmem
        obtain ⟨-, rfl⟩ := Prod.mk.inj (Option.some.inj he)
        have hcrashed : s.crashed = [] := by
          rcases List.sublist_singleton.mp hlive with hnil | hone
          · exact hnil
          · rw [hone] at hmem
            exact absurd (List.mem_singleton.mpr rfl) hmem
        have hnone : s.unfinished = [] := by simp [unfinished, htasks, hcrashed]
        refine ⟨hheld, hnone, ?_⟩
        rw [← Bool.not_eq_true, h.alive, hnone]
        exact fun hne => hne rfl
    obtain ⟨hheld', hnone, hdead⟩ := hdone
    refine ⟨⟨?_, ?_, ?_⟩, hheld', hnone⟩
    · simp [charged, hheld']
    · rw [hnone]
      exact List.nil_sublist _
    · rw [hnone, hdead]
      simp

/-! ## One task among others -/

theorem task?_modify {f : Task β → Task β} (hf : ∀ t, (f t).number = t.number) (k : Nat) :
    (s.modify k f).task? n = (s.task? n).map fun t => if t.number == k then f t else t := by
  have hsame : (fun t : Task β => t.number == n) ∘ (fun t => if t.number == k then f t else t) =
      fun t => t.number == n := by
    funext t
    simp only [Function.comp_apply]
    split
    · rw [hf]
    · rfl
  unfold task? modify
  rw [List.find?_map, hsame]

theorem task?_modify_self {f : Task β → Task β} (hf : ∀ t, (f t).number = t.number)
    (ht : s.task? n = some t) : (s.modify n f).task? n = some (f t) := by
  rw [task?_modify hf, ht, Option.map_some, if_pos (beq_iff_eq.mpr (task?_eq_some ht).2)]

theorem task?_modify_ne {f : Task β → Task β} (hf : ∀ t, (f t).number = t.number) {k : Nat}
    (hk : k ≠ n) : (s.modify k f).task? n = s.task? n := by
  rw [task?_modify hf]
  cases ht : s.task? n with
  | none => rfl
  | some t =>
    rw [Option.map_some, if_neg]
    rw [beq_iff_eq, (task?_eq_some ht).2]
    exact hk.symm

/-- A task that ends or crashes is gone, and the others are where they were. -/
theorem task?_without {s' : Slot β} {k : Nat} (hs : s'.tasks = s.tasks.filter (·.number != k)) :
    s'.task? n = if k = n then none else s.task? n := by
  unfold task?
  rw [hs, List.find?_filter]
  split
  · rename_i hk
    subst hk
    simp
  · rename_i hk
    refine congrArg (List.find? · s.tasks) (funext fun t => ?_)
    by_cases ht : t.number = n
    · simp [ht, Ne.symm hk]
    · simp [ht]

/-- Every task has a number that was given out. -/
def Numbered (s : Slot β) : Prop := ∀ t ∈ s.tasks, t.number < s.started

theorem numbered_empty : (empty : Slot β).Numbered := nofun

theorem Numbered.modify (h : s.Numbered) {f : Task β → Task β}
    (hf : ∀ t, (f t).number = t.number) : (s.modify n f).Numbered := by
  intro t ht
  obtain ⟨t', ht', rfl⟩ := List.mem_map.mp ht
  split
  · rw [hf]
    exact h t' ht'
  · exact h t' ht'

theorem Numbered.letGo (h : s.Numbered) : s.letGo.Numbered := by
  intro t ht
  obtain ⟨t', ht', hnumber, -⟩ := mem_letGo ht
  exact hnumber ▸ h t' ht'

theorem Numbered.start (h : s.Numbered) (work : β) : (s.start work).2.Numbered := by
  unfold Slot.start
  split
  · exact h
  · intro t ht
    rcases List.mem_append.mp ht with ht | ht
    · exact Nat.lt_succ_of_lt (h.letGo t ht)
    · rw [List.mem_singleton.mp ht]
      exact Nat.lt_succ_self s.started

theorem Numbered.of_subset (h : s.Numbered) (hs : s'.tasks ⊆ s.tasks)
    (hstarted : s'.started = s.started) : s'.Numbered := by
  intro t ht
  rw [hstarted]
  exact h t (hs ht)

/-- To let go of the held task asks it to stop, and no other one. -/
theorem task?_letGo (s : Slot β) (n : Nat) :
    s.letGo.task? n =
      (s.task? n).map fun t => if s.held = some n then { t with asked := true } else t := by
  let ask : Task β → Task β := fun t =>
    if s.held = some t.number then { t with asked := true } else t
  have hsame : (fun t : Task β => t.number == n) ∘ ask = fun t => t.number == n := by
    funext t
    simp only [Function.comp_apply, ask]
    split
    · rfl
    · rfl
  show (s.tasks.map ask).find? (·.number == n) = _
  rw [List.find?_map, hsame]
  show (s.task? n).map ask = _
  cases ht : s.task? n with
  | none => rfl
  | some t =>
    rw [Option.map_some, Option.map_some]
    simp only [ask, (task?_eq_some ht).2]

/-- The task that the slot let go of has been asked to stop. -/
theorem asked_of_letGo (hheld : s.held = some n) (ht : s.letGo.task? n = some t) :
    t.asked = true := by
  rw [task?_letGo] at ht
  obtain ⟨t', -, rfl⟩ := Option.map_eq_some_iff.mp ht
  rw [if_pos hheld]

/-- A start gives a new number out. If it is accepted, the slot lets go of the task that it held;
the other tasks stay as they were. -/
theorem task?_start (hn : n < s.started) (work : β) :
    (s.start work).2.task? n =
      if (s.start work).1 = true then s.letGo.task? n else s.task? n := by
  unfold Slot.start
  split
  · rfl
  · unfold task?
    rw [List.find?_append]
    have hne : (s.letGo.started == n) = false := beq_eq_false_iff_ne.mpr (Nat.ne_of_gt hn)
    simp [hne]

theorem held_start {work : β} (hstart : (s.start work).1 = true) :
    (s.start work).2.held = some s.started := by
  unfold Slot.start at hstart ⊢
  split
  · rename_i hbusy
    rw [if_pos hbusy] at hstart
    nomatch hstart
  · rfl

/-- A start that is refused changes nothing. -/
theorem start_refused {work : β} (hrefused : (s.start work).1 = false) :
    s.start work = (false, s) := by
  unfold Slot.start at hrefused ⊢
  split
  · rfl
  · rename_i hfree
    rw [if_neg hfree] at hrefused
    nomatch hrefused

theorem Numbered.task?_new (h : s.Numbered) {work : β} (hstart : (s.start work).1 = true) :
    (s.start work).2.task? s.started = some ⟨s.started, false, work⟩ := by
  unfold Slot.start at hstart ⊢
  split
  · rename_i hbusy
    rw [if_pos hbusy] at hstart
    nomatch hstart
  · have hnone : s.letGo.tasks.find? (·.number == s.started) = none := by
      refine List.find?_eq_none.mpr fun t ht hnumber => ?_
      exact Nat.lt_irrefl _ (beq_iff_eq.mp hnumber ▸ h.letGo t ht)
    unfold task?
    rw [List.find?_append, hnone]
    simp [Slot.letGo]

theorem started_start (s : Slot β) (work : β) : s.started ≤ (s.start work).2.started := by
  unfold Slot.start
  split
  · exact Nat.le_refl _
  · exact Nat.le_succ _

/-- To complete a request changes neither the tasks nor what the slot holds. -/
theorem kept_endStop? {r : Request} {wasAlive : Bool} (he : s.endStop? r = some (wasAlive, s')) :
    s'.tasks = s.tasks ∧ s'.held = s.held ∧ s'.started = s.started := by
  unfold Slot.endStop? at he
  split at he
  · nomatch he
  · split at he
    · obtain ⟨-, rfl⟩ := Prod.mk.inj (Option.some.inj he)
      exact ⟨rfl, rfl, rfl⟩
    · obtain ⟨-, rfl⟩ := Prod.mk.inj (Option.some.inj he)
      exact ⟨rfl, rfl, rfl⟩

end

end ListMode.Polling.Slot
