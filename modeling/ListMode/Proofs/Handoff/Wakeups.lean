import ListMode.Proofs.Handoff.Steps

/-!
# No wake-up is lost

While the queue runs and somebody sleeps in the line, every item has a woken take-out of its own
that has yet to look. `Covered n` allows for `n` further items: an operation that puts an item, or
that takes a take-out from the woken ones, leads to `Covered 1`, and what it does next, a wake-up or
a look, leads back to `Covered 0`.
-/

namespace ListMode.Handoff

section

variable {α : Type} {n : Nat} {q : Handoff α}

/-- If somebody sleeps then all items but `n` have a woken take-out each. Nobody sleeps by a stopped
queue, and it holds nothing. -/
structure Covered (n : Nat) (q : Handoff α) : Prop where
  running : q.stopped = false → q.line ≠ [] → q.items.length ≤ q.woken.length + n
  stopped : q.stopped = true → q.items = [] ∧ q.line = []

theorem covered_new : (new : Handoff α).Covered 0 := ⟨fun _ h => absurd rfl h, nofun⟩

theorem Covered.wakeOne (h : q.Covered (n + 1)) : q.wakeOne.Covered n := by
  unfold Handoff.wakeOne
  split
  · rename_i hline
    exact ⟨fun _ hne => absurd hline hne, h.stopped⟩
  · rename_i first rest hline
    constructor
    · intro hrun _
      have hlen := h.running hrun (by rw [hline]; exact List.cons_ne_nil _ _)
      show q.items.length ≤ (q.woken ++ [first]).length + n
      rw [List.length_append, List.length_singleton]
      omega
    · intro hstop
      have hnone := (h.stopped hstop).2
      rw [hline] at hnone
      exact absurd hnone (List.cons_ne_nil _ _)

theorem Covered.of_stopped {m : Nat} (h : q.Covered n) (hst : q.stopped = true) : q.Covered m := by
  refine ⟨fun hrun => ?_, h.stopped⟩
  rw [hst] at hrun
  nomatch hrun

/-- One take-out that looks makes up for an item: it takes one, or there is none. -/
theorem Covered.look (h : q.Covered (n + 1)) (id : Nat) : (q.look id).2.Covered n := by
  cases hst : q.stopped
  · cases hi : q.items with
    | nil =>
      rw [look_empty hst hi]
      constructor
      · intro _ _
        show q.items.length ≤ _
        rw [hi]
        exact Nat.zero_le _
      · intro hstop
        exact absurd hstop (by simp [hst])
    | cons a rest =>
      rw [look_item hst hi]
      constructor
      · intro _ hline
        have hlen := h.running hst hline
        rw [hi, List.length_cons] at hlen
        show rest.length ≤ q.woken.length + n
        omega
      · intro hstop
        exact absurd hstop (by simp [hst])
  · rw [look_stopped hst]
    exact h.of_stopped hst

/-- A woken take-out that is no longer counted leaves one item more to be covered. -/
theorem Covered.unwake (h : q.Covered n) {id : Nat} (hid : id ∈ q.woken) :
    { q with woken := q.woken.erase id }.Covered (n + 1) := by
  constructor
  · intro hrun hline
    have hlen := h.running hrun hline
    have hpos := List.length_pos_of_mem hid
    show q.items.length ≤ (q.woken.erase id).length + (n + 1)
    rw [List.length_erase_of_mem hid]
    omega
  · exact h.stopped

theorem Covered.mono {m : Nat} (h : q.Covered n) (hnm : n ≤ m) : q.Covered m :=
  ⟨fun hrun hline => Nat.le_trans (h.running hrun hline) (by omega), h.stopped⟩

theorem Covered.put (h : q.Covered 0) (a : α) : (q.put a).2.Covered 0 := by
  cases hst : q.stopped
  · rw [put_running hst]
    apply Covered.wakeOne
    constructor
    · intro _ hline
      have hlen := h.running hst hline
      show (q.items ++ [a]).length ≤ q.woken.length + 1
      rw [List.length_append, List.length_singleton]
      omega
    · intro hstop
      exact absurd hstop (by simp [hst])
  · rw [put_stopped hst]
    exact h

theorem Covered.tryTake (h : q.Covered 0) : q.tryTake.2.Covered 0 := by
  cases hst : q.stopped
  · rw [tryTake_running hst]
    constructor
    · intro _ hline
      have hlen := h.running hst hline
      show q.items.tail.length ≤ q.woken.length + 0
      rw [List.length_tail]
      omega
    · intro hstop
      exact absurd hstop (by simp [hst])
  · rw [tryTake_stopped hst]
    exact h

theorem Covered.beginTake (h : q.Covered 0) : q.beginTake.2.2.Covered 0 := by
  have hnew : { q with started := q.started + 1 }.Covered 0 := ⟨h.running, h.stopped⟩
  exact (hnew.mono (Nat.zero_le 1)).look q.started

theorem Covered.resume (h : q.Covered 0) {id : Nat} {seen : Look α} {q' : Handoff α}
    (hr : q.resume? id = some (seen, q')) : q'.Covered 0 := by
  by_cases hid : id ∈ q.woken
  · rw [resume_woken hid] at hr
    have hlook := (h.unwake hid).look id
    rwa [Option.some.inj hr] at hlook
  · rw [resume_asleep hid] at hr
    nomatch hr

theorem Covered.cancel (h : q.Covered 0) (id : Nat) : (q.cancel id).2.Covered 0 := by
  unfold Handoff.cancel
  split
  · rename_i hid
    constructor
    · intro hrun _
      exact h.running hrun (List.ne_nil_of_mem hid)
    · intro hstop
      have hnone := (h.stopped hstop).2
      rw [hnone] at hid
      nomatch hid
  · split
    · rename_i hid
      exact (h.unwake hid).wakeOne
    · exact h

theorem Covered.stop (h : q.Covered 0) : q.stop.Covered 0 := by
  unfold Handoff.stop
  split
  · exact h
  · exact ⟨nofun, fun _ => ⟨rfl, rfl⟩⟩

theorem Covered.step (h : q.Covered 0) (act : Act α) : (q.step act).Covered 0 := by
  cases act with
  | put a => exact h.put a
  | tryTake => exact h.tryTake
  | begin => exact h.beginTake
  | resume id =>
    show (((q.resume? id).map (·.2)).getD q).Covered 0
    cases hr : q.resume? id with
    | none => exact h
    | some r => exact h.resume hr
  | cancel id => exact h.cancel id
  | stop => exact h.stop

theorem Covered.after (h : q.Covered 0) (acts : List (Act α)) : (q.after acts).Covered 0 := by
  induction acts generalizing q with
  | nil => exact h
  | cons act rest ih => exact ih (h.step act)

/-! ## Letting woken take-outs look -/

/-- Woken take-outs have looked, one after the other and in whatever order, and this is what they
have seen. -/
inductive Polled : Handoff α → List (Nat × Look α) → Handoff α → Prop
  | done (q : Handoff α) : Polled q [] q
  | poll {q q' q'' : Handoff α} {id : Nat} {look : Look α} {seen : List (Nat × Look α)}
      (first : q.resume? id = some (look, q')) (rest : Polled q' seen q'') :
      Polled q ((id, look) :: seen) q''

variable {q' : Handoff α} {seen : List (Nat × Look α)}

theorem Polled.covered (hp : Polled q seen q') (h : q.Covered 0) : q'.Covered 0 := by
  induction hp with
  | done => exact h
  | poll first _ ih => exact ih (h.resume first)

/-- What a woken take-out does when its task runs. -/
theorem resume_cases {id : Nat} {look : Look α} (h : q.resume? id = some (look, q')) :
    q.woken.Perm (id :: q'.woken) ∧ q'.stopped = q.stopped ∧
      (q.stopped = true → look = .ended) := by
  by_cases hid : id ∈ q.woken
  · rw [resume_woken hid] at h
    have hlook := Option.some.inj h
    refine ⟨?_, ?_, fun hst => ?_⟩
    · have hwoken := woken_look { q with woken := q.woken.erase id } id
      rw [hlook] at hwoken
      rw [hwoken]
      exact List.perm_cons_erase hid
    · have hstop := stopped_look { q with woken := q.woken.erase id } id
      rwa [hlook] at hstop
    · rw [look_stopped (q := { q with woken := q.woken.erase id }) hst] at hlook
      obtain ⟨rfl, rfl⟩ := Prod.mk.inj hlook
      rfl
  · rw [resume_asleep hid] at h
    nomatch h

/-- Each look uses up one wake-up, and makes no new one. -/
theorem Polled.woken_perm (hp : Polled q seen q') :
    q.woken.Perm (seen.map (·.1) ++ q'.woken) := by
  induction hp with
  | done => exact .refl _
  | poll first _ ih => exact (resume_cases first).1.trans (ih.cons _)

theorem Polled.stopped (hp : Polled q seen q') (h : q.stopped = true) :
    q'.stopped = true ∧ ∀ x ∈ seen, x.2 = .ended := by
  induction hp with
  | done => exact ⟨h, nofun⟩
  | poll first _ ih =>
    obtain ⟨-, hstop, hend⟩ := resume_cases first
    obtain ⟨hlast, hrest⟩ := ih (hstop.trans h)
    refine ⟨hlast, fun x hx => ?_⟩
    rcases List.mem_cons.mp hx with rfl | hx
    · exact hend h
    · exact hrest x hx

theorem polled_settleUpTo (n : Nat) (q : Handoff α) :
    (∃ seen, Polled q seen (q.settleUpTo n).2) ∧ (q.settleUpTo n).2.woken = q.woken.drop n := by
  induction n generalizing q with
  | zero => exact ⟨⟨[], .done q⟩, rfl⟩
  | succ n ih =>
    unfold settleUpTo
    split
    · rename_i hnone
      rw [hnone]
      exact ⟨⟨[], .done q⟩, rfl⟩
    · rename_i id rest hwoken
      obtain ⟨⟨seen, hseen⟩, hdrop⟩ := ih ({ q with woken := rest }.look id).2
      rw [woken_look] at hdrop
      have hfirst : q.resume? id = some ({ q with woken := rest }.look id) := by
        rw [resume_woken (by rw [hwoken]; exact List.mem_cons_self), hwoken, List.erase_cons_head]
      have hall := Polled.poll hfirst hseen
      rw [hwoken, List.drop_succ_cons]
      dsimp only
      split <;> exact ⟨⟨_, hall⟩, hdrop⟩

/-- Woken take-outs can look until none is woken. -/
theorem polled_settle (q : Handoff α) :
    (∃ seen, Polled q seen q.settle.2) ∧ q.settle.2.woken = [] := by
  obtain ⟨hpolled, hdrop⟩ := polled_settleUpTo q.woken.length q
  rw [List.drop_length] at hdrop
  exact ⟨hpolled, hdrop⟩

/-- Whatever has happened to a queue: while it runs and a take-out sleeps, there are no more items
than woken take-outs, and nobody sleeps by a stopped queue, which holds nothing. If woken take-outs
look, in any order, each uses up one wake-up, so that it comes to an end, which can be reached.
Then nobody sleeps or nothing is queued, and if the queue has stopped then every take-out that was
suspended has been told so. -/
theorem no_wakeup_lost (acts : List (Act α)) :
    let q := (new : Handoff α).after acts
    (q.stopped = false → q.line ≠ [] → q.items.length ≤ q.woken.length) ∧
    (q.stopped = true → q.items = [] ∧ q.line = []) ∧
    ∀ seen q', Polled q seen q' →
      seen.length + q'.woken.length = q.woken.length ∧
      (∃ more q'', Polled q' more q'' ∧ q''.woken = []) ∧
      (q'.woken = [] → q'.line = [] ∨ q'.items = []) ∧
      (q'.woken = [] → q.stopped = true →
        q'.waiting = 0 ∧ ∀ id, id ∈ q.line ∨ id ∈ q.woken → (id, .ended) ∈ seen) := by
  intro q
  have hq : q.Covered 0 := covered_new.after acts
  refine ⟨hq.running, hq.stopped, fun seen q' hp => ?_⟩
  have hq' := hp.covered hq
  have hwoken := hp.woken_perm
  refine ⟨?_, ?_, ?_, ?_⟩
  · have hlen := hwoken.length_eq
    rw [List.length_append, List.length_map] at hlen
    exact hlen.symm
  · obtain ⟨⟨more, hmore⟩, hnone⟩ := q'.polled_settle
    exact ⟨more, _, hmore, hnone⟩
  · intro hnone
    by_cases hline : q'.line = []
    · exact .inl hline
    · right
      cases hst : q'.stopped
      · have hlen := hq'.running hst hline
        rw [hnone] at hlen
        exact List.eq_nil_of_length_eq_zero (Nat.le_zero.mp hlen)
      · exact (hq'.stopped hst).1
  · intro hnone hstop
    obtain ⟨hstop', hended⟩ := hp.stopped hstop
    constructor
    · unfold waiting
      rw [(hq'.stopped hstop').2, hnone]
      rfl
    · rintro id (hid | hid)
      · rw [(hq.stopped hstop).2] at hid
        nomatch hid
      · rw [hnone, List.append_nil] at hwoken
        obtain ⟨x, hx, rfl⟩ := List.mem_map.mp (hwoken.subset hid)
        have hlook : x.2 = .ended := hended x hx
        rwa [← hlook]

end

end ListMode.Handoff
