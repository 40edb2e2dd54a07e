import ListMode.Proofs.Handoff.Steps

/-!
# First in, first out

The queue against a list: an item is handed out from the front, wherever this happens, and accepted
at the back, and a stop lets go of what is queued.
-/

namespace ListMode.Handoff

section

variable {α : Type} {q : Handoff α}

theorem handedOut_append (q : Handoff α) (acts more : List (Act α)) :
    q.handedOut (acts ++ more) = q.handedOut acts ++ (q.after acts).handedOut more :=
  seenBy_append q taken? acts more

theorem accepted_append (q : Handoff α) (acts more : List (Act α)) :
    q.accepted (acts ++ more) = q.accepted acts ++ (q.after acts).accepted more :=
  seenBy_append q accepted? acts more

/-- A look into a running queue takes the first item, if there is one. -/
theorem items_look (h : q.stopped = false) (id : Nat) :
    (q.look id).1.item?.toList ++ (q.look id).2.items = q.items := by
  cases hi : q.items with
  | nil =>
    rw [look_empty h hi]
    exact hi
  | cons a rest =>
    rw [look_item h hi]
    rfl

/-- One act on a running queue, other than a stop. -/
theorem items_step (h : q.stopped = false) {act : Act α} (hact : act ≠ .stop) :
    (q.taken? act).toList ++ (q.step act).items = q.items ++ (q.accepted? act).toList := by
  cases act with
  | put a =>
    show (q.put a).2.items = q.items ++ (if (q.put a).1 then some a else none).toList
    rw [put_running h]
    exact items_wakeOne _
  | tryTake =>
    show q.tryTake.1.toList ++ q.tryTake.2.items = q.items ++ []
    rw [tryTake_running h, List.append_nil]
    cases q.items <;> rfl
  | begin =>
    rw [accepted?, Option.toList_none, List.append_nil]
    exact items_look (q := { q with started := q.started + 1 }) h q.started
  | resume id =>
    rw [accepted?, Option.toList_none, List.append_nil]
    by_cases hid : id ∈ q.woken
    · rw [taken?, step, resume_woken hid]
      exact items_look (q := { q with woken := q.woken.erase id }) h id
    · rw [taken?, step, resume_asleep hid]
      rfl
  | cancel id =>
    rw [accepted?, Option.toList_none, List.append_nil]
    exact q.items_cancel id
  | stop => exact absurd rfl hact

/-- A stopped queue hands out and accepts nothing. -/
theorem taken_accepted_stopped (h : q.stopped = true) (act : Act α) :
    q.taken? act = none ∧ q.accepted? act = none := by
  cases act with
  | put a => exact ⟨rfl, by simp [accepted?, put_stopped h]⟩
  | tryTake => exact ⟨by simp [taken?, tryTake_stopped h], rfl⟩
  | begin =>
    refine ⟨?_, rfl⟩
    rw [taken?, beginTake, look_stopped (q := { q with started := q.started + 1 }) h]
    rfl
  | resume id =>
    refine ⟨?_, rfl⟩
    by_cases hid : id ∈ q.woken
    · rw [taken?, resume_woken hid, look_stopped (q := { q with woken := q.woken.erase id }) h]
      rfl
    · rw [taken?, resume_asleep hid]
      rfl
  | cancel id => exact ⟨rfl, rfl⟩
  | stop => exact ⟨rfl, rfl⟩

/-- Up to a stop, what was queued and accepted is what was handed out and is still queued. -/
theorem items_after (h : q.stopped = false) {acts : List (Act α)} (hacts : .stop ∉ acts) :
    q.handedOut acts ++ (q.after acts).items = q.items ++ q.accepted acts := by
  induction acts generalizing q with
  | nil => exact (List.append_nil _).symm
  | cons act rest ih =>
    obtain ⟨hact, hrest⟩ := List.ne_and_not_mem_of_not_mem_cons hacts
    have hst : (q.step act).stopped = false := by
      rw [← Bool.not_eq_true, stopped_step]
      rintro (rfl | hst)
      · exact hact rfl
      · simp [h] at hst
    calc q.handedOut (act :: rest) ++ (q.after (act :: rest)).items
        = (q.taken? act).toList ++
            ((q.step act).handedOut rest ++ ((q.step act).after rest).items) :=
          List.append_assoc _ _ _
      _ = (q.taken? act).toList ++ ((q.step act).items ++ (q.step act).accepted rest) := by
          rw [ih hst hrest]
      _ = q.items ++ (q.accepted? act).toList ++ (q.step act).accepted rest := by
          rw [← List.append_assoc, items_step h (Ne.symm hact)]
      _ = q.items ++ q.accepted (act :: rest) := List.append_assoc _ _ _

/-- Nothing is handed out or accepted from a stop on. -/
theorem seen_after_stop (h : q.stopped = true) (acts : List (Act α)) :
    q.handedOut acts = [] ∧ q.accepted acts = [] := by
  induction acts generalizing q with
  | nil => exact ⟨rfl, rfl⟩
  | cons act rest ih =>
    obtain ⟨htaken, haccepted⟩ := taken_accepted_stopped h act
    obtain ⟨hout, hin⟩ := ih ((q.stopped_step act).mpr (.inr h))
    constructor
    · show (q.taken? act).toList ++ (q.step act).handedOut rest = []
      rw [htaken, hout]
      rfl
    · show (q.accepted? act).toList ++ (q.step act).accepted rest = []
      rw [haccepted, hin]
      rfl

/-- Whatever happens to a queue: until it is stopped, the items handed out and the items queued are
together the accepted ones, in their order. To give up a take-out changes none of this. An item is
accepted exactly as long as the queue has not been stopped. From the first stop on nothing is handed
out, and the accepted items are those handed out followed by those that the stop found queued. -/
theorem handed_over_in_order (acts : List (Act α)) :
    (.stop ∉ acts →
      new.handedOut acts ++ (new.after acts).items = new.accepted acts) ∧
    (∀ id, new.handedOut (acts ++ [.cancel id]) = new.handedOut acts ∧
      (new.after (acts ++ [.cancel id])).items = (new.after acts).items ∧
      new.accepted (acts ++ [.cancel id]) = new.accepted acts) ∧
    ((new.after acts).stopped = true ↔ .stop ∈ acts) ∧
    (∀ a, ((new.after acts).put a).1 = true ↔ .stop ∉ acts) ∧
    (∀ before after, acts = before ++ .stop :: after → .stop ∉ before →
      new.handedOut acts = new.handedOut before ∧
      new.accepted acts = new.handedOut acts ++ (new.after before).items) := by
  have hstop : ∀ l : List (Act α), (new.after l).stopped = true ↔ .stop ∈ l := by
    intro l
    rw [stopped_after]
    exact or_iff_left Bool.false_ne_true
  refine ⟨items_after rfl, ?_, hstop acts, ?_, ?_⟩
  · intro id
    rw [handedOut_append, accepted_append, after_append]
    exact ⟨List.append_nil _, items_cancel _ id, List.append_nil _⟩
  · intro a
    rw [← hstop]
    cases h : (new.after acts).stopped
    · simp [put_running h]
    · simp [put_stopped h]
  · rintro before after rfl hbefore
    have hq : (new.after before).step .stop |>.stopped := stopped_stop _
    obtain ⟨hout, hin⟩ := seen_after_stop hq after
    have hout' : new.handedOut (before ++ .stop :: after) = new.handedOut before := by
      rw [handedOut_append]
      show _ ++ ([] ++ ((new.after before).step .stop).handedOut after) = _
      rw [hout, List.append_nil, List.append_nil]
    refine ⟨hout', ?_⟩
    rw [hout', items_after rfl hbefore, accepted_append]
    show _ ++ ([] ++ ((new.after before).step .stop).accepted after) = _
    rw [hin]
    exact List.append_nil _

end

end ListMode.Handoff
