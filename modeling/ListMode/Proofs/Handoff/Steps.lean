import ListMode.Handoff

/-!
# Behaviours of a hand-off queue

One equation for each operation in each of the situations that it tells apart, and the behaviours of
a queue: a list of `Act`s, each of them one atomic step, by anybody, in any order.
-/

namespace ListMode.Handoff

section

variable {α : Type} {q : Handoff α}

/-! ## Operations -/

@[simp] theorem items_wakeOne (q : Handoff α) : q.wakeOne.items = q.items := by
  unfold wakeOne
  split <;> rfl

@[simp] theorem stopped_wakeOne (q : Handoff α) : q.wakeOne.stopped = q.stopped := by
  unfold wakeOne
  split <;> rfl

theorem put_stopped (h : q.stopped = true) (a : α) : q.put a = (false, q) := by
  unfold put
  rw [if_pos h]

theorem put_running (h : q.stopped = false) (a : α) :
    q.put a = (true, { q with items := q.items ++ [a] }.wakeOne) := by
  unfold put
  rw [if_neg (by simp [h])]

theorem tryTake_stopped (h : q.stopped = true) : q.tryTake = (none, q) := by
  unfold tryTake
  rw [if_pos h]

theorem tryTake_running (h : q.stopped = false) :
    q.tryTake = (q.items.head?, { q with items := q.items.tail }) := by
  unfold tryTake
  rw [if_neg (by simp [h])]
  obtain ⟨items, _, _, _, _, _⟩ := q
  cases items <;> rfl

theorem look_stopped (h : q.stopped = true) (id : Nat) : q.look id = (.ended, q) := by
  unfold look
  rw [if_pos h]

theorem look_item (h : q.stopped = false) {a : α} {rest : List α} (hi : q.items = a :: rest)
    (id : Nat) : q.look id = (.item a, { q with items := rest }) := by
  unfold look
  rw [if_neg (by simp [h]), hi]

theorem look_empty (h : q.stopped = false) (hi : q.items = []) (id : Nat) :
    q.look id = (.pending, { q with permit := false, line := q.line ++ [id] }) := by
  unfold look
  rw [if_neg (by simp [h]), hi]

/-- Whoever looks wakes nobody. -/
@[simp] theorem woken_look (q : Handoff α) (id : Nat) : (q.look id).2.woken = q.woken := by
  unfold look
  split
  · rfl
  · split <;> rfl

@[simp] theorem stopped_look (q : Handoff α) (id : Nat) : (q.look id).2.stopped = q.stopped := by
  unfold look
  split
  · rfl
  · split <;> rfl

theorem resume_woken {id : Nat} (h : id ∈ q.woken) :
    q.resume? id = some ({ q with woken := q.woken.erase id }.look id) := by
  unfold resume?
  rw [if_pos h]

theorem resume_asleep {id : Nat} (h : id ∉ q.woken) : q.resume? id = none := by
  unfold resume?
  rw [if_neg h]

theorem items_cancel (q : Handoff α) (id : Nat) : (q.cancel id).2.items = q.items := by
  unfold cancel
  split
  · rfl
  · split
    · exact items_wakeOne _
    · rfl

theorem stopped_cancel (q : Handoff α) (id : Nat) : (q.cancel id).2.stopped = q.stopped := by
  unfold cancel
  split
  · rfl
  · split
    · exact stopped_wakeOne _
    · rfl

theorem items_put (q : Handoff α) (a : α) :
    (q.put a).2.items = if q.stopped then q.items else q.items ++ [a] := by
  cases h : q.stopped
  · simp [put_running h]
  · simp [put_stopped h]

theorem stopped_put (q : Handoff α) (a : α) : (q.put a).2.stopped = q.stopped := by
  cases h : q.stopped
  · simp [put_running h, h]
  · simp [put_stopped h, h]

theorem stopped_stop (q : Handoff α) : q.stop.stopped = true := by
  unfold stop
  split
  · assumption
  · rfl

end

/-! ## Behaviours -/

/-- An atomic step of somebody who uses the queue. -/
inductive Act (α : Type) where
  | put (a : α)
  | tryTake
  | begin
  /-- The task of take-out `id` runs. Unless the take-out was woken this does nothing. -/
  | resume (id : Nat)
  /-- Take-out `id` is given up. Unless it is suspended this does nothing. -/
  | cancel (id : Nat)
  | stop
  deriving DecidableEq, Repr

/-- The item with which a look ends a take-out. -/
def Look.item? {α : Type} : Look α → Option α
  | .item a => some a
  | .ended | .pending => none

section

variable {α β : Type}

/-- The queue after an act. -/
def step (q : Handoff α) : Act α → Handoff α
  | .put a => (q.put a).2
  | .tryTake => q.tryTake.2
  | .begin => q.beginTake.2.2
  | .resume id => ((q.resume? id).map (·.2)).getD q
  | .cancel id => (q.cancel id).2
  | .stop => q.stop

/-- The item that an act hands out. -/
def taken? (q : Handoff α) : Act α → Option α
  | .tryTake => q.tryTake.1
  | .begin => q.beginTake.2.1.item?
  | .resume id => (q.resume? id).bind (·.1.item?)
  | .put _ | .cancel _ | .stop => none

/-- The item that the queue accepts by an act. -/
def accepted? (q : Handoff α) : Act α → Option α
  | .put a => if (q.put a).1 then some a else none
  | .tryTake | .begin | .resume _ | .cancel _ | .stop => none

/-- The queue after a list of acts. -/
def after (q : Handoff α) (acts : List (Act α)) : Handoff α := acts.foldl step q

/-- What `view` shows of each act of a list, one after the other. -/
def seenBy (view : Handoff α → Act α → Option β) : Handoff α → List (Act α) → List β
  | _, [] => []
  | q, act :: rest => (view q act).toList ++ seenBy view (q.step act) rest

/-- The items handed out during a list of acts, in the order in which they are removed. -/
def handedOut (q : Handoff α) (acts : List (Act α)) : List α := seenBy taken? q acts

/-- The items accepted during a list of acts, in their order. -/
def accepted (q : Handoff α) (acts : List (Act α)) : List α := seenBy accepted? q acts

variable (q : Handoff α)

theorem after_append (acts more : List (Act α)) :
    q.after (acts ++ more) = (q.after acts).after more :=
  List.foldl_append

theorem seenBy_append (view : Handoff α → Act α → Option β) (acts more : List (Act α)) :
    seenBy view q (acts ++ more) = seenBy view q acts ++ seenBy view (q.after acts) more := by
  induction acts generalizing q with
  | nil => rfl
  | cons act rest ih =>
    show (view q act).toList ++ seenBy view (q.step act) (rest ++ more) = _
    rw [ih, ← List.append_assoc]
    rfl

theorem stopped_step (act : Act α) :
    (q.step act).stopped = true ↔ act = .stop ∨ q.stopped = true := by
  cases act with
  | put a => simp [step, stopped_put]
  | tryTake =>
    cases h : q.stopped
    · simp [step, tryTake_running h, h]
    · simp [step, tryTake_stopped h, h]
  | begin => simp [step, beginTake]
  | resume id =>
    by_cases h : id ∈ q.woken
    · simp [step, resume_woken h]
    · simp [step, resume_asleep h]
  | cancel id => simp [step, stopped_cancel]
  | stop => simp [step, stopped_stop]

/-- A queue is stopped exactly if somebody has stopped it. -/
theorem stopped_after (acts : List (Act α)) :
    (q.after acts).stopped = true ↔ .stop ∈ acts ∨ q.stopped = true := by
  induction acts generalizing q with
  | nil => simp [after]
  | cons act rest ih =>
    show ((q.step act).after rest).stopped = true ↔ _
    rw [ih, stopped_step, List.mem_cons, eq_comm (a := act), or_assoc, or_left_comm]

end

end ListMode.Handoff
