/-!
# The hand-off queue

Any number of tasks put items into the queue and any number take them out, first in, first out.
Putting never waits. A take-out that finds nothing suspends in a line. Putting an item wakes the
first in line; with nobody in line it leaves one permit, which lets the next suspension look once
more. A woken take-out looks again when its task runs, and goes to the back of the line if another
was faster. Giving up a take-out that was woken and has not looked passes its wake-up on. Stopping
is final: it discards the items and wakes everybody, and whoever looks from then on is told that the
queue has stopped.

Each operation below is one atomic step. Take-outs are numbered in the order in which they begin.
-/

namespace ListMode

/-- State of a hand-off queue. `line` holds the suspended take-outs that have not been woken, first
to be woken first; `woken` those that have been woken and have not looked again, oldest wake-up
first. -/
structure Handoff (α : Type) where
  items : List α
  stopped : Bool
  line : List Nat
  woken : List Nat
  permit : Bool
  started : Nat
  deriving DecidableEq, Repr

/-- What a take-out sees when it looks. -/
inductive Handoff.Look (α : Type) where
  /-- It has an item, and is over. -/
  | item (a : α)
  /-- The queue has stopped, and the take-out is over. -/
  | ended
  /-- It is suspended. -/
  | pending
  deriving DecidableEq, Repr

namespace Handoff

variable {α : Type}

/-- A running queue without items. -/
def new : Handoff α := ⟨[], false, [], [], false, 0⟩

instance : Inhabited (Handoff α) := ⟨new⟩

def size (q : Handoff α) : Nat := q.items.length

def isEmpty (q : Handoff α) : Bool := q.items.isEmpty

/-- Take-outs that are suspended, woken or not. -/
def waiting (q : Handoff α) : Nat := q.line.length + q.woken.length

/-- Wake the first in line, or leave a permit. -/
def wakeOne (q : Handoff α) : Handoff α :=
  match q.line with
  | [] => { q with permit := true }
  | first :: rest => { q with line := rest, woken := q.woken ++ [first] }

/-- Append an item. `false`, and the item is dropped, if the queue has stopped. -/
def put (q : Handoff α) (a : α) : Bool × Handoff α :=
  if q.stopped then (false, q)
  else (true, { q with items := q.items ++ [a] }.wakeOne)

def tryTake (q : Handoff α) : Option α × Handoff α :=
  if q.stopped then (none, q)
  else
    match q.items with
    | [] => (none, q)
    | a :: rest => (some a, { q with items := rest })

/-- Take-out `id` looks for an item. A permit makes it look a second time before it joins the
line. -/
def look (q : Handoff α) (id : Nat) : Look α × Handoff α :=
  if q.stopped then (.ended, q)
  else
    match q.items with
    | a :: rest => (.item a, { q with items := rest })
    | [] => (.pending, { q with permit := false, line := q.line ++ [id] })

/-- Begin a take-out and let it look once. Gives its number. -/
def beginTake (q : Handoff α) : Nat × Look α × Handoff α :=
  let (seen, q') := { q with started := q.started + 1 }.look q.started
  (q.started, seen, q')

/-- The woken take-out `id` looks again. `none` if it is not woken. -/
def resume? (q : Handoff α) (id : Nat) : Option (Look α × Handoff α) :=
  if id ∈ q.woken then some ({ q with woken := q.woken.erase id }.look id) else none

/-- Give up take-out `id`. `false` if it is not suspended. -/
def cancel (q : Handoff α) (id : Nat) : Bool × Handoff α :=
  if id ∈ q.line then (true, { q with line := q.line.erase id })
  else if id ∈ q.woken then (true, { q with woken := q.woken.erase id }.wakeOne)
  else (false, q)

/-- Stop the queue. A second time changes nothing. -/
def stop (q : Handoff α) : Handoff α :=
  if q.stopped then q
  else { q with items := [], stopped := true, line := [], woken := q.woken ++ q.line }

/-- Let woken take-outs look, oldest wake-up first, up to `n` times. Gives those that are over,
with what they took. -/
def settleUpTo : (n : Nat) → Handoff α → List (Nat × Option α) × Handoff α
  | 0, q => ([], q)
  | n + 1, q =>
    match q.woken with
    | [] => ([], q)
    | id :: rest =>
      let (seen, q) := { q with woken := rest }.look id
      let (more, q) := settleUpTo n q
      match seen with
      | .item a => ((id, some a) :: more, q)
      | .ended => ((id, none) :: more, q)
      | .pending => (more, q)

/-- Let woken take-outs look until none is woken. None is woken by another's look, so each looks
once. -/
def settle (q : Handoff α) : List (Nat × Option α) × Handoff α := settleUpTo q.woken.length q

end Handoff

end ListMode
