import ListMode.Handoff
import ListMode.Merger

/-!
# Merging workers

A worker takes spills out of a hand-off queue one at a time and pushes them into its merger. When
the queue has stopped, it finishes the merger and ends. Looking into the queue and pushing what is
found there is one atomic step.
-/

namespace ListMode

/-- What a worker is about to do. -/
inductive Worker.Stage where
  /-- Begin a take-out. -/
  | ready
  /-- Wait for take-out `id`. -/
  | suspended (id : Nat)
  /-- Nothing: the queue has stopped and the merger is finished. -/
  | ended
  /-- Nothing: flushing the sink failed. -/
  | lost
  deriving DecidableEq, Repr, Inhabited

/-- A merger that is fed from a queue, which is known by its number. `faulty` marks a sink that cannot
be flushed. -/
structure Worker where
  queue : Nat
  merger : Merger
  stage : Worker.Stage
  faulty : Bool

namespace Worker

def new (queue : Nat) (merger : Merger) (faulty : Bool) : Worker := ⟨queue, merger, .ready, faulty⟩

/-- Act on what take-out `id` has seen. -/
def react (w : Worker) (id : Nat) : Handoff.Look Spill → Worker
  | .item spill => { w with merger := w.merger.push spill, stage := .ready }
  | .pending => { w with stage := .suspended id }
  | .ended =>
    if w.faulty then { w with merger := w.merger.exhaust, stage := .lost }
    else { w with merger := w.merger.finish, stage := .ended }

/-- One look into the queue. `none` if the worker has to wait or is over. -/
def step? (w : Worker) (q : Handoff Spill) : Option (Worker × Handoff Spill) :=
  match w.stage with
  | .ready =>
    let (id, seen, q) := q.beginTake
    some (w.react id seen, q)
  | .suspended id => (q.resume? id).map fun (seen, q) => (w.react id seen, q)
  | .ended | .lost => none

/-- Look until the worker has to wait, at most `n` times. -/
def runUpTo : (n : Nat) → Worker → Handoff Spill → Worker × Handoff Spill
  | 0, w, q => (w, q)
  | n + 1, w, q =>
    match w.step? q with
    | none => (w, q)
    | some (w, q) => runUpTo n w q

/-- Look until the worker has to wait. Each look but the last two takes an item. -/
def run (w : Worker) (q : Handoff Spill) : Worker × Handoff Spill := runUpTo (q.size + 2) w q

end Worker

end ListMode
