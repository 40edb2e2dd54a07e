/-!
# Polling tasks

A polling task reads a device out until it ends by itself or is asked to stop. A slot holds on to at
most one task: it starts one unless the one it holds is alive, and it stops the one it holds by
asking it and waiting for its end. Stopping takes two steps, so other calls may come in between.
When the slot lets go of a task, the task takes that for a request to stop, whether somebody wants
to stop it or a new one takes its place. A task that crashes leaves the slot looking alive until
somebody stops it.

Each operation below is one atomic step.
-/

namespace ListMode.Polling

/-- A task that has not ended. -/
structure Task (β : Type) where
  number : Nat
  /-- It has been asked to stop. -/
  asked : Bool
  work : β

/-- State of a slot. -/
structure Slot (β : Type) where
  /-- Number of the task that the slot holds on to. -/
  held : Option Nat
  /-- A task is believed to be alive. -/
  alive : Bool
  /-- Tasks that have not ended, oldest first. -/
  tasks : List (Task β)
  /-- Tasks that crashed and have not been waited for. -/
  crashed : List Nat
  /-- Tasks started so far. -/
  started : Nat

/-- A stop request in progress: the task that is waited for, and whether the slot was alive when the
request was made. -/
structure Request where
  number : Nat
  wasAlive : Bool
  deriving DecidableEq, Repr

namespace Slot

variable {β : Type}

def empty : Slot β := ⟨none, false, [], [], 0⟩

instance : Inhabited (Slot β) := ⟨empty⟩

/-- The task numbered `n`, if it has not ended. -/
def task? (s : Slot β) (n : Nat) : Option (Task β) := s.tasks.find? (·.number == n)

def modify (s : Slot β) (n : Nat) (f : Task β → Task β) : Slot β :=
  { s with tasks := s.tasks.map fun t => if t.number == n then f t else t }

/-- Let go of the held task, which asks it to stop. -/
def letGo (s : Slot β) : Slot β :=
  { s with
    held := none
    tasks := s.tasks.map fun t => if s.held = some t.number then { t with asked := true } else t }

/-- Start a task in the place of the held one, unless the slot holds one and is alive. -/
def start (s : Slot β) (work : β) : Bool × Slot β :=
  if s.held.isSome && s.alive then (false, s)
  else
    let s := s.letGo
    (true, { s with
      held := some s.started
      alive := true
      tasks := s.tasks ++ [⟨s.started, false, work⟩]
      started := s.started + 1 })

/-- Let go of the held task, and wait for its end from now on. `none` if no task is held. -/
def beginStop (s : Slot β) : Option Request × Slot β :=
  (s.held.map fun n => ⟨n, s.alive⟩, s.letGo)

/-- Task `n` has ended. -/
def finish (s : Slot β) (n : Nat) : Slot β :=
  { s with tasks := s.tasks.filter (·.number != n), alive := false }

/-- Task `n` has ended abnormally. -/
def crash (s : Slot β) (n : Nat) : Slot β :=
  { s with tasks := s.tasks.filter (·.number != n), crashed := s.crashed ++ [n] }

/-- Complete a stop request; gives whether the slot was alive when it was made. `none` as long as
the task has not ended. -/
def endStop? (s : Slot β) (r : Request) : Option (Bool × Slot β) :=
  if (s.task? r.number).isSome then none
  else if r.number ∈ s.crashed then
    some (r.wasAlive, { s with alive := false, crashed := s.crashed.filter (· != r.number) })
  else some (r.wasAlive, s)

end Slot

end ListMode.Polling
