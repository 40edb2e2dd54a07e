import ListMode.Session.Run

/-!
# The clock of a session

Time stands still while anything can go on, and then moves to the next moment at which something is
due. At one moment every run goes on until it waits, then every polling task, then every worker, and
so on in rounds. All changes are made by the atomic steps of the session.
-/

namespace ListMode.Session

/-- Let run `r` take up to `n` steps. -/
def runUpTo : (n : Nat) → (r : Nat) → Session → Session
  | 0, _, s => s
  | n + 1, r, s =>
    match s.step? r with
    | none => s
    | some s => runUpTo n r s

/-- Steps that a run takes at most before it waits: it asks each producer twice, and passes through
each of its stages. -/
def stepBound (s : Session) : Nat := 3 * s.producers.length + 16

/-- Let every run go on until it waits. -/
def advanceRuns (s : Session) : Session :=
  (List.range s.runs.length).foldl (fun s r => runUpTo s.stepBound r s) s

/-- Readouts of task `n` that are due, up to `k` of them. -/
def tickUpTo : (k : Nat) → (i n : Nat) → Session → Session
  | 0, _, _, s => s
  | k + 1, i, n, s =>
    match (s.producers[i]?).bind fun p => (p.slot.task? n).bind (·.work.due?) with
    | none => s
    | some due =>
      if due ≤ s.time then
        match s.tick? i n with
        | none => s
        | some s => tickUpTo k i n s
      else s

/-- A bound on the readouts of an acquisition that can be due at one time. -/
def tickBound (time : Nat) (a : Acquisition) : Nat :=
  match a.work with
  | .synthetic _ => time - a.since + 1
  | .replay w => w.pending.length

/-- Let task `n` of producer `i` go on: it ends if it has been asked to, and otherwise makes the
readouts that are due. -/
def advanceTask (i : Nat) (s : Session) (t : Polling.Task Acquisition) : Session :=
  match s.notice? i t.number with
  | some s => s
  | none => tickUpTo (tickBound s.time t.work) i t.number s

/-- Let every polling task go on until it waits. -/
def advanceTasks (s : Session) : Session :=
  s.places.foldl (fun s i =>
    match s.producers[i]? with
    | none => s
    | some p => p.slot.tasks.foldl (advanceTask i) s) s

/-- Let the worker of run `r` look up to `n` times. -/
def workUpTo : (n : Nat) → (r : Nat) → Session → Session
  | 0, _, s => s
  | n + 1, r, s =>
    match s.work? r with
    | none => s
    | some s => workUpTo n r s

/-- Looks of the worker of run `r` before it waits: one for each item, one that finds nothing, and
one that finds the queue stopped. -/
def workBound (s : Session) (r : Nat) : Nat :=
  match (s.runs[r]?).bind (·.worker) with
  | some w => (s.queue w.queue).size + 2
  | none => 0

/-- Let every worker go on until it waits. -/
def advanceWorkers (s : Session) : Session :=
  (List.range s.runs.length).foldl (fun s r => workUpTo (s.workBound r) r s) s

def round (s : Session) : Session := s.advanceRuns.advanceTasks.advanceWorkers

def rounds : (n : Nat) → Session → Session
  | 0, s => s
  | n + 1, s => rounds n s.round

/-- Let everything go on until it waits. A run waits at most four times at one moment: while it is
running, for its producers, for its queue, and for its worker. -/
def settle (s : Session) : Session := rounds 6 s

/-! ## Time -/

/-- When a stop that has begun can go on by itself. -/
def wakeOfStop : Nat × Stopping → Option Nat
  | (_, .delay wake) => some wake
  | _ => none

/-- Moments at which run `r` goes on by itself. -/
def wakesOfRun (run : Run) : List Nat :=
  match run.stage with
  | .running _ w => [w.wake]
  | .awaiting _ stops => stops.filterMap wakeOfStop
  | .draining _ (some wake) => [wake]
  | _ => []

/-- The next moment at which something is due. -/
def nextDue? (s : Session) : Option Nat :=
  ((s.runs.flatMap wakesOfRun) ++
    s.producers.flatMap fun p => p.slot.tasks.filterMap (·.work.due?)).min?

/-- Let time pass until `limit` in at most `n` moves, with everything that is due before. -/
def elapseUpTo : (n : Nat) → (limit : Nat) → Session → Session
  | 0, limit, s => { s with time := limit }
  | n + 1, limit, s =>
    let s := s.settle
    match s.nextDue? with
    | none => { s with time := limit }
    | some due =>
      let next := max due (s.time + 1)
      if next < limit then elapseUpTo n limit { s with time := next } else { s with time := limit }

/-- Let time pass until `time`, with everything that is due before. What is due at `time` itself has
not happened yet. Each move takes at least a millisecond. -/
def elapseTo (s : Session) (time : Nat) : Session :=
  if s.time < time then elapseUpTo (time - s.time) time s else s

/-- Let time pass until `time`, with everything that is due until then. -/
def advanceTo (s : Session) (time : Nat) : Session := (s.elapseTo time).settle

/-- Stop producer `i` and wait for it. -/
def stopAndWait (s : Session) (i : Nat) : Bool × Session :=
  let (stopping, s) := s.askProducer i
  let s := s.settle
  let s := match wakeOfStop (i, stopping) with
    | some wake => s.advanceTo wake
    | none => s
  match (s.producers[i]?).bind (·.endStop? s.time stopping) with
  | some (wasRunning, spills, p) => (wasRunning, ((s.setProducer i p).deliver spills).settle)
  | none => (false, s)

end ListMode.Session
