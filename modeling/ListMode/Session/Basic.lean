import ListMode.Producer
import ListMode.Timing
import ListMode.Watch
import ListMode.Worker

/-!
# Sessions

A session owns the producers of a setup and drives runs. What a session does outside runs, booting,
shutting down, reading and writing settings, is defined here; the steps of a run are in
`ListMode.Session.Run`, and the clock that lets time pass is in `ListMode.Session.Clock`.
-/

namespace ListMode

/-- Where a session stands. -/
inductive Phase where
  /-- No run is in progress. -/
  | idle
  /-- Producers are being started. -/
  | starting
  /-- Producers are acquiring. -/
  | running
  /-- Producers are being stopped. -/
  | stopping
  /-- The queue is being emptied. -/
  | draining
  deriving DecidableEq, Repr, Inhabited

namespace Phase

def name : Phase → String
  | idle => "idle"
  | starting => "starting"
  | running => "running"
  | stopping => "stopping"
  | draining => "draining"

end Phase

/-- What a completed run reports. Times are in milliseconds from the moment it was running. -/
structure Outcome where
  runId : RunId
  reason : StopReason
  started : List String
  timeToStop : Nat
  elapsed : Nat
  report : Report
  deriving DecidableEq, Repr, Inhabited

/-- A run whose opening boundary is in its queue. -/
structure Opened where
  info : RunInfo
  queue : Nat

/-- A run whose producers have been started, with their places in the session. -/
structure Launched extends Opened where
  started : List Nat
  begun : Nat

/-- A run that is being ended. -/
structure Ending extends Launched where
  reason : StopReason
  stoppedAt : Nat

/-- How far a call that runs the session has come. Between two stages anything else may happen. -/
inductive Run.Stage where
  /-- Nothing has been done. -/
  | called
  /-- The session is starting. -/
  | opening
  /-- `todo` are still to be started. -/
  | starting (o : Opened) (todo started : List Nat)
  /-- The producers are acquiring. -/
  | running (l : Launched) (w : Watch)
  /-- `todo` are still to be asked to stop. -/
  | asking (e : Ending) (todo : List Nat) (stops : List (Nat × Stopping))
  /-- The producers asked have still to stop. -/
  | awaiting (e : Ending) (stops : List (Nat × Stopping))
  /-- The queue is being emptied. Without `wake` it is time to look. -/
  | draining (e : Ending) (wake : Option Nat)
  /-- The queue was found empty; it is still to be stopped. -/
  | emptied (e : Ending)
  /-- The queue has stopped; the worker has still to end. -/
  | finishing (e : Ending)
  /-- The worker has ended; the sink is still to be closed. -/
  | sealing (e : Ending) (report : Report)
  /-- The session is idle again; the call still holds the reset that brings it there however the
  call ends. -/
  | releasing (outcome : Outcome)
  /-- The call has returned. -/
  | returned (result : Except Fault Outcome)
  /-- The call was given up. -/
  | dropped
  /-- The call ended abnormally. -/
  | crashed

/-- A call that runs the session, and the worker it has set going. -/
structure Run where
  id : RunId
  timeout : Option Nat
  cancelled : Bool
  /-- The sink cannot be flushed. -/
  faulty : Bool
  stage : Run.Stage
  worker : Option Worker

namespace Run

/-- What the sink of the run has received. -/
def sink (r : Run) : Sink :=
  match r.worker with
  | some w => w.merger.sink
  | none => .empty

/-- The result, if the call has returned. -/
def result? (r : Run) : Option (Except Fault Outcome) :=
  match r.stage with
  | .returned result => some result
  | _ => none

/-- Whether nothing more will come of the call. -/
def isOver (r : Run) : Bool :=
  match r.stage with
  | .returned _ | .dropped | .crashed => true
  | _ => false

end Run

/-- State of a session. `time` is what the clock of the machine tells, in milliseconds, `clock` gives
the time of day at such a time, and `entropy` the draws of the devices without seed, by acquisition. -/
structure Session where
  timing : Timing
  detectors : List Detector
  producers : List Producer
  phase : Phase
  queues : List (Handoff Spill)
  runs : List Run
  time : Nat
  clock : Nat → Instant
  entropy : Nat → Random.Source
  launches : Nat

namespace Session

/-- A session in which nothing has happened. -/
def new (timing : Timing) (detectors : List Detector) (producers : List Producer)
    (clock : Nat → Instant) (entropy : Nat → Random.Source) : Session where
  timing := timing
  detectors := detectors
  producers := producers
  phase := .idle
  queues := []
  runs := []
  time := 0
  clock := clock
  entropy := entropy
  launches := 0

/-- The time of day. -/
def now (s : Session) : Instant := s.clock s.time

/-! ## Queues -/

/-- A new queue and its number. -/
def openQueue (s : Session) : Nat × Session :=
  (s.queues.length, { s with queues := s.queues ++ [.new] })

def queue (s : Session) (n : Nat) : Handoff Spill := s.queues.getD n .new

def setQueue (s : Session) (n : Nat) (q : Handoff Spill) : Session :=
  { s with queues := s.queues.set n q }

def put (s : Session) (n : Nat) (spill : Spill) : Session :=
  s.setQueue n ((s.queue n).put spill).2

/-- Put spills into their queues, one after the other. -/
def deliver (s : Session) (spills : List Delivery) : Session :=
  spills.foldl (fun s d => s.put d.queue d.spill) s

/-! ## Producers -/

def setProducer (s : Session) (i : Nat) (p : Producer) : Session :=
  { s with producers := s.producers.set i p }

/-- Union of the producers' statuses. -/
def status (s : Session) : Status := Status.unionAll (s.producers.map (·.status))

/-- What producer `i` needs to start into queue `n`. -/
def launch (s : Session) (n : Nat) : Launch := ⟨n, s.time, s.entropy s.launches⟩

/-- Start producer `i` into queue `n`. -/
def startProducer (s : Session) (i n : Nat) : Bool × Session :=
  match s.producers[i]? with
  | none => (false, s)
  | some p =>
    let (started, spills, p) := p.start (s.launch n)
    (started, ({ s with launches := s.launches + 1 }.setProducer i p).deliver spills)

def bootProducer (s : Session) (i : Nat) : Except Fault Unit × Session :=
  match s.producers[i]? with
  | none => (.ok (), s)
  | some p =>
    let (result, p) := p.boot
    (result, s.setProducer i p)

def shutdownProducer (s : Session) (i : Nat) : Except Fault Unit × Session :=
  match s.producers[i]? with
  | none => (.ok (), s)
  | some p =>
    let (result, spills, p) := p.shutdown s.time s.now
    (result, (s.setProducer i p).deliver spills)

def writeProducer (s : Session) (i : Nat) (settings : Tree) : Except Fault Unit × Session :=
  match s.producers[i]? with
  | none => (.ok (), s)
  | some p =>
    let (result, p) := p.write settings
    (result, s.setProducer i p)

def places (s : Session) : List Nat := List.range s.producers.length

/-! ## All producers -/

/-- Boot every producer. Fails only if none comes up. -/
def bootAll (s : Session) : Except Fault Status × Session :=
  let (booted, s) := s.places.foldl (fun (booted, s) i =>
    match s.bootProducer i with
    | (.ok (), s) => (booted + 1, s)
    | (.error _, s) => (booted, s)) (0, s)
  (if booted = 0 then .error .noProducerBooted else .ok s.status, s)

/-- Shut every producer down. -/
def shutdownAll (s : Session) : Session :=
  s.places.foldl (fun s i => (s.shutdownProducer i).2) s

/-- Settings of every producer by its identifier; those that cannot be read are left out. -/
def snapshot (s : Session) : Tree :=
  .object (s.producers.filterMap fun p =>
    match p.settings with
    | .ok tree => some (p.id, tree)
    | .error _ => none)

/-- Write to producer `i` what `trees` holds for it, and note its identifier if it refuses. -/
def writeOne (trees : List (String × Tree)) (state : List String × Session) (i : Nat) :
    List String × Session :=
  let (refused, s) := state
  match s.producers[i]? with
  | none => (refused, s)
  | some p =>
    match Tree.field? p.id trees with
    | none => (refused, s)
    | some tree =>
      match s.writeProducer i tree with
      | (.ok (), s) => (refused, s)
      | (.error _, s) => (refused ++ [p.id], s)

/-- Write settings keyed by producer identifier. Every producer named is written to; the fault names
those that refused. -/
def writeSettings (s : Session) (settings : Tree) : Except Fault Unit × Session :=
  match settings with
  | .obj trees =>
    let (refused, s) := s.places.foldl (writeOne trees) ([], s)
    if refused.isEmpty then (.ok (), s)
    else
      let names := ", ".intercalate refused
      (.error (.settings s!"rejected by: {names}"), s)
  | _ => (.error (.settings "settings must be an object keyed by producer id"), s)

/-! ## Tasks -/

/-- Polling task `n` of producer `i` reads its device out. -/
def tick? (s : Session) (i n : Nat) : Option Session := do
  let p ← s.producers[i]?
  let (spills, p) ← p.tick? n s.time s.now
  return (s.setProducer i p).deliver spills

/-- Polling task `n` of producer `i` sees that it has been asked to stop, and ends. -/
def notice? (s : Session) (i n : Nat) : Option Session := do
  let p ← s.producers[i]?
  let (spills, p) ← p.notice? n s.time s.now
  return (s.setProducer i p).deliver spills

def setRun (s : Session) (r : Nat) (run : Run) : Session := { s with runs := s.runs.set r run }

/-- The worker of run `r` looks into its queue. -/
def work? (s : Session) (r : Nat) : Option Session := do
  let run ← s.runs[r]?
  let w ← run.worker
  let (w, q) ← w.step? (s.queue w.queue)
  return (s.setQueue w.queue q).setRun r { run with worker := some w }

end Session

end ListMode
