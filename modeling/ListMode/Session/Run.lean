import ListMode.Session.Basic

/-!
# Running a session

A run takes the session from idle through starting, running, stopping and draining back to idle. It
puts an opening boundary into a new queue, starts every producer that can run, sets a worker going,
waits, stops the producers, puts the closing boundary, waits until the queue is empty, and stops the
queue. At most one run is let in at a time. However a call ends, it puts the session back to idle.

Each step below is atomic and changes the phase at most once.
-/

namespace ListMode.Session

def setStage (s : Session) (r : Nat) (stage : Run.Stage) : Session :=
  { s with runs := s.runs.modify r fun run => { run with stage } }

/-- End call `r` with a fault, and put the session back to idle. -/
def fail (s : Session) (r : Nat) (fault : Fault) : Session :=
  { s with phase := .idle }.setStage r (.returned (.error fault))

/-- Let call `r` in if the session is idle. -/
def begin (s : Session) (r : Nat) : Session :=
  if s.phase = .idle then { s with phase := .starting }.setStage r .opening
  else s.setStage r (.returned (.error .sessionBusy))

/-- Places of the producers that can run. -/
def runnable (s : Session) : List Nat :=
  s.places.filter fun i => (s.producers[i]?).any (·.status.canRun)

/-- Put the opening boundary into a new queue. -/
def openRun (s : Session) (r : Nat) (run : Run) : Session :=
  if s.runnable.isEmpty then s.fail r .noRunnableProducer
  else
    let info := RunInfo.opening run.id s.now s.detectors s.snapshot
    let (n, s) := s.openQueue
    (s.put n (.boundary info)).setStage r (.starting ⟨info, n⟩ s.runnable [])

def producersAt (s : Session) (places : List Nat) : List Producer := places.filterMap (s.producers[·]?)

/-- Channels of the detectors that a started producer reads out. -/
def awaited (s : Session) (started : List Nat) : List Channel :=
  let live := (s.producersAt started).flatMap (·.channels)
  (s.detectors.filterMap (·.channel)).filter (live.contains ·)

/-- The merger of a run: it decodes the buffers of the started producers and waits for their
detectors. -/
def merger (s : Session) (started : List Nat) : Merger :=
  let m := (s.producersAt started).foldl (fun m p =>
    match p.decoder? with
    | some decoder => m.withDecoder p.id decoder
    | none => m) (Merger.new .empty)
  m.withChannels (s.awaited started)

/-- All producers have been tried: fail if none started, else set the worker going. -/
def launchRun (s : Session) (r : Nat) (run : Run) (o : Opened) (started : List Nat) : Session :=
  if started.isEmpty then (s.setQueue o.queue (s.queue o.queue).stop).fail r .noProducerStarted
  else
    let worker := Worker.new o.queue (s.merger started) run.faulty
    let watch := Watch.start s.time s.timing.poll run.timeout
    { s with phase := .running }.setRun r
      { run with stage := .running ⟨o, started, s.time⟩ watch, worker := some worker }

/-- Look whether run `r` has to stop. A wait that crashes ends the call abnormally, and nothing else.
`none` if it has to wait. -/
def watch? (s : Session) (r : Nat) (run : Run) (l : Launched) (w : Watch) : Option Session :=
  if w.crashes run.cancelled then some ({ s with phase := .idle }.setStage r .crashed)
  else
    match w.look s.time run.cancelled ((s.producersAt l.started).any (·.isRunning)) with
    | .error reason => some ({ s with phase := .stopping }.setStage r (.asking ⟨l, reason, s.time⟩ l.started []))
    | .ok w' => if w' = w then none else some (s.setStage r (.running l w'))

def askProducer (s : Session) (i : Nat) : Stopping × Session :=
  match s.producers[i]? with
  | none => (.complete false, s)
  | some p =>
    let (stopping, spills, p) := p.beginStop s.time
    (stopping, (s.setProducer i p).deliver spills)

/-- Complete the stop of a producer, if it has stopped. -/
def awaitProducer? (s : Session) (stop : Nat × Stopping) : Option Session := do
  let p ← s.producers[stop.1]?
  let (_, spills, p) ← p.endStop? s.time stop.2
  return (s.setProducer stop.1 p).deliver spills

/-- Complete the first of `stops` that can be completed. Gives the ones that are left. -/
def awaitAny? (s : Session) : List (Nat × Stopping) → Option (List (Nat × Stopping) × Session)
  | [] => none
  | stop :: rest =>
    match s.awaitProducer? stop with
    | some s => some (rest, s)
    | none => (awaitAny? s rest).map fun (left, s) => (stop :: left, s)

/-- All producers have stopped: put the closing boundary. -/
def closeRun (s : Session) (r : Nat) (e : Ending) : Session :=
  let closing := Spill.boundary (e.info.closing s.now s.snapshot)
  ({ s with phase := .draining }.put e.queue closing).setStage r (.draining e none)

/-- Look whether the queue is empty. `none` if it is not yet time to look. -/
def drain? (s : Session) (r : Nat) (e : Ending) : (wake : Option Nat) → Option Session
  | some wake => if wake ≤ s.time then some (s.setStage r (.draining e none)) else none
  | none =>
    if (s.queue e.queue).isEmpty then some (s.setStage r (.emptied e))
    else some (s.setStage r (.draining e (some (s.time + s.timing.drain))))

/-- See whether the worker has ended. -/
def collect? (s : Session) (r : Nat) (run : Run) (e : Ending) : Option Session :=
  match run.worker with
  | none => none
  | some w =>
    match w.stage with
    | .ended => some (s.setStage r (.sealing e w.merger.report))
    | .lost => some (s.fail r (.taskLost "flushing the sink failed"))
    | _ => none

/-- Close the sink and become idle. -/
def sealRun (s : Session) (r : Nat) (run : Run) (e : Ending) (report : Report) : Session :=
  let outcome : Outcome :=
    { runId := run.id
      reason := e.reason
      started := (s.producersAt e.started).map (·.id)
      timeToStop := e.stoppedAt - e.begun
      elapsed := s.time - e.begun
      report }
  let worker := run.worker.map fun w => { w with merger.sink := w.merger.sink.close }
  { s with phase := .idle }.setRun r { run with worker, stage := .releasing outcome }

/-- The next step of call `r`. `none` if it has to wait or nothing more will come of it. -/
def step? (s : Session) (r : Nat) : Option Session := do
  let run ← s.runs[r]?
  match run.stage with
  | .called => some (s.begin r)
  | .opening => some (s.openRun r run)
  | .starting o [] started => some (s.launchRun r run o started)
  | .starting o (i :: todo) started =>
    let (accepted, s) := s.startProducer i o.queue
    some (s.setStage r (.starting o todo (if accepted then started ++ [i] else started)))
  | .running l w => s.watch? r run l w
  | .asking e [] stops => some (s.setStage r (.awaiting e stops))
  | .asking e (i :: todo) stops =>
    let (stopping, s) := s.askProducer i
    some (s.setStage r (.asking e todo (stops ++ [(i, stopping)])))
  | .awaiting e [] => some (s.closeRun r e)
  | .awaiting e stops => do
    let (left, s) ← s.awaitAny? stops
    return s.setStage r (.awaiting e left)
  | .draining e wake => s.drain? r e wake
  | .emptied e => some ((s.setQueue e.queue (s.queue e.queue).stop).setStage r (.finishing e))
  | .finishing e => s.collect? r run e
  | .sealing e report => some (s.sealRun r run e report)
  | .releasing outcome => some ({ s with phase := .idle }.setStage r (.returned (.ok outcome)))
  | .returned _ | .dropped | .crashed => none

/-! ## Calls from outside -/

/-- Call for a run. Gives the number of the call. -/
def call (s : Session) (id : RunId) (timeout : Option Nat) (faulty : Bool) : Nat × Session :=
  (s.runs.length, { s with runs := s.runs ++
    [{ id, timeout, cancelled := false, faulty, stage := .called, worker := none }] })

def cancel (s : Session) (r : Nat) : Session :=
  { s with runs := s.runs.modify r fun run => { run with cancelled := true } }

/-- Give call `r` up. If it was let in, the session is put back to idle. -/
def drop (s : Session) (r : Nat) : Session :=
  match s.runs[r]? with
  | none => s
  | some run =>
    match run.stage with
    | .returned _ | .dropped | .crashed => s
    | .called => s.setStage r .dropped
    | _ => { s with phase := .idle }.setStage r .dropped

end ListMode.Session
