import ListMode.Acquisition
import ListMode.Fault
import ListMode.Merger
import ListMode.Status

/-!
# Producers

A producer is one instrument behind a uniform life cycle: it boots, starts and stops acquisitions
that hand spills to a queue, gives and takes its settings, and shuts down. There are three kinds of
device: a synthetic digitizer, the replay of a recording, and a stand-in that does what a script
says. The first two acquire in polling tasks; the stand-in acts only when it is called.

Spills that an operation hands over are part of its result, each with the number of its queue.
-/

namespace ListMode

/-- What a scripted stand-in does when it is called. -/
structure Script where
  bootFault : Option String
  shutdownFault : Option String
  readFault : Option String
  writeFault : Option String
  /-- It never starts. -/
  refuses : Bool
  /-- Spills handed over at the start. -/
  emits : List Spill
  /-- Spills handed over when it is stopped. -/
  last : List Spill
  /-- It ends by itself at once. -/
  finishes : Bool
  /-- Milliseconds that stopping takes. -/
  stopDelay : Option Nat
  settings : Tree
  channels : List Channel

/-- A scripted stand-in. It remembers the queue of its last start until it is stopped. -/
structure Scripted where
  script : Script
  running : Bool
  queue : Option Nat

/-- The instrument behind a producer. -/
inductive Device where
  | synthetic (config : Synthetic.Config)
  | replay (recording : List Spill) (interval : Nat) (settings : Tree)
  | scripted (s : Scripted)

/-- An instrument with its life cycle. -/
structure Producer where
  id : String
  status : Status
  device : Device
  slot : Polling.Slot Acquisition

/-- A spill on its way to a queue. -/
structure Delivery where
  queue : Nat
  spill : Spill

/-- What starting an acquisition needs from outside: the queue for its spills, the session time, and
draws for a device without seed. -/
structure Launch where
  queue : Nat
  time : Nat
  source : Random.Source

/-- A stop of a producer that has begun. -/
inductive Stopping where
  /-- There is nothing to wait for. -/
  | complete (wasRunning : Bool)
  /-- Waiting for a polling task. -/
  | task (request : Polling.Request)
  /-- Waiting until a session time. -/
  | delay (wake : Nat)

namespace Producer

def new (id : String) (device : Device) : Producer := ⟨id, .initial, device, .empty⟩

def synthetic (id : String) (config : Synthetic.Config) : Producer := new id (.synthetic config)

/-- A replay of `recording`, one spill every `interval` milliseconds. -/
def replay (id : String) (recording : List Spill) (interval : Nat) : Producer :=
  new id (.replay recording interval (.obj []))

def scripted (id : String) (status : Status) (script : Script) : Producer :=
  { new id (.scripted ⟨script, false, none⟩) with status }

/-! ## Views -/

/-- Channels the producer reads out, as configured. -/
def channels (p : Producer) : List Channel :=
  match p.device with
  | .synthetic config => config.channels
  | .replay recording .. => Replay.channels recording
  | .scripted s => s.script.channels

/-- Whether an acquisition is believed to be alive. -/
def isRunning (p : Producer) : Bool :=
  match p.device with
  | .scripted s => s.running
  | _ => p.slot.alive

/-- The decoder of the producer's buffers, if it hands over any. -/
def decoder? (p : Producer) : Option Decoder :=
  match p.device with
  | .synthetic config => if config.rawOutput then some Record.decoder else none
  | _ => none

/-! ## Life cycle -/

/-- Fail with a settings fault if the script says so. -/
def failing (reason : Option String) (otherwise : α) : Except Fault α :=
  match reason with
  | some reason => .error (.settings reason)
  | none => .ok otherwise

def boot (p : Producer) : Except Fault Unit × Producer :=
  match p.device with
  | .synthetic config =>
    if config.failBoot then
      (.error (.boot p.id "simulated device did not respond"), { p with status := .initial })
    else
      match config.fault? with
      | some reason => (.error (.boot p.id reason), p)
      | none =>
        (.ok (), { p with
          status := if config.oscilloscope then Status.booted.union .oscilloscope else .booted })
  | .replay .. => (.ok (), { p with status := .booted })
  | .scripted s =>
    match failing s.script.bootFault () with
    | .error fault => (.error fault, p)
    | .ok () => (.ok (), { p with status := .booted })

/-- Begin an acquisition. `false` if the producer is not ready or already running. -/
def start (p : Producer) (l : Launch) : Bool × List Delivery × Producer :=
  let poll (work : Acquisition.Work) : Bool × List Delivery × Producer :=
    if p.status.canRun then
      let (started, slot) := p.slot.start ⟨l.queue, l.time, work⟩
      (started, [], { p with slot })
    else (false, [], p)
  match p.device with
  | .synthetic config =>
    let source := match config.seed with
      | some seed => Random.Source.ofSeed seed
      | none => l.source
    poll (.synthetic (.start p.id config source))
  | .replay recording interval _ => poll (.replay (.start p.id interval recording))
  | .scripted s =>
    if s.script.refuses then (false, [], p)
    else
      let s' := { s with running := !s.script.finishes, queue := some l.queue }
      (true, s.script.emits.map (⟨l.queue, ·⟩), { p with device := .scripted s' })

/-- Stop a stand-in: it hands its last spills over, unless it was stopped before. -/
def halt (p : Producer) (s : Scripted) : Bool × List Delivery × Producer :=
  let last := match s.queue with
    | some queue => s.script.last.map (Delivery.mk queue)
    | none => []
  (s.running, last, { p with device := .scripted { s with running := false, queue := none } })

/-- Begin to stop the acquisition at session time `time`. -/
def beginStop (p : Producer) (time : Nat) : Stopping × List Delivery × Producer :=
  match p.device with
  | .scripted s =>
    match s.script.stopDelay with
    | some delay => (.delay (time + delay), [], p)
    | none =>
      let (wasRunning, last, p) := p.halt s
      (.complete wasRunning, last, p)
  | _ =>
    match p.slot.beginStop with
    | (none, slot) => (.complete false, [], { p with slot })
    | (some request, slot) => (.task request, [], { p with slot })

/-- Complete a stop; gives whether anything was running. `none` as long as it has to wait. -/
def endStop? (p : Producer) (time : Nat) : Stopping → Option (Bool × List Delivery × Producer)
  | .complete wasRunning => some (wasRunning, [], p)
  | .task request => (p.slot.endStop? request).map fun (wasAlive, slot) => (wasAlive, [], { p with slot })
  | .delay wake =>
    if wake ≤ time then
      match p.device with
      | .scripted s => some (p.halt s)
      | _ => some (false, [], p)
    else none

/-! ## Polling tasks -/

/-- Polling task `n` reads its device out. `none` if there is no such task. -/
def tick? (p : Producer) (n : Nat) (time : Nat) (now : Instant) : Option (List Delivery × Producer) :=
  (p.slot.task? n).map fun t =>
    match t.work.tick? (t.work.reading time now) with
    | none => ([], { p with slot := p.slot.crash n })
    | some o =>
      (o.spills.map (⟨t.work.queue, ·⟩),
        { p with slot := match o.next with
          | none => p.slot.finish n
          | some work => p.slot.modify n fun t => { t with work } })

/-- Polling task `n`, asked to stop, hands its last spill over and ends. `none` if there is no such
task or nobody asked. -/
def notice? (p : Producer) (n : Nat) (time : Nat) (now : Instant) :
    Option (List Delivery × Producer) :=
  match p.slot.task? n with
  | some t =>
    if t.asked then
      some ([⟨t.work.queue, t.work.stopSpill (t.work.reading time now)⟩],
        { p with slot := p.slot.finish n })
    else none
  | none => none

/-- Stop the acquisition without anything coming in between. -/
def stop (p : Producer) (time : Nat) (now : Instant) : Bool × List Delivery × Producer :=
  let (stopping, first, p) := p.beginStop time
  let (last, p) := match stopping with
    | .task request => (p.notice? request.number time now).getD ([], p)
    | _ => ([], p)
  let finished := match stopping with
    | .delay wake => p.endStop? wake stopping
    | _ => p.endStop? time stopping
  match finished with
  | some (wasRunning, rest, p) => (wasRunning, first ++ last ++ rest, p)
  | none => (false, first ++ last, p)

/-- Take the device offline, stopping its acquisition first. -/
def shutdown (p : Producer) (time : Nat) (now : Instant) :
    Except Fault Unit × List Delivery × Producer :=
  match p.device with
  | .scripted s =>
    match failing s.script.shutdownFault () with
    | .error fault => (.error fault, [], p)
    | .ok () => (.ok (), [], { p with status := .initial })
  | _ =>
    let (_, spills, p) := p.stop time now
    (.ok (), spills, { p with status := .initial })

/-! ## Settings -/

def settings (p : Producer) : Except Fault Tree :=
  match p.device with
  | .synthetic config => .ok config.toTree
  | .replay _ _ settings => .ok settings
  | .scripted s => failing s.script.readFault s.script.settings

/-- Replace the settings of the device. Settings that cannot be used change nothing. An acquisition
in progress keeps those it was started with. -/
def write (p : Producer) (settings : Tree) : Except Fault Unit × Producer :=
  match p.device with
  | .synthetic _ =>
    match Synthetic.Config.ofTree? settings with
    | none => (.error (.settings "malformed settings"), p)
    | some config =>
      match config.fault? with
      | some reason => (.error (.settings reason), p)
      | none => (.ok (), { p with device := .synthetic config })
  | .replay recording interval _ => (.ok (), { p with device := .replay recording interval settings })
  | .scripted s =>
    match failing s.script.writeFault () with
    | .error fault => (.error fault, p)
    | .ok () =>
      (.ok (), { p with device := .scripted { s with script := { s.script with settings } } })

end Producer

end ListMode
