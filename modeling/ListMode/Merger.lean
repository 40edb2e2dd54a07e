import ListMode.Sink

/-!
# Merging spills into one time-ordered stream

Producers keep each channel's hits in time order; between channels nothing is promised. The merger
buffers hits in one lane per channel and emits the smallest front over all lanes. It stops whenever
an open lane is empty, since that channel could still deliver an older hit. A lane is opened by the
first hit or statistics of its channel, or beforehand for the channels the merger is told to wait
for, and it is closed by statistics of kind `stop`.

Statistics and metadata stay in flight until every hit of their spill has been emitted. A spill
never overtakes an older one in flight with the same source or a common channel, and a run boundary
overtakes nothing, so a channel's last statistics follow its last hit and the closing boundary is
the last spill of a run.
-/

namespace ListMode

/-- Counts of what a merger has done. -/
structure Report where
  spillsIn : Nat
  spillsOut : Nat
  eventsOut : Nat
  decodeErrors : Nat
  deriving DecidableEq, Repr, Inhabited

/-- Turns device-native buffers of one format into hits. -/
structure Decoder where
  format : String
  decode? : List UInt8 → Option (List Hit)

def Record.decoder : Decoder := ⟨Record.format, Record.decode?⟩

/-- Buffered hits of one channel, front first, each with the number of its spill. -/
structure Lane where
  hits : List (Hit × Nat)
  isOpen : Bool
  deriving DecidableEq, Repr, Inhabited

namespace Lane

def new : Lane := ⟨[], true⟩

/-- The lane holds up the merge. -/
def isStarved (l : Lane) : Bool := l.isOpen && l.hits.isEmpty

end Lane

/-- A spill some of whose hits may still be buffered. -/
structure InFlight where
  spill : Spill
  remaining : Nat
  channels : List Channel

/-- What the spills that stay in flight hold back: younger spills of their sources and channels,
and every younger boundary. -/
structure Hold where
  oldest : Bool
  sources : List String
  channels : List Channel
  deriving DecidableEq, Repr

namespace Hold

def none : Hold := ⟨true, [], []⟩

/-- The hold after `e` stays in flight as well. -/
def add (h : Hold) (e : InFlight) : Hold :=
  ⟨false, e.spill.source.toList ++ h.sources, e.channels ++ h.channels⟩

/-- Whether `e` shares its source or a channel with a spill that stays in flight. -/
def blocks (h : Hold) (e : InFlight) : Bool :=
  e.spill.source.any (h.sources.contains ·) || e.channels.any (h.channels.contains ·)

/-- Whether `e` may leave: all its hits are out, and nothing older holds it back. -/
def releases (h : Hold) (e : InFlight) : Bool :=
  e.remaining == 0 && if e.spill.run.isSome then h.oldest else !h.blocks e

end Hold

/-- State of a merger that delivers into `sink`. `fronts` holds the keys of the lanes' first hits,
smallest first. -/
structure Merger where
  sink : Sink
  decoders : KeyMap String Decoder
  inFlight : KeyMap Nat InFlight
  nextSeq : Nat
  lanes : KeyMap Channel Lane
  fronts : List Hit.Key
  output : List Hit
  closed : Bool
  report : Report

namespace Merger

def new (sink : Sink) : Merger where
  sink := sink
  decoders := ∅
  inFlight := ∅
  nextSeq := 0
  lanes := ∅
  fronts := []
  output := []
  closed := false
  report := ⟨0, 0, 0, 0⟩

def withDecoder (m : Merger) (source : String) (decoder : Decoder) : Merger :=
  { m with decoders := m.decoders.insert source decoder }

/-- Wait for each of `channels` until it has delivered data or stopped. -/
def withChannels (m : Merger) (channels : List Channel) : Merger :=
  { m with lanes := channels.foldl (fun lanes c => lanes.insertIfNew c .new) m.lanes }

/-- Hits that are buffered in the lanes. -/
def buffered (m : Merger) : Nat := (m.lanes.values.map (·.hits.length)).foldr (· + ·) 0

/-! ## Emitting hits -/

def insertFront (k : Hit.Key) : List Hit.Key → List Hit.Key
  | [] => [k]
  | k' :: rest =>
    if (compare k k').isLE then k :: k' :: rest else k' :: insertFront k rest

/-- Count one hit of spill `seq` as emitted. -/
def settle (inFlight : KeyMap Nat InFlight) (seq : Nat) : KeyMap Nat InFlight :=
  match inFlight.get? seq with
  | some e => inFlight.insert seq { e with remaining := e.remaining - 1 }
  | none => inFlight

/-- Whether an empty open lane holds up the merge. -/
def isHeldUp (m : Merger) : Bool := !m.closed && m.lanes.values.any Lane.isStarved

/-- Take the smallest front off and emit its hit. `none` if the merge is held up or nothing is
buffered. -/
def emit? (m : Merger) : Option Merger :=
  if m.isHeldUp then none
  else
    match m.fronts with
    | [] => none
    | front :: fronts =>
      let m := { m with fronts }
      match m.lanes.get? front.channel with
      | none => some m
      | some lane =>
        match lane.hits with
        | [] => some m
        | (hit, seq) :: rest =>
          let fronts :=
            match rest with
            | [] => fronts
            | (next, _) :: _ => insertFront ⟨next.timestamp, front.channel⟩ fronts
          some { m with
            lanes := m.lanes.insert front.channel { lane with hits := rest }
            fronts := fronts
            inFlight := settle m.inFlight seq
            output := m.output ++ [hit] }

def emitUpTo : (n : Nat) → Merger → Merger
  | 0, m => m
  | n + 1, m =>
    match m.emit? with
    | none => m
    | some m => emitUpTo n m

/-- Emit all that can be emitted. Each step takes a buffered hit or a front away for good. -/
def merge (m : Merger) : Merger := emitUpTo (m.buffered + m.fronts.length) m

/-! ## Releasing spills -/

/-- The emitted hits with the metadata of `origin`. A closing run is told its total. -/
def parcel (m : Merger) (origin : Spill) : Spill where
  source := none
  payload := .events m.output
  stats := origin.stats
  run := origin.run.map fun run =>
    if run.isClosing then { run with totalEvents := m.report.eventsOut + m.output.length } else run
  detectors := origin.detectors

/-- Hand the emitted hits to the sink with the metadata of `origin`. A delivery that would be empty
is left out. -/
def deliver (m : Merger) (origin : Spill) : Merger :=
  let spill := m.parcel origin
  if spill.isEmpty then { m with output := [] }
  else
    { m with
      output := []
      sink := m.sink.add spill
      report := { m.report with
        spillsOut := m.report.spillsOut + 1
        eventsOut := m.report.eventsOut + m.output.length } }

/-- Release spill `seq`, or let it hold younger ones back. -/
def drainOne (state : Merger × Hold) (entry : Nat × InFlight) : Merger × Hold :=
  let (m, hold) := state
  let (seq, e) := entry
  if hold.releases e then (deliver { m with inFlight := m.inFlight.erase seq } e.spill, hold)
  else (m, hold.add e)

/-- Release what may leave, oldest first. -/
def drain (m : Merger) : Merger := (m.inFlight.entries.foldl drainOne (m, .none)).1

/-! ## Receiving spills -/

/-- The hits of a payload. A buffer without decoder, or one that does not decode, has none and
counts as an error. -/
def decode (m : Merger) (spill : Spill) : List Hit × Nat :=
  match spill.payload with
  | .events hits => (hits, 0)
  | .raw buffer =>
    match (m.decoders.get? (spill.source.getD "")).bind (·.decode? buffer) with
    | some hits => (hits, 0)
    | none => ([], 1)

/-- Put a hit of spill `seq` at the back of its lane. -/
def bufferHit (seq : Nat) (m : Merger) (hit : Hit) : Merger :=
  let lane := (m.lanes.get? hit.channel).getD .new
  { m with
    fronts := if lane.hits.isEmpty then insertFront hit.key m.fronts else m.fronts
    lanes := m.lanes.insert hit.channel { lane with hits := lane.hits ++ [(hit, seq)] } }

/-- Open or close the lane of a channel as its newest statistics say. -/
def applyStats (lanes : KeyMap Channel Lane) (entry : Channel × Snapshot Float) :
    KeyMap Channel Lane :=
  lanes.alter entry.1 fun lane => { lane.getD .new with isOpen := !entry.2.isStop }

/-- Receive a spill without emitting anything: its hits go to their lanes, then its statistics are
applied, and its metadata is in flight. -/
def receive (m : Merger) (spill : Spill) : Merger :=
  let (hits, errors) := m.decode spill
  let seq := m.nextSeq
  let m := { m with
    nextSeq := seq + 1
    report := { m.report with
      spillsIn := m.report.spillsIn + 1
      decodeErrors := m.report.decodeErrors + errors } }
  let m := hits.foldl (bufferHit seq) m
  let entry : InFlight :=
    { spill := { spill with payload := .events [] }
      remaining := hits.length
      channels := hits.map (·.channel) ++ spill.stats.keys }
  { m with
    lanes := spill.stats.entries.foldl applyStats m.lanes
    inFlight := m.inFlight.insert seq entry }

/-- Receive a spill, then emit and release all that can be. -/
def push (m : Merger) (spill : Spill) : Merger := (m.receive spill).merge.drain

def pushAll (m : Merger) (spills : List Spill) : Merger := spills.foldl push m

/-- Nothing more will come: emit and release everything. -/
def exhaust (m : Merger) : Merger :=
  let m := { m with closed := true }.merge.drain
  if m.output.isEmpty then m else m.deliver .blank

/-- Emit and release everything and flush the sink. -/
def finish (m : Merger) : Merger := let m := m.exhaust; { m with sink := m.sink.flush }

end Merger

end ListMode
