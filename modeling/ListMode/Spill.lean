import ListMode.Record
import ListMode.RunId
import ListMode.Snapshot
import ListMode.Tree

/-!
# Spills

A spill is what a producer hands over at one readout: hits or a device-native buffer, the newest
statistics per channel, and on the first and last spill of a run the metadata of the run.
-/

namespace ListMode

/-- A detector of the setup. -/
structure Detector where
  name : String
  kind : String
  channel : Option Channel
  deriving DecidableEq, Repr, Inhabited

/-- Metadata of a run. `timeStop` is set on the closing boundary only. -/
structure RunInfo where
  id : RunId
  timeStart : Instant
  timeStop : Option Instant
  totalEvents : Nat
  detectors : List Detector
  settings : Tree
  deriving Inhabited

namespace RunInfo

/-- Metadata of a run that begins now. -/
def opening (id : RunId) (now : Instant) (detectors : List Detector) (settings : Tree) : RunInfo :=
  { id, timeStart := now, timeStop := none, totalEvents := 0, detectors, settings }

/-- Metadata of the same run when it ends now. -/
def closing (run : RunInfo) (now : Instant) (settings : Tree) : RunInfo :=
  { run with timeStop := some now, settings }

def isClosing (run : RunInfo) : Bool := run.timeStop.isSome

end RunInfo

/-- Event data, decoded or not. -/
inductive Payload where
  | events (hits : List Hit)
  | raw (buffer : List UInt8)
  deriving DecidableEq, Repr, Inhabited

namespace Payload

/-- The decoded hits; a buffer has none. -/
def hits : Payload → List Hit
  | events hits => hits
  | raw _ => []

def isRaw : Payload → Bool
  | events _ => false
  | raw _ => true

def isEmpty : Payload → Bool
  | events hits => hits.isEmpty
  | raw buffer => buffer.isEmpty

end Payload

/-- Events, statistics and metadata that travel together. -/
structure Spill where
  source : Option String
  payload : Payload
  stats : KeyMap Channel (Snapshot Float)
  run : Option RunInfo
  detectors : Option (List Detector)

namespace Spill

/-- A spill with decoded hits and nothing else. -/
def events (source : String) (hits : List Hit) : Spill :=
  { source := some source, payload := .events hits, stats := ∅, run := none, detectors := none }

/-- A spill with an undecoded buffer and nothing else. -/
def raw (source : String) (buffer : List UInt8) : Spill :=
  { source := some source, payload := .raw buffer, stats := ∅, run := none, detectors := none }

/-- The spill without source, hits, statistics or metadata. -/
def blank : Spill :=
  { source := none, payload := .events [], stats := ∅, run := none, detectors := none }

instance : Inhabited Spill := ⟨blank⟩

/-- The first or last spill of a run. -/
def boundary (run : RunInfo) : Spill :=
  { blank with run := some run, detectors := some run.detectors }

/-- Attach statistics, in the place of older ones of the same channel. -/
def withStats (s : Spill) (snapshot : Snapshot Float) : Spill :=
  { s with stats := s.stats.insert snapshot.channel snapshot }

def hits (s : Spill) : List Hit := s.payload.hits

def eventCount (s : Spill) : Nat := s.hits.length

/-- Take the decoded hits out; a buffer stays. -/
def takeEvents (s : Spill) : List Hit × Spill :=
  match s.payload with
  | .events hits => (hits, { s with payload := .events [] })
  | .raw _ => ([], s)

/-- Nothing to deliver: no event data, no statistics, no metadata. -/
def isEmpty (s : Spill) : Bool :=
  s.payload.isEmpty && s.stats.isEmpty && s.run.isNone && s.detectors.isNone

def channels (s : Spill) : List Channel := s.hits.map (·.channel) ++ s.stats.keys

end Spill

end ListMode
