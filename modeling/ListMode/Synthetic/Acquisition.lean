import ListMode.Random.Source
import ListMode.Readout
import ListMode.Synthetic.Config

/-!
# Acquisition by a synthetic digitizer

Each readout covers one window of the device clock. Channel by channel in ascending order, it draws
a number of hits, their offsets inside the window, and for each hit a flag and an energy. Windows
follow each other without gap, so the hits of a channel never go back in time. Every readout reports
the statistics of every channel, and the last spill of an acquisition reports them once more as
stopped.

The device clock and the triggers are counted in 64 bits. A readout that would need a later tick or
a larger count crashes; so do one whose range of counts is not finite, and one with more hits than a
list can have. A crashed acquisition hands over nothing more. Below the length of a list, memory is
taken to be unlimited.
-/

namespace ListMode.Synthetic

/-- Ticks of the device clock per millisecond. -/
def ticksPerMilli : Nat := 100000

/-- Ticks of the device clock per second. -/
def ticksPerSecond : Nat := 100000000

/-- Tick `n` of the device clock, if it counts that far. -/
def clock? (n : Nat) : Option UInt64 := if n < UInt64.size then some (UInt64.ofNat n) else none

/-- Most offsets in a list: eight bytes each, and no list is longer than `2 ^ 63 - 1` bytes. -/
def mostOffsets : Nat := Nat.pow 2 60 - 1

/-- Most hits in a list: sixteen bytes each, in a list that doubles when it is full. -/
def mostHits : Nat := Nat.pow 2 58

/-- Share of the elapsed time during which a channel can trigger. -/
def liveShare : Float := 0.98

/-- One pulse in a hundred overlaps another, in units of `2 ^ -64`. -/
def pileupChance : Nat := 184467440737095520

/-- State of an acquisition. It keeps the configuration it was started with. -/
structure Acquisition where
  id : String
  config : Config
  source : Random.Source
  /-- Triggers so far, for each channel read out. -/
  triggers : KeyMap Channel Nat
  spillNumber : Nat

namespace Acquisition

def start (id : String) (config : Config) (source : Random.Source) : Acquisition where
  id := id
  config := config
  source := source
  triggers := KeyMap.ofList (config.channels.map (·, 0))
  spillNumber := 0

/-- Ticks covered by one readout. -/
def window (a : Acquisition) : Nat := a.config.interval * ticksPerMilli

/-- Seconds covered by one readout. -/
def seconds (a : Acquisition) : Float := a.config.interval.toFloat / 1000.0

/-- Milliseconds from the start of the acquisition to the next readout. -/
def due (a : Acquisition) : Nat := (a.spillNumber + 1) * a.config.interval

/-- The acquisition has reached its readout limit. -/
def isComplete (a : Acquisition) : Bool :=
  match a.config.maxSpills with
  | some most => decide (most ≤ a.spillNumber)
  | none => false

/-! ## Draws -/

/-- The whole number nearest to `x`, halfway between two the larger one, within 64 bits. -/
def nearest (x : Float) : Nat :=
  let whole := x.toUInt64
  if 0.5 ≤ x - whole.toFloat ∧ whole.toNat + 1 < UInt64.size then whole.toNat + 1 else whole.toNat

/-- Number of hits of one channel in one readout, uniform around the mean. -/
def drawCount? (a : Acquisition) (s : Random.Source) : Option (Nat × Random.Source) := do
  let mean := a.config.rate * a.seconds
  let (x, s) ← s.upToFloat? (2.0 * mean)
  return (nearest x, s)

/-- A hit at a known place of the window. -/
def drawHit? (a : Acquisition) (channel : Channel) (offset : Nat) (s : Random.Source) :
    Option (Hit × Random.Source) := do
  let (overlaps, s) := s.chance pileupChance
  let (energy, s) := s.upTo16 a.config.energyMax
  let timestamp ← clock? (a.spillNumber * a.window + offset)
  return ({ channel, timestamp, energy, flags := if overlaps then .pileup else .empty }, s)

def drawHits? (a : Acquisition) (channel : Channel) :
    (offsets : List Nat) → Random.Source → Option (List Hit × Random.Source)
  | [], s => some ([], s)
  | offset :: rest, s => do
    let (hit, s) ← a.drawHit? channel offset s
    let (hits, s) ← drawHits? a channel rest s
    return (hit :: hits, s)

/-- The hits of one channel in one readout. -/
def drawChannel? (a : Acquisition) (channel : Channel) (s : Random.Source) :
    Option (List Hit × Random.Source) := do
  let (count, s) ← a.drawCount? s
  guard (count ≤ mostOffsets)
  let (offsets, s) := Random.Source.times (·.below (max a.window 1)) count s
  a.drawHits? channel (offsets.mergeSort (· ≤ ·)) s

/-- The hits of `channels` in one readout, one channel after the other. -/
def drawChannels? (a : Acquisition) :
    (channels : List Channel) → Random.Source → Option (List (Channel × List Hit) × Random.Source)
  | [], s => some ([], s)
  | channel :: rest, s => do
    let (hits, s) ← a.drawChannel? channel s
    let (more, s) ← drawChannels? a rest s
    return ((channel, hits) :: more, s)

def count (triggers : KeyMap Channel Nat) (drawn : List (Channel × List Hit)) :
    KeyMap Channel Nat :=
  drawn.foldl (fun m (channel, hits) => m.alter channel fun n => n.getD 0 + hits.length) triggers

/-- The hits of the next readout by channel, and the acquisition after it. `none` if the readout
crashes. -/
def draw? (a : Acquisition) : Option (List (Channel × List Hit) × Acquisition) := do
  let _ ← clock? (a.config.interval * ticksPerSecond)
  let _ ← clock? (a.spillNumber * a.window)
  let (drawn, source) ← a.drawChannels? a.triggers.keys a.source
  guard ((drawn.flatMap (·.2)).length ≤ mostHits)
  let triggers := count a.triggers drawn
  guard (a.triggers.keys.all fun channel => (triggers.get? channel).getD 0 < UInt64.size)
  return (drawn, { a with source, triggers, spillNumber := a.spillNumber + 1 })

/-! ## Spills -/

/-- A spill of this acquisition without statistics. -/
def spill (a : Acquisition) (hits : List Hit) : Spill :=
  if a.config.rawOutput then .raw a.id (Record.encode hits) else .events a.id hits

/-- Statistics of one channel as they stand. -/
def snapshot (a : Acquisition) (r : Reading) (kind : Snapshot.Kind) (channel : Channel) :
    Snapshot Float :=
  let triggers := (a.triggers.get? channel).getD 0
  ((((Snapshot.new 0.0 channel kind r.now).withSpillNumber a.spillNumber).withCounter
    Snapshot.triggerCount triggers.toFloat).withCounter
    Snapshot.realTime r.elapsed).withCounter
    Snapshot.liveTime (r.elapsed * liveShare) |>.withCounter
    Snapshot.deadTime (r.elapsed * (1.0 - liveShare))

/-- Read out one window. `none` if the readout crashes, which ends the acquisition abnormally. -/
def read? (a : Acquisition) (r : Reading) : Option (Spill × Acquisition) := do
  let (drawn, after) ← a.draw?
  let kind : Snapshot.Kind := if a.spillNumber = 0 then .start else .running
  let stats := drawn.map fun (channel, hits) =>
    (after.snapshot r kind channel).withRate (hits.length.toFloat / a.seconds)
  return (stats.foldl Spill.withStats (a.spill (drawn.flatMap (·.2))), after)

/-- The last spill: no hits, and every channel stopped. -/
def stopSpill (a : Acquisition) (r : Reading) : Spill :=
  a.triggers.keys.foldl (fun s channel => s.withStats (a.snapshot r .stop channel)) (a.spill [])

/-- Read out once more; at the readout limit the last spill follows at once. -/
def tick? (a : Acquisition) (r : Reading) : Option (Readout Acquisition) := do
  let (spill, a) ← a.read? r
  return if a.isComplete then ⟨[spill, a.stopSpill r], none⟩ else ⟨[spill], some a⟩

end Acquisition

end ListMode.Synthetic
