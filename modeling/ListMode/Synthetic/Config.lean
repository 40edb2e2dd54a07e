import ListMode.Decimal.Shortest
import ListMode.Hit
import ListMode.Tree.Parts

/-!
# Configuration of a synthetic digitizer

The settings of a simulated multi-channel digitizer. Every field has a default. A configuration is
usable if it names at least one channel and none twice, has a positive finite rate, and reads out at
a positive interval.
-/

namespace ListMode.Synthetic

/-- Settings of a synthetic digitizer. -/
structure Config where
  channels : List Channel
  /-- Mean rate per channel in events per second. -/
  rate : Float
  /-- Milliseconds between two readouts. -/
  interval : Nat
  energyMax : UInt16
  /-- Seed of the draws; without one every acquisition differs. -/
  seed : Option UInt64
  /-- Readouts after which an acquisition ends by itself. -/
  maxSpills : Option Nat
  /-- Deliver device-native buffers in the place of hits. -/
  rawOutput : Bool
  /-- Simulate a device that does not respond. -/
  failBoot : Bool
  oscilloscope : Bool

namespace Config

def default : Config where
  channels := [0, 1]
  rate := 1000.0
  interval := 100
  energyMax := 16383
  seed := none
  maxSpills := none
  rawOutput := false
  failBoot := false
  oscilloscope := false

instance : Inhabited Config := ⟨default⟩

/-- The first reason why the configuration cannot be used. -/
def fault? (c : Config) : Option String :=
  if c.channels.isEmpty then some "at least one channel is required"
  else if ¬c.channels.Nodup then some "channels must be unique"
  else if !c.rate.isFinite || c.rate ≤ 0.0 then
    some s!"event_rate_hz must be positive and finite, got {Decimal.text c.rate}"
  else if c.interval = 0 then some "spill_interval_ms must be non-zero"
  else none

/-- A configuration that can be used. -/
structure Usable (c : Config) : Prop where
  channels_ne_nil : c.channels ≠ []
  nodup : c.channels.Nodup
  finite : c.rate.isFinite = true
  positive : ¬c.rate ≤ 0.0
  interval_ne_zero : c.interval ≠ 0

theorem fault?_eq_none_iff (c : Config) : c.fault? = none ↔ c.Usable := by
  constructor
  · intro h
    unfold fault? at h
    split at h
    · cases h
    rename_i h1
    split at h
    · cases h
    rename_i h2
    split at h
    · cases h
    rename_i h3
    split at h
    · cases h
    rename_i h4
    simp only [Bool.or_eq_true, Bool.not_eq_true', decide_eq_true_eq, not_or,
      Bool.not_eq_false] at h3
    exact ⟨by simpa using h1, by simpa using h2, h3.1, h3.2, h4⟩
  · rintro ⟨h1, h2, h3, h4, h5⟩
    have h1 : c.channels.isEmpty = false := by simpa using h1
    simp [fault?, h1, h2, h3, h4, h5]

/-- The configuration as a tree. A rate that is not finite has no written form. -/
def toTree (c : Config) : Tree :=
  .object [("channels", .arr (c.channels.map fun ch => .int ch.toInt)),
    ("event_rate_hz", Tree.ofFloat c.rate),
    ("spill_interval_ms", .int c.interval),
    ("energy_max", .int c.energyMax.toNat),
    ("seed", Tree.ofOption (fun n => .int n.toNat) c.seed),
    ("max_spills", Tree.ofOption (fun n => .int n) c.maxSpills),
    ("raw_output", .bool c.rawOutput),
    ("fail_boot", .bool c.failBoot),
    ("oscilloscope", .bool c.oscilloscope)]

def ofTree? (t : Tree) : Option Config := do
  let p ← Tree.Parts.ofTree? 9 t
  return {
    channels := ← p.orDefault 0 "channels" default.channels (Tree.toListOf? Tree.toInt16?)
    rate := ← p.orDefault 1 "event_rate_hz" default.rate Tree.toFloat?
    interval := ← p.orDefault 2 "spill_interval_ms" default.interval (Tree.toNat? 64)
    energyMax := ← p.orDefault 3 "energy_max" default.energyMax Tree.toUInt16?
    seed := ← p.orDefault 4 "seed" none (Tree.toOptionOf? Tree.toUInt64?)
    maxSpills := ← p.orDefault 5 "max_spills" none (Tree.toOptionOf? (Tree.toNat? 64))
    rawOutput := ← p.orDefault 6 "raw_output" false Tree.toBool?
    failBoot := ← p.orDefault 7 "fail_boot" false Tree.toBool?
    oscilloscope := ← p.orDefault 8 "oscilloscope" false Tree.toBool? }

end Config

end ListMode.Synthetic
