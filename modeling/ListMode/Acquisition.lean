import ListMode.Polling
import ListMode.Replay
import ListMode.Synthetic.Acquisition

/-!
# Acquisitions

What a polling task works on: a synthetic acquisition or a replay, the queue that receives its
spills, and the time at which it began.
-/

namespace ListMode

/-- The device side of an acquisition. -/
inductive Acquisition.Work where
  | synthetic (a : Synthetic.Acquisition)
  | replay (a : Replay.Acquisition)

/-- An acquisition in progress. `since` is the session time, in milliseconds, at which it began. -/
structure Acquisition where
  queue : Nat
  since : Nat
  work : Acquisition.Work

namespace Acquisition

/-- Session time of the next readout, if one is planned. -/
def due? (a : Acquisition) : Option Nat :=
  match a.work with
  | .synthetic w => some (a.since + w.due)
  | .replay w => w.due?.map (a.since + ·)

/-- Seconds since the acquisition began, at session time `time`. -/
def elapsed (a : Acquisition) (time : Nat) : Float := (time - a.since).toFloat / 1000.0

/-- What the acquisition sees at session time `time`, when the time of day is `now`. -/
def reading (a : Acquisition) (time : Nat) (now : Instant) : Reading := ⟨a.elapsed time, now⟩

/-- Read out once. `none` if the acquisition crashes. -/
def tick? (a : Acquisition) (r : Reading) : Option (Readout Acquisition) :=
  match a.work with
  | .synthetic w =>
    (w.tick? r).map fun o => ⟨o.spills, o.next.map fun w => { a with work := .synthetic w }⟩
  | .replay w =>
    let o := w.tick
    some ⟨o.spills, o.next.map fun w => { a with work := .replay w }⟩

/-- The last spill, handed over when the acquisition is asked to stop. -/
def stopSpill (a : Acquisition) (r : Reading) : Spill :=
  match a.work with
  | .synthetic w => w.stopSpill r
  | .replay w => w.stopSpill r

end Acquisition

end ListMode
