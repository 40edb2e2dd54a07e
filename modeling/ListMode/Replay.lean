import ListMode.Readout

/-!
# Replay of a recording

A replay hands over recorded spills one by one, each under the name of the replaying producer. It
waits when the recording is exhausted, and when it is asked to stop it reports every channel that
occurred so far as stopped.
-/

namespace ListMode.Replay

/-- Channels that occur in `spills`, ascending. -/
def channels (spills : List Spill) : List Channel :=
  (KeyMap.ofList ((spills.flatMap Spill.channels).map (·, ()))).keys

/-- State of a replay. -/
structure Acquisition where
  id : String
  interval : Nat
  replayed : List Spill
  pending : List Spill

namespace Acquisition

def start (id : String) (interval : Nat) (recording : List Spill) : Acquisition :=
  ⟨id, interval, [], recording⟩

/-- Milliseconds from the start of the replay to the next spill, if there is one. -/
def due? (a : Acquisition) : Option Nat :=
  if a.pending.isEmpty then none else some ((a.replayed.length + 1) * a.interval)

/-- Hand over the next spill. -/
def tick (a : Acquisition) : Readout Acquisition :=
  match a.pending with
  | [] => ⟨[], some a⟩
  | spill :: pending =>
    ⟨[{ spill with source := some a.id }],
      some { a with replayed := a.replayed ++ [spill], pending }⟩

/-- The last spill: no hits, and every channel that occurred stopped. -/
def stopSpill (a : Acquisition) (r : Reading) : Spill :=
  (channels a.replayed).foldl
    (fun s channel =>
      s.withStats ((Snapshot.new 0.0 channel .stop r.now).withSpillNumber a.replayed.length))
    (.events a.id [])

end Acquisition

end ListMode.Replay
