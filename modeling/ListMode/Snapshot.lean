import ListMode.Hit
import ListMode.Instant
import ListMode.KeyMap

/-!
# Channel statistics

A snapshot describes one channel at one moment: where it stands in the channel's run, named counters
and a momentary rate. Snapshots are added and subtracted counter by counter; a counter missing on
one side counts as zero there. What addition and multiplication of the values are is left open, so
the rules of combination hold for doubles and for exact numbers alike.
-/

namespace ListMode

/-- Place of a snapshot in the run of its channel. After `stop` the channel delivers nothing. -/
inductive Snapshot.Kind where
  | start
  | running
  | stop
  deriving DecidableEq, Repr, Inhabited

/-- Statistics of one channel with values of type `V`. -/
structure Snapshot (V : Type) where
  channel : Channel
  kind : Snapshot.Kind
  labTime : Instant
  spillNumber : Nat
  counters : KeyMap String V
  rate : V
  deriving Repr

/-- The operations by which values are combined. -/
structure Arithmetic (V : Type) where
  zero : V
  one : V
  add : V → V → V
  mul : V → V → V
  neg : V → V

namespace Arithmetic

def float : Arithmetic Float := ⟨0.0, 1.0, (· + ·), (· * ·), (- ·)⟩

def int : Arithmetic Int := ⟨0, 1, (· + ·), (· * ·), (- ·)⟩

end Arithmetic

namespace Snapshot

variable {V : Type}

/-- Triggers seen by the channel. -/
def triggerCount : String := "trigger_count"
/-- Seconds during which the channel could trigger. -/
def liveTime : String := "live_time"
/-- Seconds of acquisition. -/
def realTime : String := "real_time"
/-- Seconds during which the channel could not trigger. -/
def deadTime : String := "dead_time"

def new (zero : V) (channel : Channel) (kind : Kind) (now : Instant) : Snapshot V :=
  { channel, kind, labTime := now, spillNumber := 0, counters := ∅, rate := zero }

def withSpillNumber (s : Snapshot V) (n : Nat) : Snapshot V := { s with spillNumber := n }

def withCounter (s : Snapshot V) (name : String) (value : V) : Snapshot V :=
  { s with counters := s.counters.insert name value }

def withRate (s : Snapshot V) (rate : V) : Snapshot V := { s with rate }

def isStop (s : Snapshot V) : Bool := s.kind == .stop

def counter? (s : Snapshot V) (name : String) : Option V := s.counters.get? name

/-- Add `sign · value` to a counter, which is zero if it is missing. -/
def bump (ops : Arithmetic V) (sign : V) (counters : KeyMap String V) (e : String × V) :
    KeyMap String V :=
  counters.alter e.1 fun old => ops.add (old.getD ops.zero) (ops.mul sign e.2)

/-- `a` with `sign · b` added to its counters and its rate; everything else is that of `a`. -/
def combine (ops : Arithmetic V) (sign : V) (a b : Snapshot V) : Snapshot V :=
  { a with
    counters := b.counters.entries.foldl (bump ops sign) a.counters
    rate := ops.add a.rate (ops.mul sign b.rate) }

def add (ops : Arithmetic V) (a b : Snapshot V) : Snapshot V := combine ops ops.one a b

def sub (ops : Arithmetic V) (a b : Snapshot V) : Snapshot V := combine ops (ops.neg ops.one) a b

/-- Live time over real time, if both are known and time has passed. -/
def liveFraction? (s : Snapshot Float) : Option Float := do
  let live ← s.counter? liveTime
  let real ← s.counter? realTime
  if real > 0.0 then some (live / real) else none

end Snapshot

end ListMode
