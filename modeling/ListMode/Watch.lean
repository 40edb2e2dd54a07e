/-!
# Waiting for the end of a run

A run goes on until it is cancelled, its time is up, or every producer that it started has finished
by itself. The producers are asked once per poll interval. When several reasons hold at one look,
being cancelled comes before being out of time, and that before the producers. A wait whose deadline
the clock cannot tell has no reason to end: it crashes at its first look, unless it is cancelled by
then.
-/

namespace ListMode

/-- Why a run stops. -/
inductive StopReason where
  | timeout
  | cancelled
  /-- Every started producer has finished. -/
  | finished
  deriving DecidableEq, Repr, Inhabited

namespace StopReason

def name : StopReason → String
  | timeout => "Timeout"
  | cancelled => "Cancelled"
  | finished => "ProducersFinished"

end StopReason

/-- A wait in progress. Times are session times in milliseconds. -/
structure Watch where
  deadline : Option Nat
  poll : Nat
  nextTick : Nat
  deriving DecidableEq, Repr, Inhabited

namespace Watch

def start (time poll : Nat) (timeout : Option Nat) : Watch :=
  ⟨timeout.map (time + ·), poll, time + poll⟩

/-- The last moment that the clock of a machine can tell: it counts seconds in 63 bits. -/
def lastMoment : Nat := Nat.pow 2 63 * 1000 - 1

/-- The wait cannot go on: there is nothing between its ticks, or its deadline is past the last
moment. The deadline counts only for a run that has not been cancelled. -/
def crashes (w : Watch) (cancelled : Bool) : Bool :=
  w.poll == 0 || !cancelled && w.deadline.any (lastMoment < ·)

/-- The next time at which a look can show something new, unless the run is cancelled. -/
def wake (w : Watch) : Nat :=
  match w.deadline with
  | some deadline => min deadline w.nextTick
  | none => w.nextTick

/-- Look at `time`: a reason to stop, or the wait as it goes on. The producers count only when a
poll tick is due; the next tick is one interval after a tick was seen. -/
def look (w : Watch) (time : Nat) (cancelled anyRunning : Bool) : Except StopReason Watch :=
  if cancelled then .error .cancelled
  else if w.deadline.any (· ≤ time) then .error .timeout
  else if w.nextTick ≤ time then
    if anyRunning then .ok { w with nextTick := time + w.poll } else .error .finished
  else .ok w

end Watch

end ListMode
