import ListMode.Spill

/-!
# Sinks

Where merged spills go. The archive keeps every spill, the tally counts hits per channel; a sink is
one of each, and both are told everything. The calls by which they are told are kept in order.
-/

namespace ListMode

/-- Keeps the spills it receives, and counts how often it was flushed and closed. -/
structure Archive where
  spills : List Spill
  flushes : Nat
  closes : Nat

namespace Archive

def empty : Archive := ⟨[], 0, 0⟩

def add (a : Archive) (s : Spill) : Archive := { a with spills := a.spills ++ [s] }

def hits (a : Archive) : List Hit := a.spills.flatMap Spill.hits

def take (a : Archive) : List Spill × Archive := (a.spills, { a with spills := [] })

end Archive

/-- Counts spills, and hits per channel. -/
structure Tally where
  counts : KeyMap Channel Nat
  spills : Nat
  deriving Repr

namespace Tally

def empty : Tally := ⟨∅, 0⟩

def countHit (counts : KeyMap Channel Nat) (h : Hit) : KeyMap Channel Nat :=
  counts.alter h.channel fun n => n.getD 0 + 1

def add (t : Tally) (s : Spill) : Tally :=
  { counts := s.hits.foldl countHit t.counts, spills := t.spills + 1 }

def total (t : Tally) : Nat := t.counts.values.foldr (· + ·) 0

end Tally

/-- What a sink is told. -/
inductive Sink.Call where
  | add (s : Spill)
  | flush
  | close

/-- An archive and a tally that receive the same. `calls` is what they were told, oldest first. -/
structure Sink where
  archive : Archive
  tally : Tally
  calls : List Sink.Call

namespace Sink

def empty : Sink := ⟨.empty, .empty, []⟩

instance : Inhabited Sink := ⟨empty⟩

def add (k : Sink) (s : Spill) : Sink :=
  ⟨k.archive.add s, k.tally.add s, k.calls ++ [.add s]⟩

/-- The last spill has been added. -/
def flush (k : Sink) : Sink :=
  { k with archive.flushes := k.archive.flushes + 1, calls := k.calls ++ [.flush] }

/-- The acquisition is over. -/
def close (k : Sink) : Sink :=
  { k with archive.closes := k.archive.closes + 1, calls := k.calls ++ [.close] }

end Sink

end ListMode
