import ListMode.BitNames

/-!
# Hits

One detection on one channel. Hits are ordered by time stamp and, among simultaneous ones, by
channel; that pair is the key by which lanes are merged. Energy and flags only break ties of the
total order.
-/

namespace ListMode

/-- Readout channel of a digitizer. -/
abbrev Channel := Int16

/-- Qualifier bits of a hit. All eight bits are kept; four of them have names. -/
structure HitFlags where
  bits : UInt8
  deriving DecidableEq, Repr, Inhabited

namespace HitFlags

def names : BitNames :=
  ⟨[("PILEUP", 1), ("OVERFLOW", 2), ("RETRIGGER", 4), ("VETO", 8)]⟩

def empty : HitFlags := ⟨0⟩

/-- The pulse overlapped another one. -/
def pileup : HitFlags := ⟨1⟩

end HitFlags

/-- A time-stamped detection. Time stamps count ticks of the device clock. -/
structure Hit where
  channel : Channel
  timestamp : UInt64
  energy : UInt16
  flags : HitFlags
  deriving DecidableEq, Repr, Inhabited

/-- Place of a hit in the merged stream: time stamp first, channel among simultaneous hits. -/
structure Hit.Key where
  timestamp : UInt64
  channel : Channel
  deriving DecidableEq, Repr, Inhabited

instance : Ord Hit.Key where
  compare a b := (compare a.timestamp b.timestamp).then (compare a.channel b.channel)

namespace Hit

def key (h : Hit) : Hit.Key := ⟨h.timestamp, h.channel⟩

instance : Ord Hit where
  compare a b :=
    ((compare a.key b.key).then (compare a.energy b.energy)).then
      (compare a.flags.bits b.flags.bits)

/-- Short form for people: channel, time stamp and energy. -/
def display (h : Hit) : String :=
  s!"ch{h.channel.toInt}@{h.timestamp.toNat} E={h.energy.toNat}"

def sort (hits : List Hit) : List Hit := hits.mergeSort fun a b => (compare a b).isLE

/-- Hits sorted by key; hits with one key stay in their order. -/
def sortByKey (hits : List Hit) : List Hit :=
  hits.mergeSort fun a b => (compare a.key b.key).isLE

def onChannel (c : Channel) (hits : List Hit) : List Hit := hits.filter (·.channel = c)

end Hit

end ListMode
