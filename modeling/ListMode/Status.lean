import ListMode.BitNames

/-!
# Producer status

What a producer is and can do at the moment, as a set of flags. Capabilities stack, so a booted
producer that can run may offer more besides, and the status of a whole setup is the union of its
producers'.
-/

namespace ListMode

/-- Flags of a producer's life cycle and capabilities. -/
structure Status where
  bits : UInt8
  deriving DecidableEq, Repr, Inhabited

namespace Status

def names : BitNames :=
  ⟨[("LOADED", 1), ("CAN_BOOT", 2), ("BOOTED", 4), ("CAN_RUN", 8), ("CAN_OSCILLOSCOPE", 16),
    ("CAN_EXECUTE", 32)]⟩

def empty : Status := ⟨0⟩
def loaded : Status := ⟨1⟩
def bootable : Status := ⟨2⟩
def online : Status := ⟨4⟩
def runnable : Status := ⟨8⟩
def oscilloscope : Status := ⟨16⟩

def union (a b : Status) : Status := ⟨a.bits ||| b.bits⟩

def unionAll (l : List Status) : Status := l.foldl union empty

def initial : Status := loaded.union bootable

/-- A producer after a successful boot. -/
def booted : Status := (loaded.union online).union runnable

def canRun (s : Status) : Bool := Bits.contains s.bits runnable.bits

def isBooted (s : Status) : Bool := Bits.contains s.bits online.bits

/-- Names of the flags, or `(none)`. -/
def display (s : Status) : String := if s.bits = 0 then "(none)" else names.text s.bits

end Status

end ListMode
