import ListMode.Spill

/-!
# Readouts

What an acquisition sees of the outside world when it is read out, and what the readout leads to.
-/

namespace ListMode

/-- The outside world at a readout: seconds since the acquisition began, and the time of day. -/
structure Reading where
  elapsed : Float
  now : Instant

/-- What a readout leads to: spills to hand over in order, and the acquisition as it goes on.
`next = none` if it is over. -/
structure Readout (σ : Type) where
  spills : List Spill
  next : Option σ

end ListMode
