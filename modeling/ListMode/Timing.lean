/-!
# Timing of a session
-/

namespace ListMode

/-- Intervals of a session in milliseconds. -/
structure Timing where
  /-- Between two questions whether the producers have finished. -/
  poll : Nat
  /-- Between two looks whether the queue is empty. -/
  drain : Nat
  deriving DecidableEq, Repr, Inhabited

end ListMode
