import ListMode.Registry
import ListMode.Session.Basic

/-!
# Assembling a session

The session that a setup describes: its producers are built by the drivers of a registry.
-/

namespace ListMode.Session

/-- The session of a setup, or the first reason why there is none. -/
def ofSetup (setup : Setup) (drivers : Registry) (clock : Nat → Instant)
    (entropy : Nat → Random.Source) : Except Fault Session :=
  match setup.fault? with
  | some fault => .error fault
  | none =>
    match drivers.createAll setup.producers with
    | .error fault => .error fault
    | .ok producers =>
      .ok (.new setup.schedule.toTiming setup.detectors producers clock entropy)

end ListMode.Session
