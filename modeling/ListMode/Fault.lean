/-!
# Faults

What can go wrong, by cause. `Fault.message` holds the wording, and `Fault.isRecoverable` tells
whether the caller may try again without changing anything else.
-/

namespace ListMode

/-- A cause of failure. -/
inductive Fault where
  /-- The configuration could not be read. -/
  | unreadableConfig (reason : String)
  /-- The configuration was read and contradicts itself. -/
  | invalidConfig (reason : String)
  | inputOutput (reason : String)
  | boot (producer reason : String)
  | noProducerBooted
  | noRunnableProducer
  | noProducerStarted
  /-- A run is in progress. -/
  | sessionBusy
  | unknownDriver (type : String)
  | driver (type reason : String)
  | decode (reason : String)
  | settings (reason : String)
  /-- A task ended abnormally. -/
  | taskLost (reason : String)
  deriving DecidableEq, Repr, Inhabited

namespace Fault

def message : Fault → String
  | unreadableConfig reason => s!"Configuration error: {reason}"
  | invalidConfig reason => s!"Configuration validation error: {reason}"
  | inputOutput reason => s!"I/O error: {reason}"
  | boot producer reason => s!"Producer '{producer}' failed to boot: {reason}"
  | noProducerBooted => "No producer booted"
  | noRunnableProducer => "No producer is ready to run"
  | noProducerStarted => "No producer accepted the start request"
  | sessionBusy => "Session already running"
  | unknownDriver type => s!"Unknown driver type '{type}'"
  | driver type reason => s!"Driver '{type}' error: {reason}"
  | decode reason => s!"Decode error: {reason}"
  | settings reason => s!"Settings error: {reason}"
  | taskLost reason => s!"Task join error: {reason}"

/-- Whether trying again may help. -/
def isRecoverable : Fault → Bool
  | boot .. | decode _ | settings _ | sessionBusy => true
  | _ => false

end Fault

end ListMode
