import ListMode.Fault
import ListMode.Log
import ListMode.Spill
import ListMode.Timing
import ListMode.Tree.Form
import ListMode.Tree.Toml.Value

/-!
# Setups

What a configuration says: the application, the timing of the session, the detectors, and the
producers with the drivers that are to build them. A setup may be read and still contradict itself;
`Setup.fault?` gives the first contradiction.
-/

namespace ListMode

namespace Setup

/-- What a setup says about the application. -/
structure Application where
  name : String
  logLevel : String

/-- Timing of the session, and after how many seconds a run ends. -/
structure Schedule extends Timing where
  timeout : Option Nat

/-- A producer that is to be built. -/
structure Definition where
  id : String
  /-- The type of its driver. -/
  type : String
  enabled : Bool
  /-- What its driver is told. -/
  config : Tree

end Setup

/-- What a configuration says. -/
structure Setup where
  application : Setup.Application
  schedule : Setup.Schedule
  detectors : List Detector
  producers : List Setup.Definition

namespace Setup

/-! ## Reading -/

namespace Application

def ofTree? (t : Tree) : Option Application := do
  let p ← Tree.Parts.ofTree? 2 t
  return {
    name := ← p.required 0 "name" Tree.toStr?
    logLevel := ← p.orDefault 1 "log_level" "info" Tree.toStr? }

end Application

namespace Schedule

/-- A second between two questions, a twentieth between two looks, and no end of the run. -/
def default : Schedule := ⟨⟨1000, 50⟩, none⟩

def ofTree? (t : Tree) : Option Schedule := do
  let p ← Tree.Parts.ofTree? 3 t
  return {
    poll := ← p.orDefault 0 "poll_interval_ms" default.poll (Tree.toNat? 64)
    drain := ← p.orDefault 1 "drain_interval_ms" default.drain (Tree.toNat? 64)
    timeout := ← p.orDefault 2 "timeout_secs" default.timeout (Tree.toOptionOf? (Tree.toNat? 64)) }

end Schedule

namespace Definition

def ofTree? (t : Tree) : Option Definition := do
  let p ← Tree.Parts.ofTree? 4 t
  return {
    id := ← p.required 0 "id" Tree.toStr?
    type := ← p.required 1 "type" Tree.toStr?
    enabled := ← p.orDefault 2 "enabled" true Tree.toBool?
    config := ← p.orDefault 3 "config" (.obj []) Tree.Toml.value? }

end Definition

def ofTree? (t : Tree) : Option Setup := do
  let p ← Tree.Parts.ofTree? 4 t
  return {
    application := ← p.required 0 "application" Application.ofTree?
    schedule := ← p.orDefault 1 "session" .default Schedule.ofTree?
    detectors := ← p.orDefault 2 "detectors" [] (Tree.toListOf? Detector.ofTree?)
    producers := ← p.orDefault 3 "producers" [] (Tree.toListOf? Definition.ofTree?) }

/-! ## Contradictions -/

/-- The first text that occurs again in the list, given those that occurred before. -/
def repeated? (before : List String) : List String → Option String
  | [] => none
  | s :: rest => if s ∈ before then some s else repeated? (s :: before) rest

/-- The first contradiction in a setup: an unknown log level, an interval of zero, or two producers
with one identifier, enabled or not. -/
def fault? (s : Setup) : Option Fault :=
  let level := s.application.logLevel
  if (Log.Level.ofName? level).isNone then
    some (.invalidConfig
      s!"Invalid log_level '{level}'. Must be one of: trace, debug, info, warn, error")
  else if s.schedule.poll = 0 ∨ s.schedule.drain = 0 then
    some (.invalidConfig "Session poll and drain intervals must be non-zero")
  else
    (repeated? [] (s.producers.map (·.id))).map fun id =>
      .invalidConfig s!"Duplicate producer ID: {id}"

/-! ## Views -/

def enabled (s : Setup) : List Definition := s.producers.filter (·.enabled)

def logLevel (s : Setup) : Except Fault Log.Level := Log.Level.ofText s.application.logLevel

end Setup

end ListMode
