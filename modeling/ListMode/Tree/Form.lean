import ListMode.Spill
import ListMode.Tree.Parts

/-!
# Trees of hits, statistics and run metadata

The written forms that other programs exchange. Flags are written by name, instants and run
identifiers as text, kinds of statistics in lower case.
-/

namespace ListMode

namespace HitFlags

def toTree (f : HitFlags) : Tree := .str (names.text f.bits)

def ofTree? (t : Tree) : Option HitFlags := (t.toStr?.bind names.read?).map HitFlags.mk

end HitFlags

namespace Hit

def toTree (h : Hit) : Tree :=
  .object [("channel", .int h.channel.toInt), ("timestamp", .int h.timestamp.toNat),
    ("energy", .int h.energy.toNat), ("flags", h.flags.toTree)]

def ofTree? (t : Tree) : Option Hit := do
  let p ← Tree.Parts.ofTree? 4 t
  return {
    channel := ← p.required 0 "channel" Tree.toInt16?
    timestamp := ← p.required 1 "timestamp" Tree.toUInt64?
    energy := ← p.required 2 "energy" Tree.toUInt16?
    flags := ← p.required 3 "flags" HitFlags.ofTree? }

end Hit

namespace Instant

def ofTree? (t : Tree) : Option Instant := t.toStr?.bind read?

end Instant

namespace Snapshot.Kind

def name : Kind → String
  | start => "start"
  | running => "running"
  | stop => "stop"

def ofName? : String → Option Kind
  | "start" => some start
  | "running" => some running
  | "stop" => some stop
  | _ => none

/-- A kind is its name, or an object with that name and nothing to say about it. -/
def ofTree? : Tree → Option Kind
  | .str s => ofName? s
  | .obj [(s, .null)] => ofName? s
  | _ => none

end Snapshot.Kind

namespace Snapshot

def toTree (s : Snapshot Float) : Tree :=
  .object [("channel", .int s.channel.toInt), ("kind", .str s.kind.name),
    ("lab_time", .str s.labTime.text), ("spill_number", .int s.spillNumber),
    ("counters", Tree.ofMap Tree.ofFloat s.counters), ("event_rate", Tree.ofFloat s.rate)]

def ofTree? (t : Tree) : Option (Snapshot Float) := do
  let p ← Tree.Parts.ofTree? 6 t
  return {
    channel := ← p.required 0 "channel" Tree.toInt16?
    kind := ← p.required 1 "kind" Kind.ofTree?
    labTime := ← p.required 2 "lab_time" Instant.ofTree?
    spillNumber := ← p.required 3 "spill_number" (Tree.toNat? 64)
    counters := ← p.required 4 "counters" (Tree.toMapOf? Tree.toFloat?)
    rate := ← p.required 5 "event_rate" Tree.toFloat? }

end Snapshot

namespace Detector

def toTree (d : Detector) : Tree :=
  .object [("name", .str d.name), ("kind", .str d.kind),
    ("channel", Tree.ofOption (fun c => .int c.toInt) d.channel)]

def ofTree? (t : Tree) : Option Detector := do
  let p ← Tree.Parts.ofTree? 3 t
  return {
    name := ← p.required 0 "name" Tree.toStr?
    kind := ← p.orDefault 1 "kind" "" Tree.toStr?
    channel := ← p.orDefault 2 "channel" none (Tree.toOptionOf? Tree.toInt16?) }

end Detector

namespace RunInfo

def toTree (r : RunInfo) : Tree :=
  .object [("run_id", .str r.id.text), ("time_start", .str r.timeStart.text),
    ("time_stop", Tree.ofOption (fun i => .str i.text) r.timeStop),
    ("total_events", .int r.totalEvents), ("detectors", .arr (r.detectors.map Detector.toTree)),
    ("settings", r.settings)]

def ofTree? (t : Tree) : Option RunInfo := do
  let p ← Tree.Parts.ofTree? 6 t
  return {
    id := ← p.required 0 "run_id" (fun t => t.toStr?.bind RunId.read?)
    timeStart := ← p.required 1 "time_start" Instant.ofTree?
    timeStop := ← p.optional 2 "time_stop" Instant.ofTree?
    totalEvents := ← p.required 3 "total_events" (Tree.toNat? 64)
    detectors := ← p.required 4 "detectors" (Tree.toListOf? Detector.ofTree?)
    settings := ← p.required 5 "settings" some }

end RunInfo

end ListMode
