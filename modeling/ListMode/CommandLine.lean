import ListMode.CommandLine.Help
import ListMode.Session.Assembly
import ListMode.Session.Run
import ListMode.Setup.Load

/-!
# The command line

A command line either is answered at once or asks for a run. For a run its setup is loaded, a
session is assembled from it and booted, and whoever called makes the run, since only the outer
layer can let time pass. What the run has come to is then told line by line.
-/

namespace ListMode.CommandLine

/-- What the program says at its end: an exit code, lines for the output, and a complaint. -/
structure Answer where
  code : Nat
  lines : List String
  complaint : Option String
  deriving DecidableEq, Repr

namespace Answer

def good (lines : List String) : Answer := ⟨0, lines, none⟩

def fault (f : Fault) : Answer := ⟨1, [], some f.message⟩

def mistake : Answer := ⟨2, [], some "the command line is malformed; try --help"⟩

/-- The program has ended abnormally. -/
def crash : Answer := ⟨101, [], none⟩

end Answer

/-- What a command line needs from outside: the texts of files, the environment, the time of day by
session time, and draws for devices without seed. -/
structure World where
  file : String → Option String
  environment : List Environment.Variable
  clock : Nat → Instant
  entropy : Nat → Random.Source

/-- What is to be done: answer at once, or run a booted session for so many milliseconds. -/
inductive Plan where
  | answer (a : Answer)
  | run (session : Session) (timeout : Option Nat)

/-! ## Before a run -/

/-- The file that holds the setup if no other is named. -/
def defaultConfig : String := "config/daq.toml"

/-- `s` with blanks behind it, `width` characters at least. -/
def padEnd (width : Nat) (s : String) : String :=
  s ++ String.ofList (List.replicate (width - s.length) ' ')

/-- `s` with blanks before it, `width` characters at least. -/
def padStart (width : Nat) (s : String) : String :=
  String.ofList (List.replicate (width - s.length) ' ') ++ s

def driverLines (r : Registry) : List String :=
  "Available producer drivers:" :: r.types.map fun (type, name) =>
    let type := padEnd 12 type
    s!"  {type} {name}"

/-- The booted session that the options ask for, and the length of its run. -/
def assemble (w : World) (o : RunOptions) : Except Fault (Session × Option Nat) := do
  let setup ← Setup.load (w.file (o.config.getD defaultConfig)) w.environment
  let _ ← setup.logLevel
  let session ← Session.ofSetup setup .builtin w.clock w.entropy
  let (result, session) := session.bootAll
  let _ ← result
  return (session, (o.timeout.or setup.schedule.timeout).map (· * 1000))

def plan (w : World) (words : List String) : Plan :=
  match Request.ofWords words with
  | .mistake => .answer .mistake
  | .help topic => .answer (.good topic.lines)
  | .drivers => .answer (.good (driverLines .builtin))
  | .run options =>
    match assemble w options with
    | .error fault => .answer (.fault fault)
    | .ok (session, timeout) => .run session timeout

/-! ## After a run -/

/-- Milliseconds as seconds with three places. -/
def seconds (ms : Nat) : String :=
  let whole := ms / 1000
  let rest := Text.numeral 10 3 (ms % 1000)
  s!"{whole}.{rest}"

def outcomeLines (o : Outcome) (t : Tally) : List String :=
  let id := o.runId.text
  let reason := o.reason.name
  let started := ", ".intercalate o.started
  let duration := seconds o.elapsed
  [s!"Run {id} finished ({reason})",
    s!"  Producers:  {started}",
    s!"  Duration:   {duration} s",
    s!"  Spills:     {o.report.spillsIn} in, {o.report.spillsOut} out",
    s!"  Events:     {o.report.eventsOut}"] ++
  (if 0 < o.report.decodeErrors then [s!"  Decode errors: {o.report.decodeErrors}"] else []) ++
  t.counts.entries.map fun (channel, n) =>
    let channel := padStart 3 (toString channel.toInt)
    s!"  Channel {channel}: {n} events"

/-- What to say after run `r`. A run that is over and has not returned takes the program with it. -/
def conclude (s : Session) (r : Nat) : Answer :=
  match s.runs[r]? with
  | none => .good []
  | some run =>
    match run.result? with
    | some (.ok outcome) => .good (outcomeLines outcome run.sink.tally)
    | some (.error fault) => .fault fault
    | none => .crash

end ListMode.CommandLine
