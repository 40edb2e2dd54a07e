import Std.Time.DateTime.Timestamp
import ListMode.CommandLine
import ListMode.Session.Clock

/-!
# The program

The outer layer of the command line: it reads the environment and the configuration file, lets real
time pass while a run goes on, and prints what the command line has to say.
-/

namespace ListMode.Main

/-- Variables of the environment. Those that are no text are left out. -/
def readEnvironment : IO (List Environment.Variable) := do
  let bytes ← try IO.FS.readBinFile "/proc/self/environ" catch _ => pure ByteArray.empty
  let text := (String.fromUTF8? bytes).getD ""
  return (text.splitOn (String.singleton (Char.ofNat 0))).filterMap fun entry =>
    match entry.splitOn "=" with
    | name :: value => some (name, "=".intercalate value)
    | [] => none

/-- The text of a file. A relative path is looked for in the working directory and in those above
it, up to `levels` of them. -/
partial def readFile (path : String) : IO (Option String) := do
  let rec search (levels : Nat) (path : String) : IO (Option String) := do
    try
      return some (← IO.FS.readFile path)
    catch _ =>
      if levels = 0 || path.startsWith "/" then return none
      else search (levels - 1) ("../" ++ path)
  search 64 path

/-- Let real time pass until run `r` is over. -/
partial def follow (r : Nat) (s : Session) : IO Session := do
  let s := s.advanceTo (← IO.monoMsNow)
  if (s.runs[r]?).any Run.isOver then return s
  match s.nextDue? with
  | none => return s
  | some due =>
    let pause := due - (← IO.monoMsNow)
    IO.sleep (UInt32.ofNat (min pause 1000))
    follow r s

def say (a : CommandLine.Answer) : IO UInt32 := do
  for line in a.lines do
    IO.println line
  if let some complaint := a.complaint then
    IO.eprintln s!"Error: {complaint}"
  return UInt32.ofNat a.code

/-- The number that bytes are the digits of. -/
def natOfBytes (bytes : ByteArray) : Nat := bytes.toList.foldl (fun n b => n * 256 + b.toNat) 0

/-- Do what the command line asks for, and give the exit code. -/
def start (words : List String) : IO UInt32 := do
  let environment ← readEnvironment
  let path := match CommandLine.Request.ofWords words with
    | .run options => options.config.getD CommandLine.defaultConfig
    | _ => CommandLine.defaultConfig
  let text ← readFile path
  let epoch := (← Std.Time.Timestamp.now).toMillisecondsSinceUnixEpoch.toInt
  let began ← IO.monoMsNow
  let seed := natOfBytes (← IO.getRandomBytes 8)
  let world : CommandLine.World := {
    file := fun _ => text
    environment
    clock := fun t => .ofMillis (epoch - began + t)
    entropy := fun n => .ofSeed (UInt64.ofNat (seed + n)) }
  match CommandLine.plan world words with
  | .answer a => say a
  | .run session timeout =>
    let id := RunId.random (BitVec.ofNat 128 (natOfBytes (← IO.getRandomBytes 16)))
    let (r, session) := (session.elapseTo began).call id timeout false
    let session ← follow r session
    let answer := CommandLine.conclude session r
    let _ := session.shutdownAll
    say answer

end ListMode.Main

def main (words : List String) : IO UInt32 := ListMode.Main.start words
