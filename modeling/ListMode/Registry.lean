import ListMode.Producer
import ListMode.Setup

/-!
# Drivers and their registry

A driver builds producers of one type from what a setup says about them. A registry holds one driver
for each type. All enabled producers of a setup are built in its order, and no two of them may read
one channel, since the merge keeps one lane for each channel.
-/

namespace ListMode

/-- A way to build producers of one type. -/
structure Driver where
  type : String
  name : String
  /-- Why the configuration cannot be used, if it cannot. -/
  fault? : Tree → Option String
  /-- A producer with the given identifier and configuration, or why there is none. -/
  build : String → Tree → Except String Producer

/-- Drivers by their type. -/
abbrev Registry := KeyMap String Driver

namespace Driver

/-- The driver of synthetic digitizers. -/
def synthetic : Driver where
  type := "mock"
  name := "Synthetic List-Mode Source"
  fault? config :=
    match Synthetic.Config.ofTree? config with
    | none => some "malformed configuration"
    | some c => c.fault?
  build id config :=
    match Synthetic.Config.ofTree? config with
    | none => .error "malformed configuration"
    | some c => .ok (.synthetic id c)

end Driver

namespace Registry

def empty : Registry := ∅

/-- Add a driver, in the place of one with the same type. -/
def register (r : Registry) (d : Driver) : Registry := r.insert d.type d

/-- The drivers that are always there. -/
def builtin : Registry := register empty .synthetic

/-- Whether there is a driver for a type. -/
def has (r : Registry) (type : String) : Bool := (r.get? type).isSome

/-- Types and names of all drivers, in the order of the types. -/
def types (r : Registry) : List (String × String) := r.values.map fun d => (d.type, d.name)

/-- Build one producer. -/
def create (r : Registry) (d : Setup.Definition) : Except Fault Producer :=
  match r.get? d.type with
  | none => .error (.unknownDriver d.type)
  | some driver =>
    match driver.fault? d.config with
    | some reason => .error (.driver d.type s!"{d.id}: {reason}")
    | none =>
      match driver.build d.id d.config with
      | .ok p => .ok p
      | .error reason => .error (.driver d.type s!"{d.id}: {reason}")

/-- Build the producers of all definitions, up to the first that fails. -/
def createEach (r : Registry) : List Setup.Definition → Except Fault (List Producer)
  | [] => .ok []
  | d :: rest =>
    match r.create d with
    | .error fault => .error fault
    | .ok p =>
      match createEach r rest with
      | .error fault => .error fault
      | .ok ps => .ok (p :: ps)

/-- A channel that two producers read, with both identifiers, the earlier first. -/
structure Clash where
  channel : Channel
  owner : String
  other : String
  deriving DecidableEq, Repr

/-- The first channel in the list that has an owner. -/
def clashIn? (owners : KeyMap Channel String) : List (Channel × String) → Option Clash
  | [] => none
  | (channel, id) :: rest =>
    match owners.get? channel with
    | some owner => some ⟨channel, owner, id⟩
    | none => clashIn? (owners.insert channel id) rest

/-- The first channel that is read twice. -/
def clash? (ps : List Producer) : Option Clash :=
  clashIn? ∅ (ps.flatMap fun p => p.channels.map (·, p.id))

def Clash.fault (c : Clash) : Fault :=
  let channel := c.channel.toInt
  .invalidConfig s!"channel {channel} is read by both '{c.owner}' and '{c.other}'"

/-- Build all enabled producers. -/
def createAll (r : Registry) (ds : List Setup.Definition) : Except Fault (List Producer) :=
  match r.createEach (ds.filter (·.enabled)) with
  | .error fault => .error fault
  | .ok ps =>
    match clash? ps with
    | some c => .error c.fault
    | none => .ok ps

end Registry

end ListMode
