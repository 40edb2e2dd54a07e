import ListMode.Log
import ListMode.Text.Blank

/-!
# Arguments of the command line

What the words of a command line ask for: a run, the list of drivers, or help. The words are taken
from the front, so that of a mistake and a question for help the one that comes first counts.
-/

namespace ListMode.CommandLine

/-- What help can be asked about. -/
inductive Topic where
  | everything
  | run
  | drivers
  | help
  deriving DecidableEq, Repr

/-- How a run is to be made. -/
structure RunOptions where
  config : Option String
  /-- Length of the run in seconds. -/
  timeout : Option Nat
  format : Option Log.Format
  deriving DecidableEq, Repr

/-- What a command line asks for. -/
inductive Request where
  | run (options : RunOptions)
  | drivers
  | help (topic : Topic)
  /-- The words make no sense. -/
  | mistake
  deriving DecidableEq, Repr

/-! ## Options of a run -/

/-- An option that takes a value. -/
inductive Setting where
  | config
  | timeout
  | logFormat
  deriving DecidableEq, Repr

namespace Setting

def name : Setting → String
  | config => "--config"
  | timeout => "--timeout"
  | logFormat => "--log-format"

def all : List Setting := [config, timeout, logFormat]

/-- The option that a word names, and the value that it carries behind an equals sign. -/
def ofWord? (word : String) : Option (Setting × Option String) :=
  all.findSome? fun o =>
    if word = o.name then some (o, none)
    else (Text.strip? (o.name.toList ++ ['=']) word.toList).map fun v => (o, some (String.ofList v))

end Setting

/-- Whether a word begins an option, so that it cannot be the value of the one before. -/
def isOption (word : String) : Bool := word.startsWith "-" && word != "-"

/-- Whether a word asks for help. Letters joined to the short form are not looked at, since help is
given at once. -/
def isHelp (word : String) : Bool := word = "--help" || word.startsWith "-h"

/-- Set an option. `none` if it has been set before or the value is not one of its values. -/
def RunOptions.set? (o : RunOptions) (option : Setting) (value : String) : Option RunOptions :=
  match option with
  | .config => if o.config.isSome || value.isEmpty then none else some { o with config := some value }
  | .timeout =>
    if o.timeout.isSome then none
    else
      ((Text.readPlusNat? 10 value.toList).filter (· < 0x10000000000000000)).map fun n =>
        { o with timeout := some n }
  | .logFormat =>
    if o.format.isSome then none
    else
      match Log.Format.ofText value with
      | .ok f => some { o with format := some f }
      | .error _ => none

def readRun (o : RunOptions) : List String → Request
  | [] => .run o
  | word :: rest =>
    if word = "--" then if rest.isEmpty then .run o else .mistake
    else if isHelp word then .help .run
    else
      match Setting.ofWord? word with
      | none => .mistake
      | some (option, some value) =>
        match o.set? option value with
        | some o => readRun o rest
        | none => .mistake
      | some (option, none) =>
        match rest with
        | [] => .mistake
        | value :: rest =>
          if isOption value then .mistake
          else
            match o.set? option value with
            | some o => readRun o rest
            | none => .mistake

/-! ## All requests -/

def readDrivers : List String → Request
  | [] | ["--"] => .drivers
  | word :: _ => if isHelp word then .help .drivers else .mistake

def readHelp : List String → Request
  | [] => .help .everything
  | ["run"] => .help .run
  | ["drivers"] => .help .drivers
  | ["help"] => .help .help
  | _ => .mistake

def Request.ofWords : List String → Request
  | "run" :: rest => readRun ⟨none, none, none⟩ rest
  | "drivers" :: rest => readDrivers rest
  | "help" :: rest => readHelp rest
  | word :: _ => if isHelp word then .help .everything else .mistake
  | [] => .mistake

end ListMode.CommandLine
