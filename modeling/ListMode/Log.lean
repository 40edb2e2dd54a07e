import ListMode.Fault
import ListMode.Text.Digits
import ListMode.Text.Lower

/-!
# Options of the log

How much is logged and in which form. A level is chosen by its name in any letter case or by its
rank, a form by its name in any letter case.
-/

namespace ListMode.Log

/-- How much is logged. Each level includes those before it. -/
inductive Level where
  | error
  | warn
  | info
  | debug
  | trace
  deriving DecidableEq, Repr, Inhabited

namespace Level

def all : List Level := [error, warn, info, debug, trace]

def name : Level → String
  | error => "error"
  | warn => "warn"
  | info => "info"
  | debug => "debug"
  | trace => "trace"

/-- The level with a rank, counted from one. -/
def ofRank? : Nat → Option Level
  | 0 => none
  | n + 1 => all[n]?

/-- The level with a name. Only letters without marks have two cases here. -/
def ofName? (s : String) : Option Level := all.find? fun l => l.name = s.toLower

/-- The level that a text chooses, by rank or by name. -/
def read? (s : String) : Option Level :=
  ((Text.readPlusNat? 10 s.toList).bind ofRank?).or (ofName? s)

/-- The level that a text chooses, or the fault that it chooses none. -/
def ofText (s : String) : Except Fault Level :=
  match read? s with
  | some l => .ok l
  | none =>
    .error (.invalidConfig
      s!"Invalid log level '{s}'. Must be one of: trace, debug, info, warn, error")

end Level

/-- The form of the log. -/
inductive Format where
  /-- Several coloured lines for each entry. -/
  | pretty
  /-- One line for each entry. -/
  | compact
  /-- One JSON object for each entry. -/
  | json
  deriving DecidableEq, Repr, Inhabited

namespace Format

/-- The form that a text names. -/
def ofText (s : String) : Except Fault Format :=
  match Text.lower s with
  | "pretty" => .ok pretty
  | "compact" => .ok compact
  | "json" => .ok json
  | other =>
    .error (.invalidConfig s!"Invalid log format '{other}'. Must be one of: pretty, compact, json")

end Format

/-- Everything that can be chosen about the log. -/
structure Options where
  level : Level
  format : Format := .compact
  /-- Note when an activity ends, and how long it took. -/
  spanEvents : Bool := false
  /-- Name the place in the program. -/
  fileAndLine : Bool := false
  threadNames : Bool := true
  /-- Use colours. -/
  ansi : Bool := true
  deriving DecidableEq, Repr

end ListMode.Log
