import ListMode.Environment
import ListMode.Setup
import ListMode.Tree.Toml.Document

/-!
# Loading a setup

A setup comes from a configuration text and from the environment, which is laid over it.
-/

namespace ListMode.Setup

/-- The setup that a configuration text describes, with what the environment says laid over it.
Without a text the environment has to say everything. -/
def load (text : Option String) (environment : List Environment.Variable) : Except Fault Setup :=
  match Tree.Toml.read? (text.getD "") with
  | none => .error (.unreadableConfig "malformed configuration text")
  | some base =>
    match ofTree? (base.overlay (Environment.tree environment)) with
    | none => .error (.unreadableConfig "fields are missing or malformed")
    | some setup => .ok setup

end ListMode.Setup
