import DispatchTree.Settings.Layer

/-!
# The environment

Variables hold texts, and stand in the order in which they were first set. Those whose names begin in a certain way are settings:
the rest of the name leads to the setting, and the text is taken for the simplest value that it denotes. Of variables with one key
the last counts.
-/

namespace DispatchTree

/-- The variables of an environment with their texts. -/
structure Environment where
  entries : List (String × String)
  deriving DecidableEq, Repr

namespace Environment

/-- The text of a variable. -/
def get? (env : Environment) (name : String) : Option String := env.entries.lookup name

/-- The environment with a variable set: where it stands, or at the end. -/
def set (env : Environment) (name text : String) : Environment :=
  if env.entries.any (·.1 == name) then ⟨env.entries.map fun v => if v.1 == name then (name, text) else v⟩
  else ⟨env.entries ++ [(name, text)]⟩

/-- The environment without a variable. -/
def unset (env : Environment) (name : String) : Environment := ⟨env.entries.filter (·.1 != name)⟩

/-- How the names of variables that hold settings begin. -/
def variableStart : String := "tapelink__"

/-- The key that the rest of a variable's name stands for: where a key has a point, the name has two underscores. -/
def keyOf : List Char → List Char
  | [] => []
  | '_' :: '_' :: cs => '.' :: keyOf cs
  | c :: cs => c :: keyOf cs

/-- The value that the text of a variable denotes: a truth value, a whole number, another number, or the text itself. -/
def variableValue (s : String) : Document :=
  let w := Text.lower s
  if w = "true" then .boolean true
  else if w = "false" then .boolean false
  else
    match int64OfText? s with
    | some n => .integer n
    | none =>
      match Binary64.ofText? s with
      | some x => .float x
      | none => .string s

/-- The key that a variable sets, if its name begins as it should. -/
def variableKey? (name : String) : Option String :=
  let name := Text.lower name
  if name.startsWith variableStart then some (String.ofList (keyOf (name.toList.drop variableStart.length))) else none

/-- The settings in the environment. -/
def source (env : Environment) : Settings.Source :=
  Settings.latest (env.entries.filterMap fun (name, text) => (variableKey? name).map (·, variableValue text))

end Environment

end DispatchTree
