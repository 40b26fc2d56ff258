/-!
# Spans of work

A span is a stretch of the program's work with a name, the part of the program that does it, and named texts. Spans lie within each
other, and events happen within them.
-/

namespace DispatchTree

/-- A stretch of work. -/
inductive Span where
  /-- The execution of a command of a name. -/
  | command (name : String)
  /-- The loading of a machine from a file. -/
  | loading (path : String)
  /-- The compilation of a machine. -/
  | planning (initial : String)
  /-- The completion of a machine's table. -/
  | completion (initial : String)
  /-- The numbering of a table's actions. -/
  | numbering
  /-- The construction of a graph. -/
  | construction (initial : String)
  /-- The writing of a tree. -/
  | writing (root : String)
  deriving DecidableEq, Repr

namespace Span

/-- The name of a span. -/
def name : Span → String
  | .command _ => "command"
  | .loading _ => "load"
  | .planning _ => "plan"
  | .completion _ => "complete"
  | .numbering => "from_table"
  | .construction _ => "build"
  | .writing _ => "materialize"

/-- The part of the program that does the work. -/
def target : Span → String
  | .command _ => "tapelink::cli::route"
  | .loading _ => "tapelink::machine"
  | .planning _ => "tapelink::compile"
  | .completion _ => "tapelink::compile::complete"
  | .numbering => "tapelink::compile::canon"
  | .construction _ => "tapelink::compile::graph"
  | .writing _ => "tapelink::compile::materialize"

/-- The named texts of a span. -/
def values : Span → List (String × String)
  | .command name => [("name", name)]
  | .loading path => [("path", path)]
  | .planning initial | .completion initial | .construction initial => [("initial", initial)]
  | .numbering => []
  | .writing root => [("root", root)]

/-- Whether the texts of a span are written between quotes. -/
def isQuoted : Span → Bool
  | .command _ | .construction _ => true
  | _ => false

end Span

end DispatchTree
