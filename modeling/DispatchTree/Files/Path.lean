/-!
# Paths

A path is a text whose parts are divided by slashes. Paths are joined and taken apart as texts; nothing is looked up and nothing is
brought to a normal form, except that empty parts and parts that are a single point do not count when two paths are compared.
-/

namespace DispatchTree.Path

/-- The texts between the slashes of a path. -/
def parts (p : String) : List String := (p.toList.splitOn '/').map String.ofList

/-- Whether a path starts at the root. -/
def isAbsolute (p : String) : Bool := p.startsWith "/"

/-- A path seen from another one: an absolute path stands for itself. -/
def join (base p : String) : String :=
  if isAbsolute p then p
  else if base.isEmpty || base.endsWith "/" then base ++ p
  else base ++ "/" ++ p

/-- A part that does not lead anywhere. -/
def isIdle (part : String) : Bool := part == "" || part == "."

/-- The components of a path: whether it is absolute, and its parts without the idle ones. A point at the start of a relative path
counts. -/
def components (p : String) : Bool × List String :=
  match parts p with
  | "." :: rest => (false, "." :: rest.filter (!isIdle ·))
  | ps => (isAbsolute p, ps.filter (!isIdle ·))

/-- Whether two paths have the same components. -/
def same (p q : String) : Bool := components p == components q

/-- Parts without the idle ones at the end; the first part stays. -/
def trimIdle : List String → List String
  | [] => []
  | first :: rest => first :: (rest.reverse.dropWhile isIdle).reverse

/-- The text of parts. -/
def ofParts (ps : List String) : String :=
  match ps with
  | [""] => "/"
  | ps => "/".intercalate ps

/-- The path without its last component; the root and the empty path have none. -/
def parent? (p : String) : Option String :=
  match trimIdle (parts p) with
  | [] => none
  | [""] => none
  | [_] => some ""
  | ps => some (ofParts (trimIdle ps.dropLast))

/-- The last component, if it is a name. -/
def fileName? (p : String) : Option String :=
  match (components p).2.getLast? with
  | some ".." => none
  | some "." => none
  | name => name

/-- What follows the last point of the file name; a point at the start of the name does not count. -/
def extension? (p : String) : Option String :=
  (fileName? p).bind fun name =>
    match (name.splitToList (· == '.')).reverse with
    | [] => none
    | [_] => none
    | [_, ""] => none
    | ext :: _ => some ext

end DispatchTree.Path
