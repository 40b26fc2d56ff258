import DispatchTree.Document.Basic
import DispatchTree.Number.Literal
import DispatchTree.Text.Lowercase

/-!
# Layers of settings

Settings come from several sources that are laid over each other. A source names values by paths; a table laid over a table is
merged name by name, and any other value takes the place of what was there. Names do not distinguish upper and lower case.

A place in a list may be counted from its end. There is none before the first item: a source that asks for such a place cannot be
laid over anything. A list that is too short is filled up, however far away the place is.
-/

namespace DispatchTree.Settings

/-- One step of a path: a name in a table, or a place in a list. -/
inductive Step where
  | name (s : String)
  | index (i : Int)
  deriving DecidableEq, Repr

/-- Why a place in a list cannot be had. -/
inductive PlaceFault where
  /-- It is counted from the end and lies before the first item. -/
  | beforeFirst
  deriving DecidableEq, Repr

/-- How a fault of a place is reported. -/
def PlaceFault.message : PlaceFault → String
  | .beforeFirst => "attempt to subtract with overflow"

/-- The characters of a name in a path. -/
def isPathChar (c : Char) : Bool := c.isAlphanum || c == ' ' || c == '_' || c == '-'

/-- A place in a list between brackets, with blanks around it. -/
def indexOf? (cs : List Char) : Option Int :=
  let isSpace (c : Char) : Bool := c == ' ' || c == '\t'
  let body := ((cs.dropWhile isSpace).reverse.dropWhile isSpace).reverse
  match body with
  | '+' :: _ => none
  | _ => int64OfText? (String.ofList body)

/-- The steps after the first name of a path. -/
def moreSteps : Nat → List Char → Option (List Step)
  | _, [] => some []
  | 0, _ => none
  | fuel + 1, '.' :: cs =>
    let name := cs.takeWhile isPathChar
    if name.isEmpty then none
    else (moreSteps fuel (cs.dropWhile isPathChar)).map (.name (String.ofList name) :: ·)
  | fuel + 1, '[' :: cs =>
    match cs.dropWhile (· != ']') with
    | ']' :: rest => do
      let i ← indexOf? (cs.takeWhile (· != ']'))
      return .index i :: (← moreSteps fuel rest)
    | _ => none
  | _, _ => none

/-- The path that a key spells. -/
def pathOf? (key : String) : Option (List Step) :=
  let cs := key.toList
  let name := cs.takeWhile isPathChar
  if name.isEmpty then none
  else (moreSteps cs.length (cs.dropWhile isPathChar)).map (.name (String.ofList name) :: ·)

/-- The path that a key of a source stands for, in lower case: a key that spells none is a name as it is. -/
def pathOf (key : String) : List Step :=
  let key := Text.lower key
  (pathOf? key).getD [.name key]

/-- The entries of a table; anything else has none. -/
def entriesOf : Document → List (String × Document)
  | .table es => es
  | _ => []

/-- The items of a list; anything else has none. -/
def itemsOf : Document → List Document
  | .list ds => ds
  | _ => []

/-- The table with an entry replaced where it stands, or added at the end. -/
def putEntry (name : String) (d : Document) (es : List (String × Document)) : List (String × Document) :=
  if es.any (·.1 == name) then es.map fun e => if e.1 == name then (name, d) else e else es ++ [(name, d)]

mutual

/-- Lays a value over the member of a name. -/
def overlay (name : String) (value : Document) (under : Document) : Document :=
  match value with
  | .table es =>
    let name := Text.lower name
    .table (putEntry name (overlayAll es (((entriesOf under).lookup name).getD (.table []))) (entriesOf under))
  | v => .table (putEntry (Text.lower name) v (entriesOf under))

/-- Lays the entries of a table over a value. -/
def overlayAll : List (String × Document) → Document → Document
  | [], under => under
  | (name, value) :: es, under => overlayAll es (overlay name value under)

end

/-- The place in a list of a given length; a negative place counts from the end. -/
def placeIn (length : Nat) (i : Int) : Except PlaceFault Nat :=
  if i < 0 then (if length < i.natAbs then .error .beforeFirst else .ok (length - i.natAbs)) else .ok i.toNat

/-- The list with the item at a place changed; a list that is too short is filled up. -/
def changeItem (ds : List Document) (i : Int) (f : Document → Except PlaceFault Document) :
    Except PlaceFault (List Document) := do
  let n ← placeIn ds.length i
  let padded := ds ++ List.replicate (n + 1 - ds.length) .null
  return padded.set n (← f ((padded[n]?).getD .null))

/-- Lays a value over what a path leads to. Tables and lists on the way are made where they are missing. -/
def assign (value : Document) : List Step → Document → Except PlaceFault Document
  | [], _ => .ok value
  | [.name s], under => .ok (overlay s value under)
  | [.index i], under => do return .list (← changeItem (itemsOf under) i fun _ => .ok value)
  | .name s :: rest, under => do
    let name := Text.lower s
    return .table (putEntry name (← assign value rest (((entriesOf under).lookup name).getD .null)) (entriesOf under))
  | .index i :: rest, under => do return .list (← changeItem (itemsOf under) i (assign value rest))

/-- A source: keys with their values. -/
abbrev Source := List (String × Document)

/-- The entries of a source, of which the last counts where several have one key. -/
def latest : Source → Source
  | [] => []
  | e :: es =>
    let rest := latest es
    if rest.any (·.1 == e.1) then rest else e :: rest

/-- Lays a source over the settings so far. -/
def addSource (under : Document) (s : Source) : Except PlaceFault Document :=
  s.foldlM (fun d (key, value) => assign value (pathOf key) d) under

end DispatchTree.Settings
