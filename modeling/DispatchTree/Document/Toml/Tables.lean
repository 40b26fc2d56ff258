import DispatchTree.Document.Basic

/-!
# How TOML tables are put together

A table is defined by a header, by the parts of a key in front of its last one, or because a longer header lies below it. The kind
of its definition decides what may still be added to it: a table with a header is closed to keys with points from outside, and a
table that was only passed through may be given its header later, which moves it behind its neighbours.
-/

namespace DispatchTree.Toml

/-- How a table came to be. -/
inductive TableKind where
  /-- Defined by its own header. -/
  | header
  /-- Passed through by the header of a table below it. -/
  | implicit
  /-- Defined by a key with points. -/
  | dotted
  deriving DecidableEq, Repr

/-- A member of a table under construction. -/
inductive Item where
  | value (d : Document)
  | table (kind : TableKind) (entries : List (String × Item))
  /-- A list of tables with headers of their own, last one first. -/
  | tables (last : List (String × Item)) (earlier : List (List (String × Item)))
  deriving Repr

/-- The entries of a table under construction, in their order. -/
abbrev Entries := List (String × Item)

namespace Entries

/-- The member of a name. -/
def get? (es : Entries) (name : String) : Option Item := (es.find? (·.1 == name)).map (·.2)

/-- The entries with a member replaced where it stands. -/
def set (es : Entries) (name : String) (i : Item) : Entries :=
  es.map fun e => if e.1 == name then (name, i) else e

/-- The entries without a member. -/
def remove (es : Entries) (name : String) : Entries := es.filter (·.1 != name)

/-- Adds a value under a key whose parts before the last are `path`. The tables on the path must have been made by such keys, or are
made now. -/
def assign (name : String) (d : Document) : List String → Entries → Option Entries
  | [], es => if (es.get? name).isSome then none else some (es ++ [(name, .value d)])
  | p :: ps, es =>
    match es.get? p with
    | none => (assign name d ps []).map fun inner => es ++ [(p, .table .dotted inner)]
    | some (.value _) => none
    | some (.table kind inner) =>
      if kind = .header ∨ (ps.isEmpty ∧ kind ≠ .dotted) then none
      else (assign name d ps inner).map fun inner => es.set p (.table kind inner)
    | some (.tables last earlier) =>
      if ps.isEmpty then none
      else (assign name d ps last).map fun last => es.set p (.tables last earlier)

/-- Changes the table that the parts of a header lead to. A part that is not there becomes a table; of a list of tables the last one
is meant. -/
def within (f : Entries → Option Entries) : List String → Entries → Option Entries
  | [], es => f es
  | p :: ps, es =>
    match es.get? p with
    | none => (within f ps []).map fun inner => es ++ [(p, .table .implicit inner)]
    | some (.value _) => none
    | some (.table kind inner) => (within f ps inner).map fun inner => es.set p (.table kind inner)
    | some (.tables last earlier) => (within f ps last).map fun last => es.set p (.tables last earlier)

/-- A table is given its header. A table that was only passed through keeps its entries and moves to the end. -/
def defineTable (name : String) (es : Entries) : Option Entries :=
  match es.get? name with
  | none => some (es ++ [(name, .table .header [])])
  | some (.table .implicit inner) => some (es.remove name ++ [(name, .table .header inner)])
  | _ => none

/-- A list of tables gets one more table. -/
def appendTable (name : String) (es : Entries) : Option Entries :=
  match es.get? name with
  | none => some (es ++ [(name, .tables [] [])])
  | some (.tables last earlier) => some (es.set name (.tables [] (last :: earlier)))
  | _ => none

end Entries

mutual

/-- The value of a member. -/
def Item.toDocument : Item → Document
  | .value d => d
  | .table _ entries => .table (entriesToDocument entries)
  | .tables last earlier => .list (tablesToDocuments earlier [.table (entriesToDocument last)])

/-- The entries of a table as documents. -/
def entriesToDocument : List (String × Item) → List (String × Document)
  | [] => []
  | (name, i) :: es => (name, i.toDocument) :: entriesToDocument es

/-- Tables, last one first, in front of those already in order. -/
def tablesToDocuments : List (List (String × Item)) → List Document → List Document
  | [], ds => ds
  | es :: rest, ds => tablesToDocuments rest (.table (entriesToDocument es) :: ds)

end

end DispatchTree.Toml
