import DispatchTree.Document.Toml.Scalar
import DispatchTree.Document.Toml.Tables

/-!
# Reading TOML

A text is a list of statements, one a line: a key with its value, the header of a table, or the header of a table in a list. The
statements are read first and then put together to one document.
-/

namespace DispatchTree.Toml

/-- A line that says something. -/
inductive Statement where
  | assign (path : List String) (name : String) (value : Document)
  | table (path : List String) (name : String)
  | tables (path : List String) (name : String)

/-- A reader of values. -/
abbrev ValueReader := List Char → Option (Document × List Char)

/-- The parts of a key before the last, and the last. -/
def splitLast? (names : List String) : Option (List String × String) :=
  names.getLast?.map (names.dropLast, ·)

/-- The items of a list up to its end, `acc` being those already read. A comma may follow the last item. -/
def items (value : ValueReader) : Nat → List Document → List Char → Option (List Document × List Char)
  | 0, _, _ => none
  | fuel + 1, acc, cs => do
    match ← skipSpace false cs with
    | ']' :: cs => some (acc.reverse, cs)
    | cs => do
      let (d, cs) ← value cs
      match ← skipSpace false cs with
      | ',' :: cs => items value fuel (d :: acc) cs
      | ']' :: cs => some ((d :: acc).reverse, cs)
      | _ => none

/-- A key, an equals sign and a value, with blanks around each of them. -/
def pair (value : ValueReader) (cs : List Char) : Option ((List String × String) × Document × List Char) := do
  let (names, cs) ← key? cs
  let target ← splitLast? names
  match cs with
  | '=' :: cs => do
    let (d, cs) ← value (skipBlanks cs)
    return (target, d, skipBlanks cs)
  | _ => none

/-- The entries of a table on one line up to its end, added to `entries`. No comma follows the last entry. -/
def inlineEntries (value : ValueReader) : Nat → Entries → List Char → Option (Entries × List Char)
  | 0, _, _ => none
  | fuel + 1, entries, cs => do
    let ((path, name), d, cs) ← pair value cs
    let entries ← Entries.assign name d path entries
    match cs with
    | ',' :: cs => inlineEntries value fuel entries cs
    | '\x7d' :: cs => some (entries, cs)
    | _ => none

/-- A value with fewer than `depth` lists and tables within each other. -/
def value : Nat → ValueReader
  | 0, _ => none
  | depth + 1, cs =>
    match cs with
    | '[' :: cs =>
      if depth = 0 then none
      else (items (value depth) (cs.length + 1) [] cs).map fun (ds, cs) => (.list ds, cs)
    | '\x7b' :: cs =>
      if depth = 0 then none
      else
        match skipBlanks cs with
        | '\x7d' :: cs => some (.table [], cs)
        | cs => (inlineEntries (value depth) (cs.length + 1) [] cs).map fun (es, cs) =>
          (.table (entriesToDocument es), cs)
    | '"' :: _ => (string? cs).map fun (s, cs) => (.string s, cs)
    | '\'' :: _ => (string? cs).map fun (s, cs) => (.string s, cs)
    | _ => scalar cs

/-- A value of any allowed depth. -/
def anyValue : ValueReader := value limit

/-- A header, after its opening bracket. -/
def header? (cs : List Char) : Option (Statement × List Char) :=
  match cs with
  | '[' :: cs => do
    let (names, cs) ← key? cs
    let (path, name) ← splitLast? names
    match cs with
    | ']' :: ']' :: cs => return (.tables path name, cs)
    | _ => none
  | cs => do
    let (names, cs) ← key? cs
    let (path, name) ← splitLast? names
    match cs with
    | ']' :: cs => return (.table path name, cs)
    | _ => none

/-- The statements of a text. -/
def statements : Nat → List Char → Option (List Statement)
  | 0, _ => none
  | fuel + 1, cs =>
    match skipBlanks cs with
    | [] => some []
    | c :: cs =>
      if c = '#' ∨ c = '\n' ∨ c = '\r' then do statements fuel (← restOfLine? (c :: cs))
      else do
        let (s, cs) ← if c = '[' then header? cs
          else (pair anyValue (c :: cs)).map fun ((path, name), d, cs) => (.assign path name d, cs)
        let rest ← statements fuel (← restOfLine? cs)
        return s :: rest

/-- A document under construction: its entries and the header that new keys belong to. -/
structure Building where
  entries : Entries
  current : List String

/-- Adds one statement. -/
def Building.add (b : Building) : Statement → Option Building
  | .assign path name d =>
    (Entries.within (Entries.assign name d path) b.current b.entries).map fun es => { b with entries := es }
  | .table path name =>
    (Entries.within (Entries.defineTable name) path b.entries).map fun es => ⟨es, path ++ [name]⟩
  | .tables path name =>
    (Entries.within (Entries.appendTable name) path b.entries).map fun es => ⟨es, path ++ [name]⟩

/-- The text without a byte order mark at its start. -/
def skipMark : List Char → List Char
  | '\ufeff' :: cs => cs
  | cs => cs

/-- The document that statements describe. -/
def assemble? (ss : List Statement) : Option Document :=
  (ss.foldlM Building.add ⟨[], []⟩).map fun b => .table (entriesToDocument b.entries)

/-- The document of a text. -/
def parse? (s : String) : Option Document :=
  let cs := skipMark s.toList
  (statements (cs.length + 1) cs).bind assemble?

end DispatchTree.Toml
