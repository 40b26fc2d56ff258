import DispatchTree.Number.Binary64

/-!
# Documents

The value of a configuration or description text, whatever format it is written in. A table keeps its entries in the order of
the text. A date is kept as the text that denotes it.

`Draft` is what a reader that works from front to back has of a text: the same shapes, but any part may be cut short where the
text stops making sense. A consumer that walks a draft in order meets the problems of a text in the order in which they stand
in it.
-/

namespace DispatchTree

/-- A complete value. -/
inductive Document where
  | null
  | boolean (b : Bool)
  | integer (n : Int)
  | float (x : Binary64)
  | string (s : String)
  | date (s : String)
  | list (items : List Document)
  | table (entries : List (String × Document))
  deriving Repr, BEq

/-- What has been read of a value. -/
inductive Draft where
  /-- No value can be read here: the text is malformed at this place. -/
  | broken
  /-- The text is well formed but denotes no value: half of a surrogate pair, or a number too large. -/
  | unreadable
  | null
  | boolean (b : Bool)
  | integer (n : Int)
  | float (x : Binary64)
  | string (s : String)
  /-- The items read so far, and whether the list was closed after them. -/
  | list (items : List Draft) (closed : Bool)
  /-- The entries read so far, and whether the table was closed after them. A key that denotes no text is `none`. -/
  | table (entries : List (Option String × Draft)) (closed : Bool)
  deriving Repr, BEq

namespace Document

/-- The name under which a date stands when it is looked at as a table. -/
def dateKey : String := "$__toml_private_datetime"

mutual

/-- A complete value as a draft. A date is a table with one entry. -/
def toDraft : Document → Draft
  | .null => .null
  | .boolean b => .boolean b
  | .integer n => .integer n
  | .float x => .float x
  | .string s => .string s
  | .date s => .table [(some dateKey, .string s)] true
  | .list items => .list (itemsToDraft items) true
  | .table entries => .table (entriesToDraft entries) true

/-- The items of a list as drafts. -/
def itemsToDraft : List Document → List Draft
  | [] => []
  | d :: ds => toDraft d :: itemsToDraft ds

/-- The entries of a table as drafts. -/
def entriesToDraft : List (String × Document) → List (Option String × Draft)
  | [] => []
  | (k, d) :: es => (some k, toDraft d) :: entriesToDraft es

end

end Document

namespace Draft

mutual

/-- The complete value of a draft in which nothing is missing and at most `depth` lists and tables lie within each other. -/
def complete? : Nat → Draft → Option Document
  | _, .broken => none
  | _, .unreadable => none
  | _, .null => some .null
  | _, .boolean b => some (.boolean b)
  | _, .integer n => some (.integer n)
  | _, .float x => some (.float x)
  | _, .string s => some (.string s)
  | 0, .list _ _ => none
  | 0, .table _ _ => none
  | depth + 1, .list items closed => if closed then (completeItems? depth items).map .list else none
  | depth + 1, .table entries closed => if closed then (completeEntries? depth entries).map .table else none

/-- The complete values of the items of a list. -/
def completeItems? : Nat → List Draft → Option (List Document)
  | _, [] => some []
  | depth, d :: ds => do
    let v ← complete? depth d
    return v :: (← completeItems? depth ds)

/-- The complete entries of a table. -/
def completeEntries? : Nat → List (Option String × Draft) → Option (List (String × Document))
  | _, [] => some []
  | depth, (k, d) :: es => do
    let k ← k
    let v ← complete? depth d
    return (k, v) :: (← completeEntries? depth es)

end

mutual

/-- Whether the text of a draft is well formed throughout, with or without a value. -/
def wellFormed : Draft → Bool
  | .broken => false
  | .list items closed => itemsWellFormed items && closed
  | .table entries closed => entriesWellFormed entries && closed
  | _ => true

/-- Whether the texts of all items are well formed. -/
def itemsWellFormed : List Draft → Bool
  | [] => true
  | d :: ds => wellFormed d && itemsWellFormed ds

/-- Whether the texts of all entries are well formed. -/
def entriesWellFormed : List (Option String × Draft) → Bool
  | [] => true
  | (_, d) :: es => wellFormed d && entriesWellFormed es

end

end Draft

end DispatchTree
