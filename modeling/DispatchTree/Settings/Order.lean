import DispatchTree.Settings.Layer

/-!
# The order of entries

A table has no order of its own. What reads settings goes through the entries of a table in some order, which may be another one for
every table and every time. Where two keys of one source contradict each other, this order decides which of them counts. It is left
open here: whatever depends on it takes it as an argument, and the entries of a source are put in order before they are laid over
anything.
-/

namespace DispatchTree.Settings

/-- A way to arrange lists. -/
structure Arrangement (α : Type) where
  arrange : List α → List α
  perm : ∀ xs, (arrange xs).Perm xs

/-- Lists are left as they are. -/
def Arrangement.listed {α : Type} : Arrangement α := ⟨id, fun xs => .refl xs⟩

/-- An order of the entries of tables. It may be another one for every table; a table is known by the names that lead there, the last
one first. -/
structure Order where
  table : List String → Arrangement (String × Document)

namespace Order

/-- Entries are gone through as they are listed. -/
def listed : Order := ⟨fun _ => .listed⟩

mutual

/-- A value with the entries of its tables in order. Tables within lists stay as they are. -/
def document (o : Order) (path : List String) : Document → Document
  | .table es => .table ((o.table path).arrange (o.members path es))
  | d => d

/-- Entries, each with the entries of its tables in order. -/
def members (o : Order) (path : List String) : List (String × Document) → List (String × Document)
  | [] => []
  | (name, d) :: es => (name, o.document (name :: path) d) :: o.members path es

end

/-- A source in order. -/
def source (o : Order) (s : Source) : Source := (o.table []).arrange (o.members [] s)

end Order

/-- What a settings file is there for. -/
inductive FileKind where
  | global
  | base
  | environment
  /-- The file that is given instead of all others. -/
  | given
  deriving DecidableEq, Repr

/-- Where a source comes from. -/
inductive Origin where
  | file (kind : FileKind) (path : String)
  | variables
  deriving DecidableEq, Repr

/-- The orders in which settings are gone through when they are loaded. -/
structure Orders where
  source : Origin → Order
  /-- The order of what all sources come to. -/
  merged : Order

/-- Everything is gone through as it is listed. -/
def Orders.listed : Orders := ⟨fun _ => .listed, .listed⟩

end DispatchTree.Settings
