import DispatchTree.Document.Json.Reader
import DispatchTree.Document.Json.Writer
import DispatchTree.Document.Shape
import DispatchTree.Tape.Action

/-!
# Actions as JSON

An action is written as a table with the next state and the two track operations. It is read back from any text with these fields,
in any order and with any others beside them.
-/

namespace DispatchTree

/-- A symbol as a document. -/
def Symbol.toDocument (s : Symbol) : Document := .string s.name

/-- A pair as a document: its two symbols. -/
def SymbolPair.toDocument (p : SymbolPair) : Document := .list [p.first.toDocument, p.second.toDocument]

/-- A track operation as a document. -/
def TrackOp.toDocument (op : TrackOp) : Document :=
  .table [("write", op.write.toDocument), ("shift", .string op.shift.name)]

/-- An action as a document. -/
def Action.toDocument (a : Action) : Document :=
  .table [("next", .string a.next), ("tracks", .list [a.first.toDocument, a.second.toDocument])]

/-- The JSON text of an action. -/
def Action.toJson (a : Action) : String := Json.compact a.toDocument

/-- Reads a symbol by its name. -/
def Symbol.read : Draft → Reading Symbol := Draft.readVariant (Symbol.all.map fun s => (s.name, s)) "enum Symbol"

/-- Reads a move by its name. -/
def Move.read : Draft → Reading Move := Draft.readVariant (Move.all.map fun m => (m.name, m)) "enum Move"

/-- The fields of a track operation. -/
def TrackOp.shape : RecordShape TrackOp where
  name := "TrackOp"
  fields := [
    ⟨"write", true, fun d op => (Symbol.read d).map fun s => { op with write := s }⟩,
    ⟨"shift", true, fun d op => (Move.read d).map fun m => { op with shift := m }⟩]
  lenient := true

/-- The fields of an action. -/
def Action.shape : RecordShape Action where
  name := "Action"
  fields := [
    ⟨"next", true, fun d a => d.readString.map fun s => { a with next := s }⟩,
    ⟨"tracks", true, fun d a =>
      (d.readTwo (TrackOp.shape.read .json .idle)).map fun (one, two) => { a with first := one, second := two }⟩]
  lenient := true

/-- The action a JSON text denotes. -/
def Action.ofJson (text : String) : Reading Action := do
  let (draft, clean) := Json.read text
  let a ← Action.shape.read .json .invalid draft
  Draft.whenClosed clean a

end DispatchTree
