import DispatchTree.Document.Shape
import DispatchTree.Document.Json.Reader
import DispatchTree.Document.Toml.Reader
import DispatchTree.Machine
import DispatchTree.Text.Blank

/-!
# Machine descriptions

The written form of a machine: the initial state, an optional prompt, an optional table of terminal states, and an optional list of
rules in which symbols and moves are spelled with one character for each track. A description is accepted when it names an
initial state, every rule is well formed, and no two rules share state and pair; the first rule at fault is the one reported.
-/

namespace DispatchTree

/-- A rule as it is written. -/
structure RuleEntry where
  state : String
  read : String
  next : String
  write : String
  moves : String
  deriving DecidableEq, Repr

/-- A machine as it is written. -/
structure Description where
  initial : String
  prompt : String
  halts : Std.ExtTreeMap String String
  rules : List RuleEntry
  deriving DecidableEq

/-- What is wrong with a text that should have one character for each track. -/
inductive PairFault where
  | notTwo (text : String)
  | unexpected (c : Char)
  deriving DecidableEq, Repr

/-- What is wrong with a rule. -/
inductive RuleFault where
  | read (fault : PairFault)
  | write (fault : PairFault)
  | moves (fault : PairFault)
  | emptyNext
  deriving DecidableEq, Repr

/-- Why a description is not accepted. -/
inductive DescriptionFault where
  | missingInitialState
  | invalidRule (index : Nat) (state : String) (fault : RuleFault)
  | duplicateRule (state : String) (pair : SymbolPair)
  deriving DecidableEq, Repr

/-- How a fault in a pair is reported. -/
def PairFault.message : PairFault → String
  | .notTwo text => "expected two characters, got " ++ Text.quote text
  | .unexpected c => "unexpected character " ++ Text.quoteSingle c

/-- The reason why a rule is not accepted. -/
def RuleFault.message : RuleFault → String
  | .read f => "read: " ++ f.message
  | .write f => "write: " ++ f.message
  | .moves f => "moves: " ++ f.message
  | .emptyNext => "empty next state"

/-- How a rule that is not accepted is reported with its reason. -/
def ruleMessage (index : Nat) (state reason : String) : String := "Rule " ++ Nat.repr index ++ " (" ++ state ++ "): " ++ reason

/-- How a fault of a description is reported. -/
def DescriptionFault.message : DescriptionFault → String
  | .missingInitialState => "Machine has no initial state"
  | .invalidRule index state fault => ruleMessage index state fault.message
  | .duplicateRule state pair => "Duplicate rule for state " ++ state ++ " reading " ++ pair.text

/-- Two characters, one for each track; a bad first character is reported before a bad second one. -/
def readPair (ofChar? : Char → Option α) (text : String) : Except PairFault (α × α) :=
  match text.toList with
  | [a, b] =>
    match ofChar? a, ofChar? b with
    | some x, some y => .ok (x, y)
    | none, _ => .error (.unexpected a)
    | some _, none => .error (.unexpected b)
  | _ => .error (.notTwo text)

/-- The pair a rule reads and its action. The fields are looked at in the order read, write, moves, next. -/
def RuleEntry.toRule (e : RuleEntry) : Except RuleFault (SymbolPair × Action) := do
  let (r1, r2) ← (readPair Symbol.ofChar? e.read).mapError .read
  let (w1, w2) ← (readPair Symbol.ofChar? e.write).mapError .write
  let (m1, m2) ← (readPair Move.ofChar? e.moves).mapError .moves
  if e.next.isEmpty then .error .emptyNext
  else .ok (⟨r1, r2⟩, ⟨e.next, ⟨w1, m1⟩, ⟨w2, m2⟩⟩)

namespace Description

/-- Adds rules to a machine, the first of which has the given index. -/
def addRules : Nat → List RuleEntry → Machine → Except DescriptionFault Machine
  | _, [], m => .ok m
  | index, e :: es, m => do
    let (read, action) ← e.toRule.mapError (.invalidRule index e.state ·)
    match m.insertRule e.state read action with
    | (some _, _) => .error (.duplicateRule e.state read)
    | (none, m) => addRules (index + 1) es m

/-- The machine that a description describes. -/
def toMachine (d : Description) : Except DescriptionFault Machine :=
  if Text.allBlank d.initial then .error .missingInitialState
  else addRules 0 d.rules { Machine.new d.initial with prompt := d.prompt, halts := d.halts }

end Description

namespace RuleEntry

/-- A rule of which nothing has been read. -/
def blank : RuleEntry := ⟨"", "", "", "", ""⟩

/-- A required field that holds a text. -/
def textField (name : String) (set : RuleEntry → String → RuleEntry) : Field RuleEntry :=
  ⟨name, true, fun d e => d.readString.map (set e)⟩

/-- The fields of a rule. -/
def shape : RecordShape RuleEntry where
  name := "RuleEntry"
  fields := [
    textField "state" fun e s => { e with state := s },
    textField "read" fun e s => { e with read := s },
    textField "next" fun e s => { e with next := s },
    textField "write" fun e s => { e with write := s },
    textField "moves" fun e s => { e with moves := s }]
  lenient := false

end RuleEntry

namespace Description

/-- A description of which nothing has been read. -/
def blank : Description := ⟨"", "", ∅, []⟩

/-- The fields of a description. Only the initial state is required. -/
def shape (format : Format) : RecordShape Description where
  name := "MachineFile"
  fields := [
    ⟨"initial", true, fun d m => d.readString.map fun s => { m with initial := s }⟩,
    ⟨"prompt", false, fun d m => d.readString.map fun s => { m with prompt := s }⟩,
    ⟨"halt", false, fun d m => d.readTexts.map fun es => { m with halts := .ofList es }⟩,
    ⟨"rule", false, fun d m =>
      (d.readList (RuleEntry.shape.read format .blank)).map fun rs => { m with rules := rs }⟩]
  lenient := false

/-- Reads a description from a text. -/
def ofText (format : Format) (text : String) : Reading Description :=
  match format with
  | .toml =>
    match Toml.parse? text with
    | none => .error .malformed
    | some d => (shape .toml).read .toml .blank d.toDraft
  | .json => do
    let (draft, clean) := Json.read text
    let d ← (shape .json).read .json .blank draft
    Draft.whenClosed clean d

end Description

/-- Why a text does not give a machine. -/
inductive MachineFault where
  | text (format : Format) (fault : ReadFault)
  | description (fault : DescriptionFault)
  deriving DecidableEq, Repr

/-- The machine a text describes. -/
def Machine.ofText (format : Format) (text : String) : Except MachineFault Machine := do
  let d ← (Description.ofText format text).mapError (.text format ·)
  d.toMachine.mapError .description

end DispatchTree
