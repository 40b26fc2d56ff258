import DispatchTree.Journal.Event
import DispatchTree.Number.Literal
import DispatchTree.Text.Alphanumeric
import DispatchTree.Text.Blank
import DispatchTree.Text.Pattern.Reader

/-!
# Filter directives

A directive says down to which level events pass: all events, those of one part of the program, or those that happen within a span
of work. It is written as a level, as `part=level`, or as `part[span]=level`; a directive without level lets everything pass.
Behind the name of a span, or in its place, names of values may stand in braces, each with a pattern that the value must match.
Blanks around a directive are passed over when its marks are looked for, but its parts are cut out of the text as it stands.
-/

namespace DispatchTree

/-- Down to which level events pass; `none` lets nothing pass. -/
abbrev Threshold := Option Level

/-- Whether events of a level pass. -/
def Threshold.passes (t : Threshold) (l : Level) : Bool :=
  match t with
  | some least => l.rank ≤ least.rank
  | none => false

/-- The thresholds by rank. -/
def thresholds : List Threshold := [none, some .error, some .warn, some .info, some .debug, some .trace]

/-- The name of a threshold in lower case. -/
def Threshold.name (t : Threshold) : String :=
  match t with
  | some l => l.name.map Char.toLower
  | none => "off"

/-- A threshold by its rank, or by its name in any case. -/
def thresholdOf? (s : String) : Option Threshold :=
  match (boundedNatOfText? (1 <<< 64) s).bind fun n => thresholds[n]? with
  | some t => some t
  | none => thresholds.find? fun t => t.name = s.map Char.toLower

/-- What a value must be. -/
inductive ValueTest where
  /-- A truth value or a number, which no text is. -/
  | scalar (text : String)
  | pattern (p : Text.Pattern)
  deriving DecidableEq, Repr

/-- A value that must be there, and what it must be. -/
structure FieldTest where
  name : String
  value : Option ValueTest
  deriving DecidableEq, Repr

/-- Which events a directive is about, and down to which level they pass. -/
structure Directive where
  /-- How the names of the parts of the program begin. -/
  part : Option String
  /-- The name of the span of work. -/
  span : Option String
  /-- The values that the span, or the event, must have. -/
  fields : List FieldTest
  threshold : Threshold
  deriving DecidableEq, Repr

/-- Why a text is not a directive. -/
inductive DirectiveFault where
  | malformed
  | unknownLevel
  /-- What a value must match is not a pattern. -/
  | badPattern
  deriving DecidableEq, Repr

/-- How a fault is reported. -/
def DirectiveFault.message : DirectiveFault → String
  | .malformed => "invalid filter directive"
  | .unknownLevel =>
    "error parsing level filter: expected one of \"off\", \"error\", \"warn\", \"info\", \"debug\", \"trace\", or a number 0-5"
  | .badPattern => "invalid field filter: error building NFA"

/-- What a value must be, by its text: a truth value, a number, or else a pattern. -/
def ValueTest.parse (s : String) : Except DirectiveFault ValueTest :=
  if s = "true" ∨ s = "false" then .ok (.scalar s)
  else if (boundedNatOfText? (1 <<< 64) s).isSome || (int64OfText? s).isSome || (Binary64.ofText? s).isSome then .ok (.scalar s)
  else
    match Text.Pattern.parse? s with
    | some p => .ok (.pattern p)
    | none => .error .badPattern

/-- A name, and behind an equals sign what the value must be. What follows a second equals sign is passed over. -/
def FieldTest.parse (s : String) : Except DirectiveFault FieldTest :=
  match s.splitToList (· == '=') with
  | [] => .error .malformed
  | [name] => .ok ⟨name, none⟩
  | name :: value :: _ => do return ⟨name, some (← ValueTest.parse value)⟩

/-- Whether a text is the value that is asked for. -/
def ValueTest.accepts : ValueTest → String → Bool
  | .scalar _, _ => false
  | .pattern p, s => p.isFoundIn s

/-- Whether values have the one that is asked for. -/
def FieldTest.accepts (t : FieldTest) (values : List (String × String)) : Bool :=
  match values.lookup t.name with
  | none => false
  | some text =>
    match t.value with
    | none => true
    | some test => test.accepts text

namespace Directive

/-- Whether a directive is about a part of the program. -/
def concerns (d : Directive) (part : String) : Bool :=
  match d.part with
  | none => true
  | some p => part.startsWith p

/-- Whether a directive can be about events by themselves: it names no span, and asks for no certain values. -/
def isStatic (d : Directive) : Bool := d.span.isNone && d.fields.all (·.value.isNone)

/-- Whether a directive can be about what happens within a span. -/
def isDynamic (d : Directive) : Bool := d.span.isSome || !d.fields.isEmpty

/-- Whether a directive is about events by themselves that belong to a part and have values of certain names. -/
def decides (d : Directive) (part : String) (names : List String) : Bool :=
  d.concerns part && d.fields.all (names.contains ·.name)

/-- Whether a directive is about spans of a span's kind. -/
def watches (d : Directive) (s : Span) : Bool :=
  d.concerns s.target && (d.span.isNone || d.span == some s.name) && d.fields.all fun t => (s.values.lookup t.name).isSome

/-- Whether a directive is about what happens within a span. -/
def covers (d : Directive) (s : Span) : Bool := d.watches s && d.fields.all (·.accepts s.values)

/-- Whether two directives are about the same. -/
def sameScope (d e : Directive) : Bool := d.part == e.part && d.span == e.span && d.fields == e.fields

/-- The length of the name of the part that a directive is about. -/
def partLength (d : Directive) : Nat :=
  match d.part with
  | none => 0
  | some p => p.utf8ByteSize + 1

/-- Whether a directive is at most as specific as another: a longer part comes before more values, and those before their names. -/
def atMost (d e : Directive) : Bool :=
  if d.partLength ≠ e.partLength then d.partLength < e.partLength
  else if d.fields.length ≠ e.fields.length then d.fields.length < e.fields.length
  else (compare (d.fields.map (·.name)) (e.fields.map (·.name))).isLE

/-- What is being read; a number is the position at which it began. -/
inductive Phase where
  | start
  /-- A level or the name of a part. -/
  | word (origin : Nat)
  | span (origin : Nat)
  | value (origin : Nat)
  /-- Behind the values of a span. -/
  | valuesDone
  /-- Behind a span. -/
  | spanDone
  | level (origin : Nat)
  | done
  deriving DecidableEq, Repr

/-- What has been read of a directive. -/
structure Reading where
  phase : Phase
  /-- The position of the next character, in bytes. -/
  position : Nat
  directive : Directive

/-- Nothing has been read. -/
def Reading.start : Reading := ⟨.start, 0, ⟨none, none, [], some .trace⟩⟩

/-- The characters that begin between two positions of a text, the first of which is at `position`. -/
def charsBetween (lo hi : Nat) : Nat → List Char → List Char
  | _, [] => []
  | position, c :: cs =>
    let rest := charsBetween lo hi (position + c.utf8Size) cs
    if lo ≤ position ∧ position < hi then c :: rest else rest

/-- The text between two positions. -/
def cut (text : String) (lo hi : Nat) : String := String.ofList (charsBetween lo hi 0 text.toList)

/-- The text from a position on. -/
def cutFrom (text : String) (lo : Nat) : String := cut text lo text.utf8ByteSize

/-- The directive of a single word. -/
def withWord (d : Directive) (word : String) : Directive :=
  match thresholdOf? word with
  | some t => { d with part := none, threshold := t }
  | none => { d with part := some word, threshold := some .trace }

/-- The directive with the level of a text; no text lets everything pass. -/
def withLevel (d : Directive) (text : String) : Except DirectiveFault Directive :=
  if text.isEmpty then .ok { d with threshold := some .trace }
  else
    match thresholdOf? text with
    | some t => .ok { d with threshold := t }
    | none => .error .unknownLevel

/-- Whether a directive may begin with a character. -/
def mayBegin (c : Char) : Bool := c == '-' || c == ':' || c == '_' || Text.isAlphanumeric c

/-- Reads one character. -/
def Reading.step (text : String) (r : Reading) (c : Char) : Except DirectiveFault Reading :=
  let i := r.position
  let next := i + c.utf8Size
  let d := r.directive
  let go (phase : Phase) (d : Directive) : Except DirectiveFault Reading := .ok ⟨phase, next, d⟩
  match r.phase with
  | .start => if c = '[' then go (.span next) d else if mayBegin c then go (.word i) d else .error .malformed
  | .word k =>
    if c = '=' then go (.level next) { d with part := some (cut text k i) }
    else if c = '[' then go (.span next) { d with part := some (cut text k i) }
    else if c = ',' then go .done (d.withWord (cutFrom text k))
    else go (.word k) d
  | .span k =>
    if c = ']' then go .spanDone { d with span := some (cut text k i) }
    else if c = '\x7b' then go (.value next) { d with span := if cut text k i = "" then none else some (cut text k i) }
    else go (.span k) d
  | .value k =>
    if c = '\x7d' ∨ c = ',' then do
      if cut text k i = "" then .error .malformed
      else
        let field ← FieldTest.parse (cut text k i)
        go (if c = ',' then .value next else .valuesDone) { d with fields := d.fields ++ [field] }
    else go (.value k) d
  | .valuesDone => if c = ']' then go .spanDone d else .error .malformed
  | .spanDone => if c = '=' then go (.level next) d else .error .malformed
  | .level k =>
    if c = ',' then (d.withLevel (cut text k i)).bind (go .done)
    else go (.level k) d
  | .done => .error .malformed

/-- The directive when the text ends. -/
def Reading.finish (text : String) (r : Reading) : Except DirectiveFault Directive :=
  match r.phase with
  | .word k => .ok (r.directive.withWord (cutFrom text k))
  | .level k => r.directive.withLevel (cutFrom text k)
  | .spanDone | .done => .ok r.directive
  | _ => .error .malformed

/-- A text without the blanks around it. -/
def trim (cs : List Char) : List Char := ((cs.dropWhile Text.isBlank).reverse.dropWhile Text.isBlank).reverse

/-- Reads a directive. -/
def parse (s : String) : Except DirectiveFault Directive := do
  let r ← (trim s.toList).foldlM (Reading.step s) .start
  r.finish s

end Directive

end DispatchTree
