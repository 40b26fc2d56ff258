import DispatchTree.Document.Json.Writer
import DispatchTree.Journal.Event
import DispatchTree.Report
import DispatchTree.Text.Quoted

/-!
# Journal lines

An event is written as one line together with the spans in which it happened, either as a JSON object or as text, which may be
colored.
-/

namespace DispatchTree

/-- How events are written. -/
inductive Layout where
  | json
  | text (colored : Bool)
  deriving DecidableEq, Repr

namespace Layout

/-- A span as a JSON object: its texts, and then its name. -/
def spanDocument (s : Span) : Document :=
  .table (s.values.map (fun (name, value) => (name, .string value)) ++ [("name", .string s.name)])

/-- The innermost span and all of them, the outermost first. -/
def spanEntries (spans : List Span) : List (String × Document) :=
  match spans.getLast? with
  | none => []
  | some s => [("span", spanDocument s), ("spans", .list (spans.map spanDocument))]

/-- What happened within spans as a JSON object. -/
def jsonLine (time : String) (e : Event) (spans : List Span) : String :=
  Json.compact (.table ([
    ("timestamp", .string time),
    ("level", .string e.level.name),
    ("fields", .table (("message", .string e.message) :: e.values)),
    ("target", .string e.target)] ++ spanEntries spans))

/-- A text that is shown in a style. -/
def styled (colored : Bool) (style s : String) : String :=
  if colored then "\x1b[" ++ style ++ "m" ++ s ++ "\x1b[0m" else s

/-- The color of a level. -/
def color : Level → String
  | .error => "31"
  | .warn => "33"
  | .info => "32"
  | .debug => "34"
  | .trace => "35"

/-- Whether a value of an event is written between quotes. -/
def isQuoted (e : Event) (name : String) : Bool :=
  match e with
  | .transitionsIgnored _ | .actionInterned _ _ _ => name == "state"
  | _ => name == "kind"

/-- A value of an event as text. -/
def valueText (e : Event) (name : String) : Document → String
  | .string s => if isQuoted e name then Text.quote s else s
  | d => Json.compact d

/-- A named value as text. -/
def namedValue (colored : Bool) (name value : String) : String :=
  styled colored "3" name ++ styled colored "2" "=" ++ value

/-- A span as text, with the colon behind it. -/
def spanText (colored : Bool) (s : Span) : String :=
  let values := s.values.map fun (name, value) => namedValue colored name (if s.isQuoted then Text.quote value else value)
  styled colored "1" s.name ++
    (if values.isEmpty then "" else styled colored "1" "\x7b" ++ " ".intercalate values ++ styled colored "1" "\x7d") ++
    styled colored "2" ":"

/-- Spans as text, with a space behind them. -/
def spansText (colored : Bool) (spans : List Span) : String :=
  if spans.isEmpty then "" else String.join (spans.map (spanText colored)) ++ " "

/-- A character of a message as text: one that steers a terminal is written as an escape. -/
def messageChar (c : Char) : String :=
  let n := c.toNat
  if n = 0x1b ∨ n = 0x07 ∨ n = 0x08 ∨ n = 0x0c ∨ n = 0x7f then
    String.ofList ['\\', 'x', Json.hexDigit (n / 16), Json.hexDigit (n % 16)]
  else if 0x80 ≤ n ∧ n ≤ 0x9f then Text.codePoint c
  else String.singleton c

/-- A message as text. -/
def messageText (s : String) : String := String.join (s.toList.map messageChar)

/-- What happened within spans as text. -/
def textLine (colored : Bool) (time : String) (e : Event) (spans : List Span) : String :=
  styled colored "2" time ++ " " ++ styled colored (color e.level) (Report.padLeft e.level.name 5) ++ " " ++
    spansText colored spans ++ styled colored "2" e.target ++ styled colored "2" ":" ++ " " ++ messageText e.message ++
    String.join (e.values.map fun (name, d) => " " ++ namedValue colored name (valueText e name d))

/-- The line of what happened within spans, with its end. -/
def line (l : Layout) (time : String) (e : Event) (spans : List Span) : String :=
  (match l with
    | .json => jsonLine time e spans
    | .text colored => textLine colored time e spans) ++ "\n"

end Layout

end DispatchTree
