/-!
# Command-line arguments

A command line has options of the program, the name of a command, and options of the command. An option with a value takes the next
argument, or what follows an equals sign. The value of an option is looked at when the next option begins or the arguments end;
the options of the program that stand before a command are looked at after those of the command.
-/

namespace DispatchTree

/-- How a plan is printed. -/
inductive PlanFormat where
  | text | json
  deriving DecidableEq, Repr

/-- What the program is asked to do. -/
inductive Command where
  | build (machine output : Option String)
  | plan (machine : Option String) (format : PlanFormat)
  deriving DecidableEq, Repr

/-- A command line that was understood. -/
structure Arguments where
  command : Command
  workspace : String
  config : Option String
  verbose : Bool
  logLevel : Option String
  logFormat : Option String
  logOutput : Option String
  logFile : Option String
  deriving DecidableEq, Repr

/-- Why a command line ends without a command to run. -/
inductive UsageFault where
  /-- Help was asked for. -/
  | helpAsked
  /-- Nothing was given at all, so that help is shown. -/
  | nothingGiven
  | missingCommand
  | unknownCommand
  | unknownArgument
  /-- An option lacks its value, or has one that is not allowed. -/
  | badValue
  /-- An option is given twice. -/
  | repeated
  /-- An option without value is given one. -/
  | unwantedValue
  deriving DecidableEq, Repr

namespace Arguments

/-- The kinds of options. -/
inductive OptionKind where
  /-- It has no value. -/
  | flag
  /-- It asks for help. -/
  | help
  /-- Any text. -/
  | text
  /-- A text that is not empty. -/
  | path
  /-- One of several words. -/
  | choice (words : List String)
  deriving DecidableEq, Repr

/-- What one part of a command line may hold. -/
structure Grammar where
  options : List (String × OptionKind)
  commands : List String

/-- The options of the program, and its commands. -/
def programGrammar : Grammar where
  options := [("workspace", .path), ("config", .path), ("verbose", .flag), ("log-level", .text), ("log-format", .text),
    ("log-output", .text), ("log-file", .path), ("help", .help)]
  commands := ["build", "plan", "help"]

/-- The options of the command that builds. -/
def buildGrammar : Grammar where
  options := [("machine", .path), ("output", .path), ("help", .help)]
  commands := []

/-- The options of the command that plans. -/
def planGrammar : Grammar where
  options := [("machine", .path), ("format", .choice ["text", "json"]), ("help", .help)]
  commands := []

/-- An option whose value has not been looked at. -/
structure Pending where
  name : String
  kind : OptionKind
  value : Option String

/-- What has been read of one part of a command line. -/
structure Given where
  values : List (String × String)
  pending : Option Pending
  /-- Whether only names may follow. -/
  trailing : Bool

/-- Nothing has been read. -/
def Given.nothing : Given := ⟨[], none, false⟩

/-- Whether an option is still without the value it takes. -/
def Given.awaitsValue (g : Given) : Bool :=
  match g.pending with
  | some p => p.value.isNone
  | none => false

/-- Whether a value is allowed for a kind of option. -/
def OptionKind.allows : OptionKind → String → Bool
  | .path, v => !v.isEmpty
  | .choice words, v => words.contains v
  | _, _ => true

/-- Notes the value of an option. -/
def Given.note (g : Given) (name : String) (kind : OptionKind) (value : String) : Except UsageFault Given :=
  if (g.values.lookup name).isSome then .error .repeated
  else if kind.allows value then .ok { g with values := (name, value) :: g.values }
  else .error .badValue

/-- Looks at the value of the last option. -/
def Given.settle (g : Given) : Except UsageFault Given :=
  match g.pending with
  | none => .ok g
  | some p =>
    match p.value with
    | none => .error .badValue
    | some v => Given.note { g with pending := none } p.name p.kind v

/-- An option with its name spelled out. -/
def Given.longOption (g : Given) (grammar : Grammar) (body : String) : Except UsageFault Given :=
  let cs := body.toList
  let name := String.ofList (cs.takeWhile (· != '='))
  let attached := match cs.dropWhile (· != '=') with
    | [] => none
    | _ :: v => some (String.ofList v)
  match grammar.options.lookup name, attached with
  | none, _ => .error .unknownArgument
  | some .flag, none => do (← g.settle).note name .flag ""
  | some .help, none => do let _ ← g.settle; .error .helpAsked
  | some .flag, some _ | some .help, some _ => .error .unwantedValue
  | some kind, some v => do (← g.settle).note name kind v
  | some kind, none => do return { ← g.settle with pending := some ⟨name, kind, none⟩ }

/-- Options of one letter; help is the only one. -/
def Given.shortOptions (g : Given) (cs : List Char) : Except UsageFault Given :=
  match cs with
  | 'h' :: _ => do let _ ← g.settle; .error .helpAsked
  | _ => .error .unknownArgument

/-- What ends one part of a command line: the arguments, or the name of a command with what follows. -/
inductive Ending where
  | arguments
  | command (name : String) (rest : List String)

/-- An argument that is neither an option nor the value of one. -/
def strayFault (grammar : Grammar) (trailing : Bool) (a : String) : UsageFault :=
  if grammar.commands.isEmpty || (trailing && grammar.commands.contains a) then .unknownArgument else .unknownCommand

/-- Reads one part of a command line. -/
def readPart (grammar : Grammar) : Given → List String → Except UsageFault (Given × Ending)
  | g, [] => .ok (g, .arguments)
  | g, a :: rest =>
    if g.trailing then .error (strayFault grammar true a)
    else if !g.awaitsValue && grammar.commands.contains a then .ok (g, .command a rest)
    else
      match a.toList with
      | ['-', '-'] => readPart grammar { g with trailing := true } rest
      | '-' :: '-' :: body => do readPart grammar (← g.longOption grammar (String.ofList body)) rest
      | '-' :: c :: cs => do readPart grammar (← g.shortOptions (c :: cs)) rest
      | _ =>
        match g.pending with
        | some ⟨name, kind, none⟩ => readPart grammar { g with pending := some ⟨name, kind, some a⟩ } rest
        | _ => .error (strayFault grammar false a)

/-- The options of a command: all of its arguments. -/
def readOptions (grammar : Grammar) (args : List String) : Except UsageFault (List (String × String)) := do
  let (g, _) ← readPart grammar .nothing args
  return (← g.settle).values

/-- The format of a plan by its name. -/
def formatOf (values : List (String × String)) : PlanFormat :=
  if values.lookup "format" = some "json" then .json else .text

/-- The command of a name. -/
def readCommand (name : String) (args : List String) : Except UsageFault Command := do
  match name with
  | "build" =>
    let vs ← readOptions buildGrammar args
    return .build (vs.lookup "machine") (vs.lookup "output")
  | "plan" =>
    let vs ← readOptions planGrammar args
    return .plan (vs.lookup "machine") (formatOf vs)
  | _ =>
    -- Help on a command: at most one name, which must be that of a command.
    match args with
    | [] => .error .helpAsked
    | [a] => .error (if programGrammar.commands.contains a then .helpAsked else .unknownCommand)
    | _ => .error .unknownCommand

/-- Reads a command line without the program's name. -/
def parse (args : List String) : Except UsageFault Arguments := do
  let (g, ending) ← readPart programGrammar .nothing args
  match ending with
  | .command name rest =>
    let command ← readCommand name rest
    let vs := (← g.settle).values
    return {
      command
      workspace := (vs.lookup "workspace").getD "."
      config := vs.lookup "config"
      verbose := (vs.lookup "verbose").isSome
      logLevel := vs.lookup "log-level"
      logFormat := vs.lookup "log-format"
      logOutput := vs.lookup "log-output"
      logFile := vs.lookup "log-file" }
  | .arguments =>
    let g ← g.settle
    .error (if g.values.isEmpty then .nothingGiven else .missingCommand)

end Arguments

end DispatchTree
