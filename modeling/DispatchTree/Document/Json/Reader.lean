import DispatchTree.Document.Json.Number

/-!
# Reading JSON

The reader is a machine that takes one character at a time (`Reader.step`), so that reading a text is a fold over its characters.
It never backs up: where a text stops making sense the machine keeps what it has read as a draft whose open lists and tables are
not closed, and takes no notice of the rest.
-/

namespace DispatchTree.Json

/-- A list or table that is being read, without the value in progress. The members already read stand last one first. -/
inductive Frame where
  /-- The items before the one in progress. -/
  | list (items : List Draft)
  /-- The entries before the one in progress, and its key. -/
  | table (entries : List (Option String × Draft)) (key : Option String)
  deriving Repr, BEq

/-- What may come next outside of a token. -/
inductive Place where
  /-- A value. -/
  | value
  /-- The first item of a list, or its end. -/
  | firstItem
  /-- A key; before the first one also the end of the table. -/
  | key (entries : List (Option String × Draft)) (first : Bool)
  /-- The colon after a key. -/
  | colon (entries : List (Option String × Draft)) (key : Option String)
  /-- A comma or the end of the list or table, after a value. -/
  | after (value : Draft)
  deriving Repr, BEq

/-- How far a number has been read. -/
inductive Phase where
  | minus | zero | whole | point | fraction | mark | sign | exponent
  deriving DecidableEq, Repr

/-- The token that is being read. -/
inductive Lexeme where
  | none
  /-- A literal name: the letters still to come and the value it stands for. -/
  | word (rest : List Char) (value : Draft)
  /-- A number, its digits last one first. -/
  | number (text : NumberText) (phase : Phase)
  /-- A string: the code units read so far, last one first. A raw character is one unit. -/
  | string (units : List Nat)
  /-- The character after a backslash. -/
  | escape (units : List Nat)
  /-- A code unit in hexadecimal: the value so far and the number of digits to come. -/
  | hex (units : List Nat) (value : Nat) (left : Nat)
  deriving Repr, BEq

/-- The state of the reader. -/
inductive Reader where
  | reading (stack : List Frame) (place : Place) (lexeme : Lexeme)
  /-- The whole value has been read; only blanks may follow. -/
  | ended (root : Draft)
  /-- The text does not make sense here; `root` is what was read of the value. -/
  | failed (root : Draft)
  deriving Repr, BEq

/-- The characters between tokens. -/
def isJsonBlank (c : Char) : Bool := c == ' ' || c == '\t' || c == '\n' || c == '\r'

/-- The first of two code units that stand for one character. -/
def isHighSurrogate (n : Nat) : Bool := 0xd800 ≤ n && n ≤ 0xdbff

/-- The second of two code units that stand for one character. -/
def isLowSurrogate (n : Nat) : Bool := 0xdc00 ≤ n && n ≤ 0xdfff

/-- The characters that code units stand for; half of a surrogate pair stands for none. -/
def charsOfUnits? : List Nat → Option (List Char)
  | [] => some []
  | h :: rest =>
    if isHighSurrogate h then
      match rest with
      | l :: rest' =>
        if isLowSurrogate l then
          (charsOfUnits? rest').map (Char.ofNat (0x10000 + (h - 0xd800) * 0x400 + (l - 0xdc00)) :: ·)
        else none
      | [] => none
    else if isLowSurrogate h then none
    else (charsOfUnits? rest).map (Char.ofNat h :: ·)

/-- The text that code units, last one first, stand for. -/
def textOfUnits? (units : List Nat) : Option String := (charsOfUnits? units.reverse).map String.ofList

namespace Reader

/-- The reader before the first character. -/
def start : Reader := .reading [] .value .none

/-- What was read when the lists and tables on the stack are cut short after an optional last value. -/
def cutShort : List Frame → Option Draft → Draft
  | [], d => d.getD .broken
  | .list items :: stack, d => cutShort stack (some (.list (d.toList ++ items).reverse false))
  | .table entries key :: stack, d => cutShort stack (some (.table ((key, d.getD .broken) :: entries).reverse false))

/-- The reader gives up at a place. -/
def fail (stack : List Frame) : Place → Reader
  | .value => .failed (cutShort stack none)
  | .firstItem => .failed (cutShort stack (some (.list [] false)))
  | .key entries _ => .failed (cutShort stack (some (.table entries.reverse false)))
  | .colon entries key => .failed (cutShort stack (some (.table ((key, .broken) :: entries).reverse false)))
  | .after d => .failed (cutShort stack (some d))

/-- A value has been read. -/
def complete (stack : List Frame) (d : Draft) : Reader :=
  if stack.isEmpty then .ended d else .reading stack (.after d) .none

/-- The stack under a value that begins at a place. -/
def pushed (stack : List Frame) : Place → List Frame
  | .firstItem => .list [] :: stack
  | _ => stack

/-- A character that begins a value. -/
def beginValue (stack : List Frame) (place : Place) (c : Char) : Reader :=
  let under := pushed stack place
  if c = '[' then .reading under .firstItem .none
  else if c = '\x7b' then .reading under (.key [] true) .none
  else if c = '"' then .reading under .value (.string [])
  else if c = '-' then .reading under .value (.number ⟨true, [], [], none⟩ .minus)
  else if c = '0' then .reading under .value (.number ⟨false, [c], [], none⟩ .zero)
  else if c.isDigit then .reading under .value (.number ⟨false, [c], [], none⟩ .whole)
  else if c = 'n' then .reading under .value (.word ['u', 'l', 'l'] .null)
  else if c = 't' then .reading under .value (.word ['r', 'u', 'e'] (.boolean true))
  else if c = 'f' then .reading under .value (.word ['a', 'l', 's', 'e'] (.boolean false))
  else fail stack place

/-- A character after a value. -/
def afterValue (stack : List Frame) (d : Draft) (c : Char) : Reader :=
  match stack with
  | .list items :: rest =>
    if c = ',' then .reading (.list (d :: items) :: rest) .value .none
    else if c = ']' then complete rest (.list (d :: items).reverse true)
    else fail stack (.after d)
  | .table entries key :: rest =>
    if c = ',' then .reading rest (.key ((key, d) :: entries) false) .none
    else if c = '\x7d' then complete rest (.table ((key, d) :: entries).reverse true)
    else fail stack (.after d)
  | [] => .failed d

/-- A character outside of a token. -/
def between (stack : List Frame) (place : Place) (c : Char) : Reader :=
  if isJsonBlank c then .reading stack place .none
  else
    match place with
    | .value => beginValue stack .value c
    | .firstItem => if c = ']' then complete stack (.list [] true) else beginValue stack .firstItem c
    | .key entries first =>
      if c = '"' then .reading stack place (.string [])
      else if c = '\x7d' ∧ first then complete stack (.table entries.reverse true)
      else fail stack place
    | .colon entries key => if c = ':' then .reading (.table entries key :: stack) .value .none else fail stack place
    | .after d => afterValue stack d c

/-- Any character when no token is open. -/
def outside (r : Reader) (c : Char) : Reader :=
  match r with
  | .reading stack place _ => between stack place c
  | .ended root => if isJsonBlank c then .ended root else .failed root
  | .failed root => .failed root

/-- A string has been read: it is a key or a value. -/
def completeString (stack : List Frame) (place : Place) (units : List Nat) : Reader :=
  match place with
  | .key entries _ => .reading stack (.colon entries (textOfUnits? units)) .none
  | _ => complete stack (match textOfUnits? units with | some s => .string s | none => .unreadable)

/-- A number with its digits in the order of the text. -/
def inOrder (t : NumberText) : NumberText :=
  ⟨t.negative, t.whole.reverse, t.fraction.reverse, t.exponent.map fun e => (e.1, e.2.reverse)⟩

/-- Whether a number may end in a phase. -/
def mayEnd : Phase → Bool
  | .zero | .whole | .fraction | .exponent => true
  | _ => false

/-- The number with one more digit, in the phase it is in. -/
def addDigit (t : NumberText) (c : Char) : Phase → NumberText × Phase
  | .minus => (⟨t.negative, [c], t.fraction, t.exponent⟩, if c = '0' then .zero else .whole)
  | .zero | .whole => (⟨t.negative, c :: t.whole, t.fraction, t.exponent⟩, .whole)
  | .point | .fraction => (⟨t.negative, t.whole, c :: t.fraction, t.exponent⟩, .fraction)
  | .mark => (⟨t.negative, t.whole, t.fraction, some (false, [c])⟩, .exponent)
  | .sign | .exponent =>
    (⟨t.negative, t.whole, t.fraction, t.exponent.map fun e => (e.1, c :: e.2)⟩, .exponent)

/-- The next phase of a number for a character that is no digit, if the number goes on. -/
def addMark (t : NumberText) (c : Char) : Phase → Option (NumberText × Phase)
  | .zero | .whole =>
    if c = '.' then some (t, .point) else if c = 'e' ∨ c = 'E' then some (t, .mark) else none
  | .fraction => if c = 'e' ∨ c = 'E' then some (t, .mark) else none
  | .mark =>
    if c = '+' ∨ c = '-' then some (⟨t.negative, t.whole, t.fraction, some (c == '-', [])⟩, .sign) else none
  | _ => none

/-- A character while a number is open. No digit follows a leading zero. -/
def inNumber (stack : List Frame) (place : Place) (t : NumberText) (phase : Phase) (c : Char) : Reader :=
  if c.isDigit then
    if phase = .zero then fail stack place
    else
      let (t, phase) := addDigit t c phase
      .reading stack place (.number t phase)
  else
    match addMark t c phase with
    | some (t, phase) => .reading stack place (.number t phase)
    | none => if mayEnd phase then outside (complete stack (inOrder t).value) c else fail stack place

/-- The code unit of a one-letter escape. -/
def escapeUnit? (c : Char) : Option Nat :=
  if c = '"' ∨ c = '\\' ∨ c = '/' then some c.toNat
  else if c = 'b' then some 8
  else if c = 'f' then some 12
  else if c = 'n' then some 10
  else if c = 'r' then some 13
  else if c = 't' then some 9
  else none

/-- One character of the text. -/
def step (r : Reader) (c : Char) : Reader :=
  match r with
  | .reading stack place lexeme =>
    match lexeme with
    | .none => between stack place c
    | .word rest value =>
      match rest with
      | [] => fail stack place
      | w :: rest =>
        if c = w then (if rest.isEmpty then complete stack value else .reading stack place (.word rest value))
        else fail stack place
    | .number t phase => inNumber stack place t phase c
    | .string units =>
      if c = '"' then completeString stack place units
      else if c = '\\' then .reading stack place (.escape units)
      else if c.toNat < 0x20 then fail stack place
      else .reading stack place (.string (c.toNat :: units))
    | .escape units =>
      if c = 'u' then .reading stack place (.hex units 0 4)
      else
        match escapeUnit? c with
        | some n => .reading stack place (.string (n :: units))
        | none => fail stack place
    | .hex units value left =>
      match digitIn? 16 c with
      | some d =>
        if left ≤ 1 then .reading stack place (.string ((16 * value + d) :: units))
        else .reading stack place (.hex units (16 * value + d) (left - 1))
      | none => fail stack place
  | .ended _ | .failed _ => outside r c

/-- What was read when the text ends: the draft, and whether nothing but blanks follows the value. -/
def finish : Reader → Draft × Bool
  | .ended root => (root, true)
  | .failed root => (root, false)
  | .reading stack place lexeme =>
    let given := match lexeme with
      | .number t phase => if mayEnd phase then complete stack (inOrder t).value else fail stack place
      | _ => fail stack place
    match given with
    | .ended root => (root, true)
    | .failed root => (root, false)
    | .reading stack place _ =>
      match fail stack place with
      | .failed root => (root, false)
      | _ => (.broken, false)

end Reader

/-- Reads a text: what there is of a value, and whether nothing but blanks follows it. -/
def read (s : String) : Draft × Bool := (s.toList.foldl Reader.step .start).finish

/-- How many lists and tables may lie within each other in a value that is read as a whole. -/
def maxDepth : Nat := 127

/-- The value of a text that is one complete value. -/
def parse? (s : String) : Option Document :=
  match read s with
  | (d, true) => d.complete? maxDepth
  | (_, false) => none

end DispatchTree.Json
