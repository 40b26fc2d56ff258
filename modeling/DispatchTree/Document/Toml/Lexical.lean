import DispatchTree.Number.Literal

/-!
# Characters, keys and strings of TOML

The parts of a TOML text that lie within a line, and the strings that span several lines. A reader takes the characters from its
start and gives what it read and the characters that follow, or nothing when the text is malformed.
-/

namespace DispatchTree.Toml

/-- Blanks within a line. -/
def isBlank (c : Char) : Bool := c == ' ' || c == '\t'

/-- The text after the blanks at its start. -/
def skipBlanks (cs : List Char) : List Char := cs.dropWhile isBlank

/-- Characters that may stand in comments and, but for the delimiters, in strings. -/
def isPlain (c : Char) : Bool := c == '\t' || (0x20 ≤ c.toNat && c.toNat ≠ 0x7f)

/-- Characters of a key without quotes. -/
def isBareKey (c : Char) : Bool := c.isAlphanum || c == '_' || c == '-'

/-- The text after a line break. -/
def newline? : List Char → Option (List Char)
  | '\n' :: cs => some cs
  | '\r' :: '\n' :: cs => some cs
  | _ => none

/-- The text after a line break, or the empty text at the end. -/
def lineEnd? : List Char → Option (List Char)
  | [] => some []
  | cs => newline? cs

/-- The text after an optional comment. -/
def skipComment : List Char → List Char
  | '#' :: cs => cs.dropWhile isPlain
  | cs => cs

/-- The text after blanks, an optional comment and the end of the line. -/
def restOfLine? (cs : List Char) : Option (List Char) := lineEnd? (skipComment (skipBlanks cs))

/-- The text after blanks, comments and line breaks, as they may stand between the items of a list. -/
def skipSpace : Bool → List Char → Option (List Char)
  | _, [] => some []
  | true, '\n' :: cs => skipSpace false cs
  | true, '\r' :: '\n' :: cs => skipSpace false cs
  | true, c :: cs => if isPlain c then skipSpace true cs else none
  | false, '\n' :: cs => skipSpace false cs
  | false, '\r' :: '\n' :: cs => skipSpace false cs
  | false, '#' :: cs => skipSpace true cs
  | false, c :: cs => if isBlank c then skipSpace false cs else some (c :: cs)

/-- The character of a code point, if it is one. -/
def scalar? (n : Nat) : Option Char := if h : n.isValidChar then some (Char.ofNatAux n h) else none

/-- The character of hexadecimal digits. -/
def hexChar? (ds : List Char) : Option Char := (valueIn? 16 ds).bind scalar?

/-- The character of a one-letter escape. -/
def escape? (c : Char) : Option Char :=
  if c = 'b' then some '\x08'
  else if c = 't' then some '\t'
  else if c = 'n' then some '\n'
  else if c = 'f' then some '\x0c'
  else if c = 'r' then some '\r'
  else if c = '"' then some '"'
  else if c = '\\' then some '\\'
  else none

/-- A string within a line, after its opening quote; `acc` holds its characters, last one first. -/
def basicString (acc : List Char) : List Char → Option (String × List Char)
  | '"' :: cs => some (String.ofList acc.reverse, cs)
  | '\\' :: 'u' :: a :: b :: c :: d :: cs => do basicString ((← hexChar? [a, b, c, d]) :: acc) cs
  | '\\' :: 'U' :: a :: b :: c :: d :: e :: f :: g :: h :: cs => do
    basicString ((← hexChar? [a, b, c, d, e, f, g, h]) :: acc) cs
  | '\\' :: e :: cs => do basicString ((← escape? e) :: acc) cs
  | c :: cs => if isPlain c && c != '\\' then basicString (c :: acc) cs else none
  | [] => none

/-- A string without escapes within a line, after its opening quote. -/
def literalString (acc : List Char) : List Char → Option (String × List Char)
  | '\'' :: cs => some (String.ofList acc.reverse, cs)
  | c :: cs => if isPlain c then literalString (c :: acc) cs else none
  | [] => none

/-- Where a string of several lines stands: in its text, after a backslash at the end of a line, or in the blanks and line breaks
that such a backslash removes. -/
inductive LongMode where
  | text | lineEnding | skipping
  deriving DecidableEq

/-- A string of several lines, after its opening quotes. Up to two quotes may stand before the closing ones. -/
def longBasicString (mode : LongMode) (acc : List Char) : List Char → Option (String × List Char)
  | '\n' :: cs =>
    match mode with
    | .text => longBasicString .text ('\n' :: acc) cs
    | _ => longBasicString .skipping acc cs
  | '\r' :: '\n' :: cs =>
    match mode with
    | .text => longBasicString .text ('\n' :: acc) cs
    | _ => longBasicString .skipping acc cs
  | ' ' :: cs =>
    match mode with
    | .text => longBasicString .text (' ' :: acc) cs
    | _ => longBasicString mode acc cs
  | '\t' :: cs =>
    match mode with
    | .text => longBasicString .text ('\t' :: acc) cs
    | _ => longBasicString mode acc cs
  | c :: cs =>
    if mode = .lineEnding then none
    else
      match c, cs with
      | '"', '"' :: '"' :: '"' :: '"' :: cs => some (String.ofList ('"' :: '"' :: acc).reverse, cs)
      | '"', '"' :: '"' :: '"' :: cs => some (String.ofList ('"' :: acc).reverse, cs)
      | '"', '"' :: '"' :: cs => some (String.ofList acc.reverse, cs)
      | '"', cs => longBasicString .text ('"' :: acc) cs
      | '\\', 'u' :: a :: b :: c :: d :: cs => do longBasicString .text ((← hexChar? [a, b, c, d]) :: acc) cs
      | '\\', 'U' :: a :: b :: c :: d :: e :: f :: g :: h :: cs => do
        longBasicString .text ((← hexChar? [a, b, c, d, e, f, g, h]) :: acc) cs
      | '\\', e :: cs =>
        match escape? e with
        | some x => longBasicString .text (x :: acc) cs
        | none =>
          if e = '\n' then longBasicString .skipping acc cs
          else if e = '\r' then
            match cs with
            | '\n' :: cs => longBasicString .skipping acc cs
            | _ => none
          else if isBlank e then longBasicString .lineEnding acc cs
          else none
      | c, cs => if isPlain c && c != '\\' then longBasicString .text (c :: acc) cs else none
  | [] => none

/-- A string of several lines without escapes, after its opening quotes. -/
def longLiteralString (acc : List Char) : List Char → Option (String × List Char)
  | '\n' :: cs => longLiteralString ('\n' :: acc) cs
  | '\r' :: '\n' :: cs => longLiteralString ('\n' :: acc) cs
  | '\'' :: '\'' :: '\'' :: '\'' :: '\'' :: cs => some (String.ofList ('\'' :: '\'' :: acc).reverse, cs)
  | '\'' :: '\'' :: '\'' :: '\'' :: cs => some (String.ofList ('\'' :: acc).reverse, cs)
  | '\'' :: '\'' :: '\'' :: cs => some (String.ofList acc.reverse, cs)
  | c :: cs => if isPlain c then longLiteralString (c :: acc) cs else none
  | [] => none

/-- The text after a line break that directly follows the opening quotes. -/
def skipFirstBreak (cs : List Char) : List Char := (newline? cs).getD cs

/-- A string of any of the four kinds. -/
def string? : List Char → Option (String × List Char)
  | '"' :: '"' :: '"' :: cs => longBasicString .text [] (skipFirstBreak cs)
  | '"' :: cs => basicString [] cs
  | '\'' :: '\'' :: '\'' :: cs => longLiteralString [] (skipFirstBreak cs)
  | '\'' :: cs => literalString [] cs
  | _ => none

/-- One part of a key. -/
def simpleKey? : List Char → Option (String × List Char)
  | '"' :: cs => basicString [] cs
  | '\'' :: cs => literalString [] cs
  | cs =>
    let name := cs.takeWhile isBareKey
    if name.isEmpty then none else some (String.ofList name, cs.dropWhile isBareKey)

/-- How many parts a key may have, and one more than the number of lists and tables within each other. -/
def limit : Nat := 80

/-- The parts of a key that are still allowed, divided by points; blanks may stand around each part. -/
def keyParts : Nat → List Char → Option (List String × List Char)
  | 0, _ => none
  | n + 1, cs => do
    let (name, cs) ← simpleKey? (skipBlanks cs)
    match skipBlanks cs with
    | '.' :: cs => do
      let (names, cs) ← keyParts n cs
      return (name :: names, cs)
    | cs => return ([name], cs)

/-- A key of one or more parts. -/
def key? (cs : List Char) : Option (List String × List Char) := keyParts (limit - 1) cs

end DispatchTree.Toml
