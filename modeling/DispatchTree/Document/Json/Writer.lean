import DispatchTree.Document.Basic
import DispatchTree.Number.Shortest

/-!
# Writing JSON

A document is written on one line without blanks (`compact`), or with one member a line and two spaces for each level (`pretty`).
Strings keep every character but the quote, the backslash and the control characters.
-/

namespace DispatchTree.Json

/-- A hexadecimal digit in lower case. -/
def hexDigit (n : Nat) : Char := if n < 10 then Char.ofNat ('0'.toNat + n) else Char.ofNat ('a'.toNat + (n - 10))

/-- A character as it stands in a string. -/
def escapeChar (c : Char) : List Char :=
  if c = '"' then ['\\', '"']
  else if c = '\\' then ['\\', '\\']
  else if c.toNat = 8 then ['\\', 'b']
  else if c.toNat = 9 then ['\\', 't']
  else if c.toNat = 10 then ['\\', 'n']
  else if c.toNat = 12 then ['\\', 'f']
  else if c.toNat = 13 then ['\\', 'r']
  else if c.toNat < 0x20 then ['\\', 'u', '0', '0', hexDigit (c.toNat / 16), hexDigit (c.toNat % 16)]
  else [c]

/-- A text between quotes. -/
def quote (s : String) : String := "\"" ++ String.ofList (s.toList.flatMap escapeChar) ++ "\""

/-- The text of a whole number. -/
def integerText (n : Int) : String := if n < 0 then "-" ++ Nat.repr n.natAbs else Nat.repr n.natAbs

/-- Numbers with a point: a half goes to the even digit, and a power of ten is written from 1e+16 on and below 1e-5. -/
def decimals : Binary64.Style := ⟨.even, some (-5, 16), true⟩

/-- The text of a value without members. -/
def scalarText : Document → String
  | .boolean b => if b then "true" else "false"
  | .integer n => integerText n
  | .float x => x.format decimals
  | .string s => quote s
  | .date s => quote s
  | _ => "null"

mutual

/-- A document on one line. -/
def compact : Document → String
  | .list items => "[" ++ compactItems items ++ "]"
  | .table entries => "\x7b" ++ compactEntries entries ++ "\x7d"
  | d => scalarText d

/-- Items divided by commas. -/
def compactItems : List Document → String
  | [] => ""
  | [d] => compact d
  | d :: ds => compact d ++ "," ++ compactItems ds

/-- Entries divided by commas. -/
def compactEntries : List (String × Document) → String
  | [] => ""
  | [(k, d)] => quote k ++ ":" ++ compact d
  | (k, d) :: es => quote k ++ ":" ++ compact d ++ "," ++ compactEntries es

end

/-- The start of a line at a level. -/
def newLine (level : Nat) : String := "\n".pushn ' ' (2 * level)

mutual

/-- A document with one member a line; `level` is the level of its last line. -/
def prettyAt (level : Nat) : Document → String
  | .list [] => "[]"
  | .list (d :: ds) => "[" ++ prettyItems (level + 1) (d :: ds) ++ newLine level ++ "]"
  | .table [] => "\x7b\x7d"
  | .table (e :: es) => "\x7b" ++ prettyEntries (level + 1) (e :: es) ++ newLine level ++ "\x7d"
  | d => scalarText d

/-- Items on lines of their own, divided by commas. -/
def prettyItems (level : Nat) : List Document → String
  | [] => ""
  | [d] => newLine level ++ prettyAt level d
  | d :: ds => newLine level ++ prettyAt level d ++ "," ++ prettyItems level ds

/-- Entries on lines of their own, divided by commas. -/
def prettyEntries (level : Nat) : List (String × Document) → String
  | [] => ""
  | [(k, d)] => newLine level ++ quote k ++ ": " ++ prettyAt level d
  | (k, d) :: es => newLine level ++ quote k ++ ": " ++ prettyAt level d ++ "," ++ prettyEntries level es

end

/-- A document with one member a line. -/
def pretty (d : Document) : String := prettyAt 0 d

end DispatchTree.Json
