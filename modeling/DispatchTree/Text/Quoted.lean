import DispatchTree.Text.Combining
import DispatchTree.Text.Printable

/-!
# Quoted text in messages

Texts from outside are quoted in messages so that they stay on one line: control characters, characters that cannot be shown and
combining characters are written as escapes. A quote is escaped only where it would end the quotation.
-/

namespace DispatchTree.Text

/-- A code point as an escape with lower-case hexadecimal digits. -/
def codePoint (c : Char) : String := "\\u\x7b" ++ String.ofList (Nat.toDigits 16 c.toNat) ++ "\x7d"

/-- Which characters need an escape of their own. -/
structure Quoting where
  /-- Whether a single quote is escaped. -/
  single : Bool
  /-- Whether a double quote is escaped. -/
  double : Bool
  /-- Whether a combining character is escaped. -/
  combining : Bool

/-- A character as it stands in quoted text. -/
def quoteChar (q : Quoting) (c : Char) : String :=
  if c = '\x00' then "\\0"
  else if c = '\t' then "\\t"
  else if c = '\r' then "\\r"
  else if c = '\n' then "\\n"
  else if c = '\\' then "\\\\"
  else if c = '"' then (if q.double then "\\\"" else "\"")
  else if c = '\'' then (if q.single then "\\'" else "'")
  else if q.combining && isCombining c then codePoint c
  else if isPrintable c then String.singleton c
  else codePoint c

/-- A text between double quotes. -/
def quote (s : String) : String :=
  "\"" ++ String.join (s.toList.map (quoteChar ⟨false, true, true⟩)) ++ "\""

/-- A character between single quotes. -/
def quoteSingle (c : Char) : String := "'" ++ quoteChar ⟨true, false, true⟩ c ++ "'"

/-- A text with escapes and without quotes around it: both quotes are escaped, and a combining character only at the start. -/
def escaped (s : String) : String :=
  match s.toList with
  | [] => ""
  | c :: cs => quoteChar ⟨true, true, true⟩ c ++ String.join (cs.map (quoteChar ⟨true, true, false⟩))

end DispatchTree.Text
