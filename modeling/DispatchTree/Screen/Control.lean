/-!
# Screen commands

What a screen program is made of: text to show at the cursor and the control sequences of the display. A program is a list of
commands; `Control.encode` is the characters sent for one of them. Rows and columns count from one.
-/

namespace DispatchTree

/-- One command to the display. -/
inductive Control where
  /-- Characters shown from the cursor onwards. -/
  | text (s : String)
  /-- The whole display becomes empty. -/
  | clear
  /-- The line of the cursor becomes empty. -/
  | clearLine
  /-- The cursor goes to a cell. -/
  | cursor (row col : Nat)
  /-- The rectangle with corners `(top, left)` and `(bottom, right)` is copied so that its first corner lands on `(row, col)`. -/
  | copy (top left bottom right row col : Nat)
  /-- The display reports the checksum of the rectangle with corners `(top, left)` and `(bottom, right)` under the number `id`. -/
  | request (id top left bottom right : Nat)
  deriving DecidableEq, Repr

namespace Control

/-- The character that opens every control sequence. -/
def escape : Char := '\x1b'

/-- A control sequence: numbers divided by semicolons, then the letters that name it. -/
def sequence (args : List Nat) (final : String) : String :=
  String.singleton escape ++ "[" ++ ";".intercalate (args.map Nat.repr) ++ final

/-- The characters sent to the display for a command. The display has pages, of which only the first is used: a copy names it for
both rectangles and a request names it after its own number. -/
def encode : Control → String
  | text s => s
  | clear => sequence [2] "J"
  | clearLine => sequence [2] "K"
  | cursor row col => sequence [row, col] "H"
  | copy top left bottom right row col => sequence [top, left, bottom, right, 1, row, col, 1] "$v"
  | request id top left bottom right => sequence [id, 1, top, left, bottom, right] "*y"

end Control

/-- The characters of a screen program. -/
def encodeAll (p : List Control) : String := String.join (p.map Control.encode)

end DispatchTree
