import DispatchTree.Tape.Action
import DispatchTree.Screen.Control

/-!
# Display geometry and screen programs

A display is a number of columns, a sixteen-bit word. Each track is a window on one line, with the head in the middle column;
moving a head slides the window. Below the tracks is the status line.

Sliding a window to the left needs the column before the last one. A display without columns has none, and the sixteen-bit
subtraction does not wrap: such a program cannot be rendered (`Underflow`).
-/

namespace DispatchTree

/-- The number of columns a track spans. -/
structure Display where
  width : UInt16
  deriving DecidableEq, Repr

/-- A column before the first one was asked for. -/
inductive Underflow where
  | noColumns
  deriving DecidableEq, Repr

/-- How the underflow is reported. -/
def Underflow.message : Underflow → String
  | .noColumns => "attempt to subtract with overflow"

/-- The line that shows the prompt and the messages. -/
def statusLine : Nat := 3

/-- The text below every halt message. -/
def haltFooter : String := "Press ^C to close"

/-- The number of characters a halt message takes at least. -/
def haltMessageWidth : Nat := 30

/-- A text followed by as many spaces as bring it to `width` characters. -/
def padRight (s : String) (width : Nat) : String := s.pushn ' ' (width - s.length)

namespace Display

/-- The display used unless a width is given. -/
def standard : Display := ⟨120⟩

instance : Inhabited Display := ⟨standard⟩

/-- The number of columns. -/
def columns (d : Display) : Nat := d.width.toNat

/-- The column of the heads. -/
def headColumn (d : Display) : Nat := d.columns / 2

/-- Asks for the checksum of the cell under a track's head. -/
def requestChecksum (d : Display) (t : Track) : Control :=
  .request t.line t.line d.headColumn t.line d.headColumn

/-- Slides a track's window so that the head is one cell further right. -/
def shiftRight (d : Display) (t : Track) : List Control :=
  [.copy t.line 2 t.line d.columns t.line 1, .cursor t.line d.columns, .text Symbol.blank.text]

/-- Slides a track's window so that the head is one cell further left. -/
def shiftLeft (d : Display) (t : Track) : Except Underflow (List Control) :=
  if d.columns = 0 then .error .noColumns
  else .ok [.copy t.line 1 t.line (d.columns - 1) t.line 2, .cursor t.line 1, .text Symbol.blank.text]

/-- Slides a track's window by a move. -/
def shift (d : Display) (t : Track) : Move → Except Underflow (List Control)
  | .left => d.shiftLeft t
  | .right => .ok (d.shiftRight t)
  | .stay => .ok []

/-- Writes under the head of a track and then slides its window. -/
def writeTrack (d : Display) (t : Track) (op : TrackOp) : Except Underflow (List Control) :=
  (d.shift t op.shift).map fun slide =>
    [.cursor t.line d.headColumn, .text op.write.text, .cursor statusLine 1] ++ slide

/-- Parks the cursor on the status line and asks for both checksums. -/
def requestBoth (d : Display) : List Control :=
  .cursor statusLine 1 :: Track.both.map d.requestChecksum

/-- One machine step: both tracks are written and moved, then both checksums are asked for. -/
def stepProgram (d : Display) (first second : TrackOp) : Except Underflow (List Control) := do
  let one ← d.writeTrack .first first
  let two ← d.writeTrack .second second
  return one ++ two ++ d.requestBoth

/-- Shows a message and the footer. -/
def haltProgram (message : String) : List Control :=
  [.cursor statusLine 1, .text (padRight message haltMessageWidth), .cursor (statusLine + 1) 1, .text haltFooter,
    .cursor (statusLine + 2) 1]

/-- A track of blanks. -/
def blankTrack (d : Display) (t : Track) : List Control :=
  [.cursor t.line 1, .text ("".pushn Symbol.blank.toChar d.columns)]

/-- Clears the display, paints two tracks of blanks, shows the prompt and leaves the cursor under the first head. -/
def initProgram (d : Display) (prompt : String) : List Control :=
  .clear :: Track.both.flatMap d.blankTrack ++
    [.cursor statusLine 1, .text prompt, .cursor Track.first.line d.headColumn]

/-- Marks the head's column once the operator has typed the input, and asks for the first two symbols. -/
def postInitProgram (d : Display) : List Control :=
  [.cursor statusLine d.headColumn, .clearLine, .text "^"] ++ d.requestBoth

end Display

end DispatchTree
