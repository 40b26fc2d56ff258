import DispatchTree.Screen.Display

/-!
# Displays as they are seen from outside

A device takes characters one at a time and may answer with replies. It is not part of this library: `Device.Lawful` says what is
known of one, as the texts sent to it and what they do to its grid of cells and to its cursor. `Device.Sends` is the statement
that a text, sent to a device in some state, is answered by certain replies and leaves the grid and the cursor in a certain way;
texts are put together by `Sends.append`. Less is known of a device that is only drawn on (`Device.Draws`).
-/

namespace DispatchTree

/-- What stands in the cells of a grid, by row and column. -/
abbrev Cells := Nat → Nat → Char

/-- A display: the size of its grid, what it shows, where its cursor is, and what it does with a character. Rows and columns count
from one. -/
structure Device where
  State : Type
  rows : Nat
  columns : Nat
  /-- Every control sequence begun has been finished. -/
  ready : State → Prop
  cell : State → Cells
  cursor : State → Nat × Nat
  /-- What a character leads to, and the replies it causes. -/
  receive : State → Char → State × List String

/-- The control characters: neither shown nor part of a shown text. -/
def isControlChar (c : Char) : Bool := c.toNat < 32 || (127 ≤ c.toNat && c.toNat < 160)

/-- A text in which every character is shown. -/
def Shown (text : String) : Prop := ∀ c ∈ text.toList, isControlChar c = false

instance (text : String) : Decidable (Shown text) :=
  decidable_of_iff ((text.toList.all fun c => !isControlChar c) = true) (by simp [Shown])

/-- The sixteen bits that give zero when they are added to a character's code. -/
def complement (c : Char) : BitVec 16 := -(BitVec.ofNat 16 c.toNat)

/-- The complement of a character as four hexadecimal digits in upper case. -/
def complementDigits (c : Char) : String :=
  String.ofList ([12, 8, 4, 0].map fun shift => (Nat.digitChar (((complement c) >>> shift).toNat % 16)).toUpper)

/-- What a device replies to a request, under the request's number, for a cell that holds a character. -/
def replyText (id : Nat) (c : Char) : String := "\x1bP" ++ Nat.repr id ++ "!~" ++ complementDigits c ++ "\x1b\\"

/-- The grid with a character put in one cell. -/
def Cells.put (cells : Cells) (row col : Nat) (c : Char) : Cells :=
  fun r k => if r = row ∧ k = col then c else cells r k

/-- The grid with the rectangle with corners `(top, left)` and `(bottom, right)` copied to `(row, col)`, as it was before. -/
def Cells.copy (cells : Cells) (top left bottom right row col : Nat) : Cells := fun r k =>
  if row ≤ r ∧ r ≤ row + (bottom - top) ∧ col ≤ k ∧ k ≤ col + (right - left) then cells (top + (r - row)) (left + (k - col))
  else cells r k

namespace Device

variable (D : Device)

/-- What characters lead to, one after the other, and the replies they cause. -/
def feed : D.State → List Char → D.State × List String
  | s, [] => (s, [])
  | s, c :: cs => ((feed (D.receive s c).1 cs).1, (D.receive s c).2 ++ (feed (D.receive s c).1 cs).2)

/-- What a text leads to. -/
def send (s : D.State) (text : String) : D.State × List String := D.feed s text.toList

/-- Sent in a state, a text is answered by the replies and leaves the grid and the cursor as the condition says. -/
def Sends (s : D.State) (text : String) (replies : List String) (post : Cells → Nat × Nat → Prop) : Prop :=
  D.ready (D.send s text).1 ∧ (D.send s text).2 = replies ∧ post (D.cell (D.send s text).1) (D.cursor (D.send s text).1)

/-- A cell of the grid. -/
def InGrid (row col : Nat) : Prop := 1 ≤ row ∧ row ≤ D.rows ∧ 1 ≤ col ∧ col ≤ D.columns

/-- What is known of every device here. Where the cursor is after a copy is left open. -/
structure Basic : Prop where
  /-- The cursor can be placed anywhere in the grid. -/
  place : ∀ s row col, D.ready s → D.InGrid row col →
    D.Sends s ("\x1b[" ++ Nat.repr row ++ ";" ++ Nat.repr col ++ "H") [] fun cells cursor =>
      cells = D.cell s ∧ cursor = (row, col)
  /-- A rectangle can be copied within the grid. -/
  copy : ∀ s top left bottom right row col, D.ready s → top ≤ bottom → left ≤ right → D.InGrid top left →
    D.InGrid bottom right → D.InGrid row col → D.InGrid (row + (bottom - top)) (col + (right - left)) →
    D.Sends s ("\x1b[" ++ Nat.repr top ++ ";" ++ Nat.repr left ++ ";" ++ Nat.repr bottom ++ ";" ++ Nat.repr right ++ ";1;" ++
      Nat.repr row ++ ";" ++ Nat.repr col ++ ";1$v") [] fun cells _ =>
      cells = (D.cell s).copy top left bottom right row col

/-- What is known of a device that is ready. -/
structure Lawful : Prop extends D.Basic where
  /-- The cursor is in the grid. -/
  cursor_inGrid : ∀ s, D.ready s → D.InGrid (D.cursor s).1 (D.cursor s).2
  /-- The whole grid can be cleared. -/
  clear : ∀ s, D.ready s → D.Sends s "\x1b[2J" [] fun cells cursor => cells = (fun _ _ => ' ') ∧ cursor = D.cursor s
  /-- The row of the cursor can be cleared. -/
  clearLine : ∀ s, D.ready s → D.Sends s "\x1b[2K" [] fun cells cursor =>
    cells = (fun r k => if r = (D.cursor s).1 then ' ' else D.cell s r k) ∧ cursor = D.cursor s
  /-- A character that is shown is stored under the cursor, which advances and stays in its row. -/
  print : ∀ s c, D.ready s → isControlChar c = false → D.Sends s (String.singleton c) [] fun cells cursor =>
    cells = (D.cell s).put (D.cursor s).1 (D.cursor s).2 c ∧ cursor.1 = (D.cursor s).1 ∧
      ((D.cursor s).2 < D.columns → cursor.2 = (D.cursor s).2 + 1)
  /-- A request for the checksum of one cell is answered under the request's number. -/
  request : ∀ s id row col, D.ready s → D.InGrid row col →
    D.Sends s ("\x1b[" ++ Nat.repr id ++ ";1;" ++ Nat.repr row ++ ";" ++ Nat.repr col ++ ";" ++ Nat.repr row ++ ";" ++
      Nat.repr col ++ "*y") [replyText id (D.cell s row col)] fun cells cursor =>
      cells = D.cell s ∧ cursor = D.cursor s

/-- What drawing needs of a device. Where the cursor is after a character is left open. -/
structure Draws : Prop extends D.Basic where
  /-- A printable character is stored under the cursor. -/
  print : ∀ s c, D.ready s → D.InGrid (D.cursor s).1 (D.cursor s).2 → ' ' ≤ c → c ≤ '~' →
    D.Sends s (String.singleton c) [] fun cells _ => cells = (D.cell s).put (D.cursor s).1 (D.cursor s).2 c

/-- A request for the checksum of one cell is answered in some way that depends on its number, its cell and the grid, which it
leaves. -/
def Answers (answer : Nat → Nat → Nat → Cells → List String) : Prop := ∀ s id row col, D.ready s → D.InGrid row col →
  D.Sends s ("\x1b[" ++ Nat.repr id ++ ";1;" ++ Nat.repr row ++ ";" ++ Nat.repr col ++ ";" ++ Nat.repr row ++ ";" ++
    Nat.repr col ++ "*y") (answer id row col (D.cell s)) fun cells _ => cells = D.cell s

variable {D}

/-! ## Texts one after the other -/

/-- Characters after characters lead to what the second lead to from where the first have led. -/
theorem feed_append (s : D.State) (as bs : List Char) :
    D.feed s (as ++ bs) = ((D.feed (D.feed s as).1 bs).1, (D.feed s as).2 ++ (D.feed (D.feed s as).1 bs).2) := by
  induction as generalizing s with
  | nil => rfl
  | cons a as ih => simp only [List.cons_append, feed, ih, List.append_assoc]

/-- A text after a text leads to what the second leads to from where the first has led. -/
theorem send_append (s : D.State) (a b : String) :
    D.send s (a ++ b) = ((D.send (D.send s a).1 b).1, (D.send s a).2 ++ (D.send (D.send s a).1 b).2) := by
  rw [send, String.toList_append, feed_append]
  rfl

/-- A text after a text: what the second does is said of every state that the first may leave. -/
theorem Sends.append {s : D.State} {a b : String} {q r : List String} {mid post : Cells → Nat × Nat → Prop}
    (ha : D.Sends s a q mid)
    (hb : ∀ s', D.ready s' → mid (D.cell s') (D.cursor s') → D.Sends s' b r post) : D.Sends s (a ++ b) (q ++ r) post := by
  obtain ⟨h1, h2, h3⟩ := hb _ ha.1 ha.2.2
  unfold Sends
  rw [send_append]
  exact ⟨h1, by rw [ha.2.1, h2], h3⟩

/-- What holds after a text may be weakened. -/
theorem Sends.imp {s : D.State} {a : String} {r : List String} {post post' : Cells → Nat × Nat → Prop}
    (h : D.Sends s a r post) (hi : ∀ cells cursor, post cells cursor → post' cells cursor) : D.Sends s a r post' :=
  ⟨h.1, h.2.1, hi _ _ h.2.2⟩

/-- The empty text does nothing. -/
theorem sends_empty {s : D.State} (hs : D.ready s) : D.Sends s "" [] fun cells cursor => cells = D.cell s ∧ cursor = D.cursor s :=
  ⟨hs, rfl, rfl, rfl⟩

/-! ## Lawful devices can be drawn on -/

/-- Printable characters are shown. -/
theorem isControlChar_of_printable {c : Char} (h1 : ' ' ≤ c) (h2 : c ≤ '~') : isControlChar c = false := by
  have hlower : 32 ≤ c.toNat := h1
  have hupper : c.toNat ≤ 126 := h2
  simp only [isControlChar, Bool.or_eq_false_iff, Bool.and_eq_false_iff, decide_eq_false_iff_not]
  omega

/-- A lawful device can be drawn on. -/
theorem Lawful.draws (h : D.Lawful) : D.Draws where
  toBasic := h.toBasic
  print s c hs _ h1 h2 := (h.print s c hs (isControlChar_of_printable h1 h2)).imp fun _ _ hp => hp.1

/-- A lawful device answers requests with the checksum of the cell. -/
theorem Lawful.answers (h : D.Lawful) : D.Answers fun id row col cells => [replyText id (cells row col)] :=
  fun s id row col hs hg => (h.request s id row col hs hg).imp fun _ _ hp => hp.1

end Device

end DispatchTree
