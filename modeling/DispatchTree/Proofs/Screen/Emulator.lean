import DispatchTree.Proofs.Screen.Drawing

/-!
# A device that obeys the laws

The laws of `Device.Lawful` are met by a display that reads its input character by character: `Emulator.Reading` says how far it
has read a control sequence, numbers are read digit by digit, and the last character of a sequence performs it. At the right edge
the cursor stays. `Emulator.lawful_device` is proved for a grid of any size.
-/

namespace DispatchTree

/-- How far a control sequence has been read. -/
inductive Emulator.Reading where
  | ground
  | escaped
  /-- The arguments before the last semicolon, and the number after it as far as it has been read. -/
  | arguments (done : List Nat) (current : Nat)
  /-- All arguments, and the first of two characters that name the sequence. -/
  | marked (args : List Nat) (mark : Char)
  deriving DecidableEq, Repr

/-- What a display shows, where its cursor is, and what it has read. -/
structure Emulator where
  cells : Cells
  cursor : Nat × Nat
  reading : Emulator.Reading

namespace Emulator

/-- A display that shows nothing and has its cursor in the first cell. -/
def blank : Emulator := ⟨fun _ _ => ' ', (1, 1), .ground⟩

/-- What a control sequence does, by the characters that name it and its arguments, and the replies it causes. -/
def perform (e : Emulator) : List Char → List Nat → Emulator × List String
  | ['H'], [row, col] => ({ e with cursor := (row, col) }, [])
  | ['J'], [2] => ({ e with cells := fun _ _ => ' ' }, [])
  | ['K'], [2] => ({ e with cells := fun r k => if r = e.cursor.1 then ' ' else e.cells r k }, [])
  | ['$', 'v'], [top, left, bottom, right, 1, row, col, 1] => ({ e with cells := e.cells.copy top left bottom right row col }, [])
  | ['*', 'y'], [id, 1, top, left, bottom, right] =>
    (e, if top = bottom ∧ left = right then [replyText id (e.cells top left)] else [])
  | _, _ => (e, [])

/-- What a character leads to, and the replies it causes, on a grid with so many columns. -/
def receive (columns : Nat) (e : Emulator) (c : Char) : Emulator × List String :=
  match e.reading with
  | .ground =>
    if c = Control.escape then ({ e with reading := .escaped }, [])
    else if isControlChar c then (e, [])
    else ({ e with cells := e.cells.put e.cursor.1 e.cursor.2 c, cursor := (e.cursor.1, min (e.cursor.2 + 1) columns) }, [])
  | .escaped => ({ e with reading := if c = '[' then .arguments [] 0 else .ground }, [])
  | .arguments done n =>
    if c.isDigit then ({ e with reading := .arguments done (10 * n + (c.toNat - '0'.toNat)) }, [])
    else if c = ';' then ({ e with reading := .arguments (done ++ [n]) 0 }, [])
    else if c = '$' ∨ c = '*' then ({ e with reading := .marked (done ++ [n]) c }, [])
    else perform { e with reading := .ground } [c] (done ++ [n])
  | .marked args mark => perform { e with reading := .ground } [mark, c] args

/-- The display as a device with a grid of a given size. -/
abbrev device (rows columns : Nat) : Device where
  State := Emulator
  rows := rows
  columns := columns
  ready e := e.reading = .ground ∧ (1 ≤ e.cursor.1 ∧ e.cursor.1 ≤ rows) ∧ 1 ≤ e.cursor.2 ∧ e.cursor.2 ≤ columns
  cell := cells
  cursor := cursor
  receive := receive columns

section

variable (rows columns : Nat)

/-! ## Reading a sequence -/

/-- Digits are added to the number that is being read. -/
theorem feed_digits (cells : Cells) (cursor : Nat × Nat) (done : List Nat) (cs : List Char) :
    ∀ n, (∀ c ∈ cs, c.isDigit = true) → (device rows columns).feed ⟨cells, cursor, .arguments done n⟩ cs =
      (⟨cells, cursor, .arguments done (Nat.ofDigitChars 10 cs n)⟩, []) := by
  induction cs with
  | nil => intro n _; rfl
  | cons c cs ih =>
    intro n h
    have hc : c.isDigit = true := h c (by simp)
    have hstep : receive columns ⟨cells, cursor, .arguments done n⟩ c =
        (⟨cells, cursor, .arguments done (10 * n + (c.toNat - '0'.toNat))⟩, []) := by
      simp only [receive, hc, if_true]
    rw [Nat.ofDigitChars_cons, ← ih _ fun x hx => h x (by simp [hx])]
    simp only [Device.feed, device, hstep, List.nil_append]

/-- A number is read as its value. -/
theorem feed_number (cells : Cells) (cursor : Nat × Nat) (done : List Nat) (n : Nat) :
    (device rows columns).feed ⟨cells, cursor, .arguments done 0⟩ (Nat.repr n).toList =
      (⟨cells, cursor, .arguments done n⟩, []) := by
  rw [Nat.toList_repr, feed_digits _ _ _ _ _ _ _ fun c hc => Nat.isDigit_of_mem_toDigits (by decide) (by decide) hc,
    Nat.ofDigitChars_ten_toDigits]

/-- Numbers divided by semicolons are read as the list of their values, the last of which may still grow. -/
theorem feed_arguments (cells : Cells) (cursor : Nat × Nat) (args : List Nat) : ∀ (done : List Nat) (n : Nat),
    ∃ before current, before ++ [current] = done ++ n :: args ∧
      (device rows columns).feed ⟨cells, cursor, .arguments done 0⟩ (";".intercalate ((n :: args).map Nat.repr)).toList =
        (⟨cells, cursor, .arguments before current⟩, []) := by
  induction args with
  | nil =>
    intro done n
    exact ⟨done, n, rfl, by simpa using feed_number rows columns cells cursor done n⟩
  | cons k args ih =>
    intro done n
    obtain ⟨before, current, hargs, hfeed⟩ := ih (done ++ [n]) k
    refine ⟨before, current, by rw [hargs, List.append_assoc, List.singleton_append], ?_⟩
    have hsplit : (";".intercalate ((n :: k :: args).map Nat.repr)).toList =
        (Nat.repr n).toList ++ ';' :: (";".intercalate ((k :: args).map Nat.repr)).toList := by
      simp [String.toList_intercalate]
    rw [hsplit, Device.feed_append, feed_number]
    simp only [List.nil_append, Device.feed]
    exact Prod.ext (congrArg Prod.fst hfeed) (congrArg Prod.snd hfeed)

/-- A sequence up to the characters that name it. -/
theorem send_sequence {e : Emulator} (h : e.reading = .ground) (n : Nat) (args : List Nat) (final : String) :
    ∃ before current, before ++ [current] = n :: args ∧
      (device rows columns).send e (Control.sequence (n :: args) final) =
        (device rows columns).feed ⟨e.cells, e.cursor, .arguments before current⟩ final.toList := by
  obtain ⟨before, current, hargs, hfeed⟩ := feed_arguments rows columns e.cells e.cursor args [] n
  refine ⟨before, current, hargs, ?_⟩
  have htext : (Control.sequence (n :: args) final).toList =
      Control.escape :: '[' :: ((";".intercalate ((n :: args).map Nat.repr)).toList ++ final.toList) := by
    simp [Control.sequence]
  have hescape : receive columns e Control.escape = (⟨e.cells, e.cursor, .escaped⟩, []) := by
    simp only [receive, h, if_true]
  have hbracket : receive columns ⟨e.cells, e.cursor, .escaped⟩ '[' = (⟨e.cells, e.cursor, .arguments [] 0⟩, []) := rfl
  rw [Device.send, htext, Device.feed, Device.feed]
  simp only [hescape, hbracket, Device.feed_append, hfeed, List.nil_append]

/-- A sequence that one character names is performed with its arguments. -/
theorem send_named {e : Emulator} (h : e.reading = .ground) (n : Nat) (args : List Nat) {f : Char}
    (hd : f.isDigit = false) (hf : f ≠ ';' ∧ f ≠ '$' ∧ f ≠ '*') :
    (device rows columns).send e (Control.sequence (n :: args) (String.singleton f)) = e.perform [f] (n :: args) := by
  obtain ⟨before, current, hargs, hsend⟩ := send_sequence rows columns h n args (String.singleton f)
  have hground : (⟨e.cells, e.cursor, .ground⟩ : Emulator) = e := by rw [← h]
  have hlast : receive columns ⟨e.cells, e.cursor, .arguments before current⟩ f = e.perform [f] (n :: args) := by
    simp [receive, hd, hf, hargs, hground]
  rw [hsend, String.toList_singleton, Device.feed, Device.feed]
  simp only [hlast, List.append_nil]

/-- A sequence that two characters name is performed with its arguments. -/
theorem send_marked {e : Emulator} (h : e.reading = .ground) (n : Nat) (args : List Nat) {mark : Char} (f : Char)
    (hmark : mark = '$' ∨ mark = '*') :
    (device rows columns).send e (Control.sequence (n :: args) (String.ofList [mark, f])) = e.perform [mark, f] (n :: args) := by
  obtain ⟨before, current, hargs, hsend⟩ := send_sequence rows columns h n args (String.ofList [mark, f])
  have hground : (⟨e.cells, e.cursor, .ground⟩ : Emulator) = e := by rw [← h]
  have hfirst : receive columns ⟨e.cells, e.cursor, .arguments before current⟩ mark =
      (⟨e.cells, e.cursor, .marked (n :: args) mark⟩, []) := by
    rcases hmark with rfl | rfl <;> simp [receive, hargs]
  have hlast : receive columns ⟨e.cells, e.cursor, .marked (n :: args) mark⟩ f = e.perform [mark, f] (n :: args) := by
    simp only [receive, hground]
  rw [hsend, String.toList_ofList, Device.feed, Device.feed, Device.feed]
  simp only [hfirst, hlast, List.append_nil, List.nil_append]

/-! ## The laws -/

/-- The display obeys the laws of a device, whatever the size of its grid. -/
theorem lawful_device : (device rows columns).Lawful where
  cursor_inGrid := fun e h => ⟨h.2.1.1, h.2.1.2, h.2.2⟩
  place := by
    intro e row col h hg
    rw [← encode_cursor, Device.Sends, Control.encode, show "H" = String.singleton 'H' from rfl,
      send_named rows columns h.1 row [col] (by decide) (by decide)]
    exact ⟨⟨h.1, ⟨hg.1, hg.2.1⟩, hg.2.2⟩, rfl, rfl, rfl⟩
  clear := by
    intro e h
    rw [show "\x1b[2J" = Control.sequence [2] (String.singleton 'J') from rfl, Device.Sends,
      send_named rows columns h.1 2 [] (by decide) (by decide)]
    exact ⟨h, rfl, rfl, rfl⟩
  clearLine := by
    intro e h
    rw [show "\x1b[2K" = Control.sequence [2] (String.singleton 'K') from rfl, Device.Sends,
      send_named rows columns h.1 2 [] (by decide) (by decide)]
    exact ⟨h, rfl, rfl, rfl⟩
  print := by
    intro e c h hc
    have hescape : c ≠ Control.escape := by
      rintro rfl
      cases hc
    have hput : receive columns e c =
        ({ e with cells := e.cells.put e.cursor.1 e.cursor.2 c, cursor := (e.cursor.1, min (e.cursor.2 + 1) columns) }, []) := by
      simp [receive, h.1, hescape, hc]
    have hsend : (device rows columns).send e (String.singleton c) = receive columns e c := by
      rw [Device.send, String.toList_singleton, Device.feed, Device.feed]
      simp only [List.append_nil]
    rw [Device.Sends, hsend, hput]
    refine ⟨⟨h.1, h.2.1, ?_, ?_⟩, rfl, rfl, rfl, ?_⟩
    · have := h.2.2
      simp only
      omega
    · exact Nat.min_le_right _ _
    · intro hlt
      exact Nat.min_eq_left hlt
  copy := by
    intro e top left bottom right row col h _ _ _ _ _ _
    rw [← encode_copy, Device.Sends, Control.encode, show "$v" = String.ofList ['$', 'v'] from rfl,
      send_marked rows columns h.1 top _ 'v' (.inl rfl)]
    exact ⟨h, rfl, rfl⟩
  request := by
    intro e id row col h _
    rw [← encode_request, Device.Sends, Control.encode, show "*y" = String.ofList ['*', 'y'] from rfl,
      send_marked rows columns h.1 id _ 'y' (.inr rfl)]
    refine ⟨h, ?_, rfl, rfl⟩
    simp [perform]

end

end Emulator

end DispatchTree
