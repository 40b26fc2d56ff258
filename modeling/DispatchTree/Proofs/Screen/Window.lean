import DispatchTree.Proofs.Screen.Drawing
import DispatchTree.Proofs.Tape.Configuration

/-!
# A window on the tracks

A display shows of each track the cells around its head, the head's own cell in the column of the heads (`Display.Shows`). Writing
and moving both tracks on the grid is the machine's action on the configuration (`shows_stepCells`), as long as nothing but blanks
lies outside the window (`Display.Inside`), which an action keeps if the cell it pushes off the edge is blank (`inside_apply`).
-/

namespace DispatchTree

namespace Display

/-- A grid shows the tracks of a configuration around their heads. -/
def Shows (d : Display) (cells : Cells) (c : Configuration) : Prop :=
  ∀ (t : Track) (k : Nat), 1 ≤ k → k ≤ d.columns → cells t.line k = (c.cells t (c.head t + k - d.headColumn)).toChar

/-- Outside the window there is nothing but blanks. -/
def Inside (d : Display) (c : Configuration) : Prop :=
  ∀ (t : Track) (i : Int), i < c.head t + 1 - d.headColumn ∨ c.head t + d.columns - d.headColumn < i → c.cells t i = .blank

/-- The symbol that an action pushes off an edge of a track's window, if it moves the track. -/
def pushed? (d : Display) (c : Configuration) (a : Action) (t : Track) : Option Symbol :=
  match (a.op t).shift with
  | .left => some ((c.apply a).cells t (c.head t + d.columns - d.headColumn))
  | .right => some ((c.apply a).cells t (c.head t + 1 - d.headColumn))
  | .stay => none

/-- What an action pushes off an edge is blank. -/
def Keeps (d : Display) (c : Configuration) (a : Action) : Prop :=
  ∀ (t : Track) (x : Symbol), d.pushed? c a t = some x → x = .blank

end Display

/-! ## One track -/

/-- Sliding one row leaves the other rows. -/
theorem slide_of_ne (cells : Cells) {row r : Nat} (width : Nat) (m : Move) (k : Nat) (h : r ≠ row) :
    cells.slide row width m r k = cells r k := by
  cases m <;> simp [Cells.slide, h]

/-- A character on one row changes no other row. -/
theorem put_of_ne (cells : Cells) {row r : Nat} (col : Nat) (x : Char) (k : Nat) (h : r ≠ row) :
    cells.put row col x r k = cells r k := by
  simp [Cells.put, h]

/-- Of a step, a track's row sees the operation of that track only. -/
theorem stepCells_line (d : Display) (a : Action) (cells : Cells) (t : Track) (k : Nat) :
    Device.stepCells d a.first a.second cells t.line k =
      (cells.put t.line d.headColumn (a.op t).write.toChar).slide t.line d.columns (a.op t).shift t.line k := by
  have h12 : (1 : Nat) ≠ 2 := by decide
  cases t with
  | first =>
    unfold Device.stepCells
    simp only [Track.line]
    rw [slide_of_ne _ _ _ _ h12, put_of_ne _ _ _ _ h12]
    rfl
  | second =>
    unfold Device.stepCells
    simp only [Track.line]
    -- the second row is the same before and after the first track's operation
    have hrow : ∀ j, ((cells.put 1 d.headColumn a.first.write.toChar).slide 1 d.columns a.first.shift) 2 j = cells 2 j := by
      intro j
      rw [slide_of_ne _ _ _ _ h12.symm, put_of_ne _ _ _ _ h12.symm]
    generalize ((cells.put 1 d.headColumn a.first.write.toChar).slide 1 d.columns a.first.shift) = mid at hrow
    have hput : ∀ j, (mid.put 2 d.headColumn a.second.write.toChar) 2 j =
        (cells.put 2 d.headColumn a.second.write.toChar) 2 j := by
      intro j
      simp only [Cells.put, hrow]
    cases hs : a.second.shift <;> simp [Action.op, hs, Cells.slide, hput]

section

variable {d : Display} {c : Configuration} {a : Action}

/-- Writing under a head changes the cell in the column of the heads. -/
theorem shows_put {cells : Cells} (h : d.Shows cells c) (t : Track) {k : Nat} (h1 : 1 ≤ k) (h2 : k ≤ d.columns) :
    (cells.put t.line d.headColumn (a.op t).write.toChar) t.line k =
      ((c.apply a).cells t (c.head t + k - d.headColumn)).toChar := by
  simp only [Cells.put, Configuration.apply]
  by_cases hk : k = d.headColumn
  · subst hk
    simp
  · have hne : c.head t + k - d.headColumn ≠ c.head t := by omega
    rw [if_neg (by simp [hk]), Function.update_of_ne hne]
    exact h t k h1 h2

/-- A cell that was outside the window and is not under the head is blank after an action. -/
theorem apply_blank (hi : d.Inside c) (t : Track) {i : Int} (hne : i ≠ c.head t)
    (ho : i < c.head t + 1 - d.headColumn ∨ c.head t + d.columns - d.headColumn < i) : (c.apply a).cells t i = .blank := by
  simp only [Configuration.apply]
  rw [Function.update_of_ne hne]
  exact hi t i ho

/-- Writing and moving both tracks on the grid shows what the action makes of the configuration. -/
theorem shows_stepCells (hw : 2 ≤ d.columns) {cells : Cells} (h : d.Shows cells c) (hi : d.Inside c) :
    d.Shows (Device.stepCells d a.first a.second cells) (c.apply a) := by
  intro t k h1 h2
  have hhead : d.headColumn = d.columns / 2 := rfl
  have hpos : (c.apply a).head t = c.head t + (a.op t).shift.offset := rfl
  rw [stepCells_line, hpos]
  cases hs : (a.op t).shift with
  | stay =>
    simp only [Cells.slide, Move.offset, Int.add_zero]
    exact shows_put h t h1 h2
  | right =>
    simp only [Cells.slide, Move.offset]
    rw [if_pos ⟨trivial, h1, h2⟩]
    by_cases hk : k = d.columns
    · rw [if_pos hk, apply_blank hi t (by omega) (by omega)]
      rfl
    · rw [if_neg hk, shows_put h t (by omega) (by omega)]
      congr 2
      omega
  | left =>
    simp only [Cells.slide, Move.offset]
    rw [if_pos ⟨trivial, h1, h2⟩]
    by_cases hk : k = 1
    · rw [if_pos hk, apply_blank hi t (by omega) (by omega)]
      rfl
    · rw [if_neg hk, shows_put h t (by omega) (by omega)]
      congr 2
      omega

/-- If the cells pushed off the edges are blank, there is still nothing but blanks outside the window. -/
theorem inside_apply (hw : 4 ≤ d.columns) (hi : d.Inside c) (hk : d.Keeps c a) : d.Inside (c.apply a) := by
  intro t i ho
  have hhead : d.headColumn = d.columns / 2 := rfl
  have hpos : (c.apply a).head t = c.head t + (a.op t).shift.offset := rfl
  have hpush := hk t
  rw [hpos] at ho
  unfold Display.pushed? at hpush
  cases hs : (a.op t).shift with
  | stay =>
    rw [hs] at ho
    simp only [Move.offset] at ho
    exact apply_blank hi t (by omega) (by omega)
  | right =>
    rw [hs] at ho hpush
    simp only [Move.offset] at ho
    by_cases hedge : i = c.head t + 1 - d.headColumn
    · rw [hedge]
      exact hpush _ rfl
    · exact apply_blank hi t (by omega) (by omega)
  | left =>
    rw [hs] at ho hpush
    simp only [Move.offset] at ho
    by_cases hedge : i = c.head t + d.columns - d.headColumn
    · rw [hedge]
      exact hpush _ rfl
    · exact apply_blank hi t (by omega) (by omega)

end

/-! ## The word typed by the operator -/

/-- A word that fits between the heads' column and the edge is shown by the grid of blanks in which it was typed. -/
theorem shows_start {d : Display} (state : String) {word : List Symbol} {cells : Cells}
    (hcells : ∀ (t : Track) (k : Nat), 1 ≤ k → k ≤ d.columns →
      cells t.line k = if t = .first ∧ d.headColumn ≤ k ∧ k < d.headColumn + word.length
        then (word.map Symbol.toChar).getD (k - d.headColumn) ' ' else '#') :
    d.Shows cells (.start state word) := by
  intro t k h1 h2
  rw [hcells t k h1 h2]
  cases t with
  | second => simp [Configuration.start, Symbol.toChar]
  | first =>
    simp only [Configuration.start, true_and, Int.zero_add]
    by_cases hk : d.headColumn ≤ k
    · have hcast : ((k : Int) - d.headColumn).toNat = k - d.headColumn := by omega
      rw [if_pos (show (0 : Int) ≤ (k : Int) - d.headColumn by omega), hcast]
      by_cases hlen : k - d.headColumn < word.length
      · rw [if_pos ⟨hk, by omega⟩, List.getD_eq_getElem?_getD, List.getElem?_map, List.getElem?_eq_getElem hlen]
        rfl
      · rw [if_neg (by omega), List.getElem?_eq_none (by omega)]
        rfl
    · rw [if_neg (by omega), if_neg (by omega)]
      rfl

/-- At the start there is nothing but blanks outside the window. -/
theorem inside_start {d : Display} (hw : 2 ≤ d.columns) (state : String) {word : List Symbol}
    (hword : word.length ≤ d.columns - d.headColumn + 1) : d.Inside (.start state word) := by
  intro t i ho
  have hhead : d.headColumn = d.columns / 2 := rfl
  cases t with
  | second => rfl
  | first =>
    simp only [Configuration.start] at ho ⊢
    by_cases hi : 0 ≤ i
    · rw [if_pos hi, List.getElem?_eq_none (by omega)]
      rfl
    · rw [if_neg hi]

end DispatchTree
