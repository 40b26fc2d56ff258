import DispatchTree.Proofs.Screen.Emulator
import DispatchTree.Proofs.Screen.Window

/-!
# The effect of a step program

What a step program makes of a grid, cell by cell: each track's row has its symbol written in the column of the heads and is then
moved against the head (`Display.Moved`), and all other cells stay (`Display.Stepped`). This holds on every device that can be drawn
on, in whatever way it answers requests (`step_program_effect`): the two requests are the last commands, and are answered from the
finished grid.
-/

namespace DispatchTree

namespace Display

/-- A row with a symbol written in the column of the heads. -/
def writtenRow (d : Display) (row : Nat → Char) (x : Symbol) : Nat → Char :=
  fun k => if k = d.headColumn then x.toChar else row k

/-- A row of the window before and after a head's move: it goes the other way by one column, and a blank enters. -/
def Moved (d : Display) (row row' : Nat → Char) : Move → Prop
  | .stay => ∀ k, 1 ≤ k → k ≤ d.columns → row' k = row k
  | .right => (∀ k, 1 ≤ k → k < d.columns → row' k = row (k + 1)) ∧ row' d.columns = '#'
  | .left => (∀ k, 1 < k → k ≤ d.columns → row' k = row (k - 1)) ∧ row' 1 = '#'

/-- A grid before and after a step: the two tracks are written and moved, and nothing else changes. -/
structure Stepped (d : Display) (first second : TrackOp) (cells cells' : Cells) : Prop where
  first : d.Moved (d.writtenRow (cells 1) first.write) (cells' 1) first.shift
  second : d.Moved (d.writtenRow (cells 2) second.write) (cells' 2) second.shift
  elsewhere : ∀ r k, ¬((r = 1 ∨ r = 2) ∧ 1 ≤ k ∧ k ≤ d.columns) → cells' r k = cells r k

variable {d : Display}

/-- Writing a symbol in a row of the grid and sliding the row. -/
theorem moved_slide (hw : 2 ≤ d.columns) (cells : Cells) (row : Nat) (x : Symbol) (m : Move) :
    d.Moved (d.writtenRow (cells row) x) ((cells.put row d.headColumn x.toChar).slide row d.columns m row) m := by
  have hput : ∀ k, cells.put row d.headColumn x.toChar row k = d.writtenRow (cells row) x k := by
    intro k
    simp [Cells.put, writtenRow]
  cases m with
  | stay =>
    intro k _ _
    exact hput k
  | right =>
    refine ⟨fun k h1 h2 => ?_, ?_⟩
    · simp only [Cells.slide]
      rw [if_pos ⟨trivial, h1, by omega⟩, if_neg (by omega), hput]
    · simp only [Cells.slide]
      rw [if_pos ⟨trivial, by omega, Nat.le_refl _⟩, if_pos trivial]
  | left =>
    refine ⟨fun k h1 h2 => ?_, ?_⟩
    · simp only [Cells.slide]
      rw [if_pos ⟨trivial, by omega, h2⟩, if_neg (by omega), hput]
    · simp only [Cells.slide]
      rw [if_pos ⟨trivial, Nat.le_refl _, by omega⟩, if_pos trivial]

/-- Writing and sliding a row leaves the other rows, and its own beyond the window. -/
theorem slide_elsewhere (hw : 2 ≤ d.columns) (cells : Cells) (row : Nat) (op : TrackOp) {r k : Nat}
    (h : ¬(r = row ∧ 1 ≤ k ∧ k ≤ d.columns)) :
    (cells.put row d.headColumn op.write.toChar).slide row d.columns op.shift r k = cells r k := by
  have hhead : d.headColumn = d.columns / 2 := rfl
  have hput : cells.put row d.headColumn op.write.toChar r k = cells r k := by
    unfold Cells.put
    rw [if_neg (by omega)]
  cases op.shift with
  | stay => exact hput
  | right =>
    simp only [Cells.slide]
    rw [if_neg h, hput]
  | left =>
    simp only [Cells.slide]
    rw [if_neg h, hput]

/-- The cells that a step's program leaves are those of a step on both tracks. -/
theorem stepped_stepCells (hw : 2 ≤ d.columns) (first second : TrackOp) (cells : Cells) :
    d.Stepped first second cells (Device.stepCells d first second cells) := by
  have hfirst : Device.stepCells d first second cells 1 =
      (cells.put 1 d.headColumn first.write.toChar).slide 1 d.columns first.shift 1 :=
    funext (stepCells_line d ⟨"", first, second⟩ cells .first)
  have hsecond : Device.stepCells d first second cells 2 =
      (cells.put 2 d.headColumn second.write.toChar).slide 2 d.columns second.shift 2 :=
    funext (stepCells_line d ⟨"", first, second⟩ cells .second)
  refine ⟨?_, ?_, fun r k h => ?_⟩
  · rw [hfirst]
    exact moved_slide hw cells 1 first.write first.shift
  · rw [hsecond]
    exact moved_slide hw cells 2 second.write second.shift
  · unfold Device.stepCells
    rw [slide_elsewhere hw _ 2 second (by omega), slide_elsewhere hw _ 1 first (by omega)]

end Display

namespace Device

variable {D : Device} {d : Display} {answer : Nat → Nat → Nat → Cells → List String}

/-- The symbols under both heads are asked for, one after the other, and the grid stays. -/
theorem sends_requests (h : D.Room d) (hanswer : D.Answers answer) {s : D.State} (hs : D.ready s) :
    D.Sends s (encodeAll d.requests) (answer 1 1 d.headColumn (D.cell s) ++ answer 2 2 d.headColumn (D.cell s))
      fun cells _ => cells = D.cell s := by
  simp only [Display.requests, encodeAll_cons, encodeAll_nil, String.append_empty, encode_request]
  refine Sends.append (hanswer s 1 1 d.headColumn hs (h.inGrid_head .first)) fun s' hs' hmid => ?_
  have hsecond := hanswer s' 2 2 d.headColumn hs' (h.inGrid_head .second)
  rw [hmid] at hsecond
  exact hsecond

end Device

/-- A step program has exactly its intended effect. On every device that can be drawn on and has room for the display, whatever its
grid holds and wherever its cursor is, both tracks are written and moved, and every other cell stays. Two cells are asked for, in
this order and after everything is drawn: the one under the first head and the one under the second. The device may answer requests
as it likes. -/
theorem step_program_effect {D : Device} {answer : Nat → Nat → Nat → Cells → List String} (hdraws : D.Draws) (hanswer : D.Answers answer)
    {d : Display} (hwidth : 2 ≤ d.columns) (hcolumns : d.columns ≤ D.columns) (hrows : 3 ≤ D.rows) (first second : TrackOp) :
    ∃ draws, d.stepProgram first second = .ok (draws ++ d.requests) ∧ (∀ c ∈ draws, c.isRequest = false) ∧
      ∀ s, D.ready s → ∀ s' replies, D.send s (encodeAll (draws ++ d.requests)) = (s', replies) →
        D.ready s' ∧ d.Stepped first second (D.cell s) (D.cell s') ∧
          replies = answer 1 1 (d.columns / 2) (D.cell s') ++ answer 2 2 (d.columns / 2) (D.cell s') := by
  have hroom : D.Room d := ⟨hdraws, hwidth, hcolumns, hrows⟩
  obtain ⟨draws, hprogram, hquiet, hsends⟩ := Device.exists_draws_stepProgram hroom first second
  refine ⟨draws, hprogram, hquiet, fun s hs s' replies hsend => ?_⟩
  have hall : D.Sends s (encodeAll (draws ++ d.requests)) _ _ :=
    Device.sends_encodeAll_append (u := []) (hsends s hs) fun s1 hs1 hmid => by
      have hrequests := Device.sends_requests hroom hanswer hs1
      rwa [hmid.1] at hrequests
  obtain ⟨hready, hreplies, hcells⟩ := hall
  rw [hsend] at hready hreplies hcells
  refine ⟨hready, ?_, ?_⟩
  · rw [hcells]
    exact Display.stepped_stepCells hwidth first second (D.cell s)
  · rw [hcells]
    exact hreplies

/-- On a grid of three rows and nine columns, a step of a display with seven columns, from any state of the device. -/
theorem step_program_effect_seven :
    (Emulator.device 3 9).Draws ∧ (Emulator.device 3 9).Answers (fun id row col cells => [replyText id (cells row col)]) ∧
      2 ≤ (Display.mk 7).columns ∧ (Display.mk 7).columns ≤ 9 ∧ (Emulator.device 3 9).ready Emulator.blank ∧
      ∃ draws, (Display.mk 7).stepProgram ⟨.one, .right⟩ ⟨.zero, .left⟩ =
          .ok (draws ++ [.request 1 1 3 1 3, .request 2 2 3 2 3]) ∧ (∀ c ∈ draws, c.isRequest = false) ∧
        ∀ s, (Emulator.device 3 9).ready s → ∀ s' replies,
          (Emulator.device 3 9).send s (encodeAll (draws ++ [.request 1 1 3 1 3, .request 2 2 3 2 3])) = (s', replies) →
          (Emulator.device 3 9).ready s' ∧ (Display.mk 7).Stepped ⟨.one, .right⟩ ⟨.zero, .left⟩ s.cells s'.cells ∧
            replies = [replyText 1 (s'.cells 1 3)] ++ [replyText 2 (s'.cells 2 3)] := by
  have hlawful := Emulator.lawful_device 3 9
  exact ⟨hlawful.draws, hlawful.answers, by decide, by decide, by decide,
    step_program_effect hlawful.draws hlawful.answers (by decide) (by decide) (by decide) ⟨.one, .right⟩ ⟨.zero, .left⟩⟩

end DispatchTree
