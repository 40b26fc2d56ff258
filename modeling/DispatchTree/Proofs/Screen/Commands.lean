import DispatchTree.Graph

/-!
# The commands of screen programs

What the programs of a display consist of, and which of them cannot be rendered. The commands for one track are listed once
(`Display.TrackCommand`), so that what is to be said of all commands of a step program is said of these and of the two requests. A
track fails to move exactly if it moves left on a display without columns (`shift_eq_error_iff`), and a program fails with its
tracks (`render_eq_error_iff`).
-/

namespace DispatchTree

/-- Whether a command asks for a checksum. -/
def Control.isRequest : Control → Bool
  | .request .. => true
  | _ => false

namespace Display

/-- The commands that write and move a track. -/
inductive TrackCommand (d : Display) (t : Track) : Control → Prop
  | head : d.TrackCommand t (.cursor t.line d.headColumn)
  | symbol (x : Symbol) : d.TrackCommand t (.text x.text)
  | park : d.TrackCommand t (.cursor statusLine 1)
  | copyLeft : d.TrackCommand t (.copy t.line 2 t.line d.columns t.line 1)
  | last : d.TrackCommand t (.cursor t.line d.columns)
  | copyRight : d.TrackCommand t (.copy t.line 1 t.line (d.columns - 1) t.line 2)
  | first : d.TrackCommand t (.cursor t.line 1)

variable {d : Display} {t : Track} {c : Control}

/-- No command for a track asks for anything. -/
theorem TrackCommand.isRequest (h : d.TrackCommand t c) : c.isRequest = false := by cases h <;> rfl

/-- Moving a window uses commands for its track only. -/
theorem trackCommand_of_mem_shift {m : Move} {p : List Control} (h : d.shift t m = .ok p) (hc : c ∈ p) : d.TrackCommand t c := by
  cases m with
  | stay =>
    cases h
    cases hc
  | right =>
    cases h
    simp only [shiftRight, List.mem_cons, List.not_mem_nil, or_false] at hc
    rcases hc with rfl | rfl | rfl
    · exact .copyLeft
    · exact .last
    · exact .symbol .blank
  | left =>
    simp only [shift, shiftLeft] at h
    split at h
    · cases h
    · cases h
      simp only [List.mem_cons, List.not_mem_nil, or_false] at hc
      rcases hc with rfl | rfl | rfl
      · exact .copyRight
      · exact .first
      · exact .symbol .blank

/-- Writing a symbol and moving uses commands for one track only. -/
theorem trackCommand_of_mem_writeTrack {op : TrackOp} {p : List Control} (h : d.writeTrack t op = .ok p) (hc : c ∈ p) :
    d.TrackCommand t c := by
  unfold writeTrack at h
  cases hshift : d.shift t op.shift with
  | error u =>
    rw [hshift] at h
    cases h
  | ok slide =>
    rw [hshift] at h
    cases h
    simp only [List.mem_append, List.mem_cons, List.not_mem_nil, or_false] at hc
    rcases hc with (rfl | rfl | rfl) | hc
    · exact .head
    · exact .symbol op.write
    · exact .park
    · exact trackCommand_of_mem_shift hshift hc

/-- A step program: the commands of the first track, those of the second, and the requests. -/
theorem exists_of_stepProgram {first second : TrackOp} {p : List Control} (h : d.stepProgram first second = .ok p) :
    ∃ one two, d.writeTrack .first first = .ok one ∧ d.writeTrack .second second = .ok two ∧ p = one ++ two ++ d.requestBoth := by
  unfold stepProgram at h
  cases hone : d.writeTrack .first first with
  | error u =>
    rw [hone] at h
    cases h
  | ok one =>
    cases htwo : d.writeTrack .second second with
    | error u =>
      rw [hone, htwo] at h
      cases h
    | ok two =>
      rw [hone, htwo] at h
      cases h
      exact ⟨one, two, rfl, rfl, rfl⟩

/-! ## Programs that cannot be rendered -/

/-- A track cannot be moved exactly if it moves left on a display without columns. -/
theorem shift_eq_error_iff {m : Move} {u : Underflow} : d.shift t m = .error u ↔ d.columns = 0 ∧ m = .left := by
  cases u
  cases m with
  | stay => simp [shift]
  | right => simp [shift]
  | left => simp [shift, shiftLeft]

/-- A track can be written unless its window is to move to the left and there are no columns. -/
theorem writeTrack_eq_error_iff {op : TrackOp} {u : Underflow} :
    d.writeTrack t op = .error u ↔ d.columns = 0 ∧ op.shift = .left := by
  rw [← shift_eq_error_iff (t := t) (u := u), writeTrack]
  cases d.shift t op.shift with
  | error v => exact Iff.rfl
  | ok slide => simp [Except.map]

/-- A step has a program unless one of the two tracks cannot be written. -/
theorem stepProgram_eq_error_iff {first second : TrackOp} {u : Underflow} :
    d.stepProgram first second = .error u ↔ d.columns = 0 ∧ (first.shift = .left ∨ second.shift = .left) := by
  rw [and_or_left, ← writeTrack_eq_error_iff (t := .first) (u := u), ← writeTrack_eq_error_iff (t := .second) (u := u), stepProgram]
  cases u
  cases d.writeTrack .first first with
  | error v =>
    cases v
    simp [bind, Except.bind]
  | ok one =>
    cases d.writeTrack .second second with
    | error v =>
      cases v
      simp [bind, Except.bind]
    | ok two => simp [bind, Except.bind, pure, Except.pure]

end Display

namespace Program

/-- Whether a program moves a head to the left. -/
def movesLeft : Program → Bool
  | .halt _ => false
  | .step first second => first.shift = .left || second.shift = .left

/-- A program cannot be rendered exactly if it moves a head to the left on a display without columns. -/
theorem render_eq_error_iff {d : Display} {p : Program} {u : Underflow} :
    p.render d = .error u ↔ d.columns = 0 ∧ p.movesLeft = true := by
  cases p with
  | halt message => simp [render, commands, Except.map, movesLeft]
  | step first second =>
    rw [movesLeft, Bool.or_eq_true, decide_eq_true_iff, decide_eq_true_iff, ← Display.stepProgram_eq_error_iff (u := u), render, commands]
    cases d.stepProgram first second with
    | error v => simp [Except.map]
    | ok p => simp [Except.map]

end Program

end DispatchTree
