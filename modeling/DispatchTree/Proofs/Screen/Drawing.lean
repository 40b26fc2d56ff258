import DispatchTree.Proofs.Screen.Commands
import DispatchTree.Proofs.Screen.Device

/-!
# What screen programs draw

The effect of each screen program on a lawful device, as a function of what its grid held before: a command at a time, then a track
written and moved (`sends_writeTrack`), then the programs (`sends_stepProgram`, `sends_haltProgram`, `sends_initProgram`,
`sends_postInitProgram`). Moving a track's window is `Cells.slide`: the row moves by one cell and a blank enters.
-/

namespace DispatchTree

/-- The grid with a text in a row from a column on. -/
def Cells.write (cells : Cells) (row col : Nat) (text : List Char) : Cells := fun r k =>
  if r = row ∧ col ≤ k ∧ k < col + text.length then text.getD (k - col) ' ' else cells r k

/-- The grid with the first `width` cells of a row moved against a head's move; a blank enters at the end. -/
def Cells.slide (cells : Cells) (row width : Nat) : Move → Cells
  | .stay => cells
  | .right => fun r k =>
    if r = row ∧ 1 ≤ k ∧ k ≤ width then (if k = width then '#' else cells r (k + 1)) else cells r k
  | .left => fun r k =>
    if r = row ∧ 1 ≤ k ∧ k ≤ width then (if k = 1 then '#' else cells r (k - 1)) else cells r k

/-- A row shows a text from its first column on. -/
def Cells.ShowsText (cells : Cells) (row : Nat) (text : String) : Prop :=
  ∀ k, k < text.length → cells row (k + 1) = text.toList.getD k ' '

/-- A text that is written from the first column on stands there from the first column on. -/
theorem Cells.write_at_one (cells : Cells) (row : Nat) (text : String) {k : Nat} (hk : k < text.length) :
    cells.write row 1 text.toList row (k + 1) = text.toList.getD k ' ' := by
  unfold Cells.write
  rw [String.length_toList, if_pos ⟨rfl, by omega, by omega⟩, Nat.add_sub_cancel]

theorem toList_pushn (s : String) (c : Char) (n : Nat) : (s.pushn c n).toList = s.toList ++ List.replicate n c := by
  rw [String.pushn_eq_repeat_push]
  induction n with
  | zero => simp [Nat.repeat]
  | succ n ih => rw [Nat.repeat, String.toList_push, ih, List.replicate_succ', List.append_assoc]

/-- Copying a row one cell to the left and putting a blank at its end moves the window to the right. -/
theorem copy_put_right (cells : Cells) (row : Nat) {width : Nat} (hw : 2 ≤ width) :
    (cells.copy row 2 row width row 1).put row width '#' = cells.slide row width .right := by
  funext r k
  simp only [Cells.put, Cells.copy, Cells.slide]
  by_cases hr : r = row
  · subst hr
    by_cases hk : k = width
    · rw [if_pos ⟨rfl, hk⟩, if_pos (by omega), if_pos hk]
    · by_cases hin : 1 ≤ k ∧ k ≤ width
      · rw [if_neg (by omega), if_pos (by omega), if_pos ⟨rfl, hin⟩, if_neg hk, Nat.sub_self, Nat.add_zero,
          show 2 + (k - 1) = k + 1 by omega]
      · rw [if_neg (by omega), if_neg (by omega), if_neg (by omega)]
  · rw [if_neg (by omega), if_neg (by omega), if_neg (by omega)]

/-- Copying a row one cell to the right and putting a blank at its start moves the window to the left. -/
theorem copy_put_left (cells : Cells) (row : Nat) {width : Nat} (hw : 2 ≤ width) :
    (cells.copy row 1 row (width - 1) row 2).put row 1 '#' = cells.slide row width .left := by
  funext r k
  simp only [Cells.put, Cells.copy, Cells.slide]
  by_cases hr : r = row
  · subst hr
    by_cases hk : k = 1
    · rw [if_pos ⟨rfl, hk⟩, if_pos (by omega), if_pos hk]
    · by_cases hin : 1 ≤ k ∧ k ≤ width
      · rw [if_neg (by omega), if_pos (by omega), if_pos ⟨rfl, hin⟩, if_neg hk, Nat.sub_self, Nat.add_zero,
          show 1 + (k - 2) = k - 1 by omega]
      · rw [if_neg (by omega), if_neg (by omega), if_neg (by omega)]
  · rw [if_neg (by omega), if_neg (by omega), if_neg (by omega)]

/-! ## Texts of programs -/

theorem encodeAll_nil : encodeAll [] = "" := by simp [encodeAll]

/-- Commands are sent one after the other. -/
theorem encodeAll_cons (c : Control) (p : List Control) : encodeAll (c :: p) = c.encode ++ encodeAll p := by
  simp [encodeAll]

/-- Two programs are sent one after the other. -/
theorem encodeAll_append (p q : List Control) : encodeAll (p ++ q) = encodeAll p ++ encodeAll q := by
  simp [encodeAll]

theorem encode_cursor (row col : Nat) :
    (Control.cursor row col).encode = "\x1b[" ++ Nat.repr row ++ ";" ++ Nat.repr col ++ "H" := by
  apply String.toList_injective
  simp [Control.encode, Control.sequence, Control.escape]

theorem encode_copy (top left bottom right row col : Nat) :
    (Control.copy top left bottom right row col).encode =
      "\x1b[" ++ Nat.repr top ++ ";" ++ Nat.repr left ++ ";" ++ Nat.repr bottom ++ ";" ++ Nat.repr right ++ ";1;" ++
        Nat.repr row ++ ";" ++ Nat.repr col ++ ";1$v" := by
  apply String.toList_injective
  simp [Control.encode, Control.sequence, Control.escape, show Nat.toDigits 10 1 = ['1'] from rfl]

theorem encode_request (id top left bottom right : Nat) :
    (Control.request id top left bottom right).encode =
      "\x1b[" ++ Nat.repr id ++ ";1;" ++ Nat.repr top ++ ";" ++ Nat.repr left ++ ";" ++ Nat.repr bottom ++ ";" ++
        Nat.repr right ++ "*y" := by
  apply String.toList_injective
  simp [Control.encode, Control.sequence, Control.escape, show Nat.toDigits 10 1 = ['1'] from rfl]

/-- The two requests of a program, for the cells under the heads. -/
def Display.requests (d : Display) : List Control :=
  [.request 1 1 d.headColumn 1 d.headColumn, .request 2 2 d.headColumn 2 d.headColumn]

theorem Display.requestBoth_eq (d : Display) : d.requestBoth = .cursor statusLine 1 :: d.requests := rfl

namespace Device

variable {D : Device}

/-! ## Commands -/

/-- Commands after commands. -/
theorem sends_encodeAll_append {s : D.State} {p q : List Control} {u v : List String} {mid post : Cells → Nat × Nat → Prop}
    (hp : D.Sends s (encodeAll p) u mid)
    (hq : ∀ s', D.ready s' → mid (D.cell s') (D.cursor s') → D.Sends s' (encodeAll q) v post) :
    D.Sends s (encodeAll (p ++ q)) (u ++ v) post := by
  rw [encodeAll_append]
  exact Sends.append hp hq

section

variable (hD : D.Draws)
include hD

/-- A cursor command places the cursor and draws nothing. -/
theorem sends_cursor {s : D.State} (hs : D.ready s) {row col : Nat} (hg : D.InGrid row col) :
    D.Sends s (Control.cursor row col).encode [] fun cells cursor => cells = D.cell s ∧ cursor = (row, col) := by
  rw [encode_cursor]
  exact hD.place s row col hs hg

/-- A cell is written: the cursor is placed there and one character is sent. -/
theorem sends_put {s : D.State} (hs : D.ready s) {row col : Nat} (hg : D.InGrid row col) {c : Char} (h1 : ' ' ≤ c) (h2 : c ≤ '~') :
    D.Sends s (encodeAll [.cursor row col, .text (String.singleton c)]) [] fun cells _ => cells = (D.cell s).put row col c := by
  rw [encodeAll_cons, encodeAll_cons, encodeAll_nil, String.append_empty]
  refine Sends.append (r := []) (sends_cursor hD hs hg) fun s' hs' hmid => ?_
  obtain ⟨hcell, hcur⟩ := hmid
  have hprint := hD.print s' c hs' (by rw [hcur]; exact hg) h1 h2
  rw [hcell, hcur] at hprint
  exact hprint

end

section

variable (hD : D.Lawful)
include hD

/-- A text that is shown stays in the row of the cursor; if there is room for it, it stands there from the cursor on. -/
theorem sends_shown (text : List Char) : ∀ (s : D.State), D.ready s → (∀ c ∈ text, isControlChar c = false) →
    D.Sends s (String.ofList text) [] fun cells cursor =>
      cursor.1 = (D.cursor s).1 ∧ (∀ r k, r ≠ (D.cursor s).1 → cells r k = D.cell s r k) ∧
        ((D.cursor s).2 + text.length ≤ D.columns + 1 →
          cells = (D.cell s).write (D.cursor s).1 (D.cursor s).2 text) := by
  induction text with
  | nil =>
    intro s hs _
    refine (sends_empty hs).imp ?_
    rintro cells cursor ⟨rfl, rfl⟩
    refine ⟨rfl, fun _ _ _ => rfl, fun _ => ?_⟩
    funext r k
    simp only [Cells.write, List.length_nil]
    rw [if_neg (by omega)]
  | cons c cs ih =>
    intro s hs hc
    have htext : String.ofList (c :: cs) = String.singleton c ++ String.ofList cs := by
      rw [String.singleton_eq_ofList, ← String.ofList_append]
      rfl
    rw [htext]
    have hfirst := hD.print s c hs (hc c (by simp))
    refine Sends.append (r := []) hfirst fun s' hs' hmid => ?_
    obtain ⟨hcell, hrow, hcol⟩ := hmid
    refine (ih s' hs' fun x hx => hc x (List.mem_cons_of_mem c hx)).imp ?_
    rintro cells cursor ⟨h1, h2, h3⟩
    refine ⟨h1.trans hrow, fun r k hr => ?_, fun hfit => ?_⟩
    · rw [h2 r k (by rw [hrow]; exact hr), hcell]
      simp [Cells.put, hr]
    · simp only [List.length_cons] at hfit
      -- the next character goes to the next column, unless it was the last one
      by_cases hlast : cs = []
      · subst hlast
        have hroom : (D.cursor s').2 + 0 ≤ D.columns + 1 := by
          have := (hD.cursor_inGrid s' hs').2.2.2
          omega
        rw [h3 hroom, hcell]
        funext r k
        simp only [Cells.write, Cells.put, List.length_nil, List.length_cons]
        rw [if_neg (by omega)]
        by_cases hk : r = (D.cursor s).1 ∧ k = (D.cursor s).2
        · obtain ⟨rfl, rfl⟩ := hk
          simp
        · rw [if_neg hk, if_neg (by omega)]
      · have hlen : 0 < cs.length := List.length_pos_iff.mpr hlast
        have hnext := hcol (by omega)
        rw [h3 (by omega), hcell, hrow, hnext]
        funext r k
        simp only [Cells.write, Cells.put, List.length_cons]
        by_cases hr : r = (D.cursor s).1
        · by_cases hk : k = (D.cursor s).2
          · subst hk
            rw [if_neg (by omega), if_pos ⟨hr, rfl⟩, if_pos (by omega)]
            simp
          · by_cases hk' : (D.cursor s).2 + 1 ≤ k ∧ k < (D.cursor s).2 + 1 + cs.length
            · rw [if_pos ⟨hr, hk'⟩, if_pos (by omega), show k - (D.cursor s).2 = (k - ((D.cursor s).2 + 1)) + 1 by omega,
                List.getD_cons_succ]
            · rw [if_neg (by omega), if_neg (by omega), if_neg (by omega)]
        · simp [hr]

end

/-! ## Tracks -/

/-- A device that can be drawn on, with room for the tracks of a display and a line below them. -/
structure Room (D : Device) (d : Display) : Prop where
  draws : D.Draws
  two_le : 2 ≤ d.columns
  columns_le : d.columns ≤ D.columns
  rows_le : 3 ≤ D.rows

/-- A lawful device with room for the tracks of a display and a line below them. -/
structure Holds (D : Device) (d : Display) : Prop extends Room D d where
  lawful : D.Lawful

theorem printable_symbol (x : Symbol) : ' ' ≤ x.toChar ∧ x.toChar ≤ '~' := by cases x <;> decide

theorem isControlChar_symbol (x : Symbol) : isControlChar x.toChar = false :=
  isControlChar_of_printable (printable_symbol x).1 (printable_symbol x).2

section

variable {d : Display} (h : D.Room d)
include h

/-- The columns of a display are on the screen. -/
theorem Room.inGrid_track (t : Track) (col : Nat) (h1 : 1 ≤ col) (h2 : col ≤ d.columns) : D.InGrid t.line col := by
  have hr := h.rows_le
  have hc := h.columns_le
  cases t <;> exact ⟨by decide, by simp only [Track.line]; omega, h1, by omega⟩

/-- The column of the heads is on the screen. -/
theorem Room.inGrid_head (t : Track) : D.InGrid t.line d.headColumn := by
  have hw := h.two_le
  exact h.inGrid_track t d.headColumn (by unfold Display.headColumn; omega) (by unfold Display.headColumn; omega)

/-- The line below the tracks is on the screen. -/
theorem Room.inGrid_status : D.InGrid statusLine 1 := by
  have hw := h.two_le
  have hc := h.columns_le
  exact ⟨by decide, h.rows_le, by omega, by omega⟩

/-- Moving a track's window slides its row. -/
theorem sends_shift {s : D.State} (hs : D.ready s) (t : Track) (m : Move) :
    ∃ p, d.shift t m = .ok p ∧ D.Sends s (encodeAll p) [] fun cells _ => cells = (D.cell s).slide t.line d.columns m := by
  have hw := h.two_le
  have hw0 : d.columns ≠ 0 := by omega
  cases m with
  | stay =>
    refine ⟨[], rfl, ?_⟩
    rw [encodeAll_nil]
    exact (sends_empty hs).imp fun _ _ h => h.1
  | right =>
    refine ⟨_, rfl, ?_⟩
    have h1 := h.inGrid_track t 1 (by omega) (by omega)
    have h2 := h.inGrid_track t 2 (by omega) (by omega)
    have hlast := h.inGrid_track t d.columns (by omega) (by omega)
    have hdest : D.InGrid (t.line + (t.line - t.line)) (1 + (d.columns - 2)) := by
      rw [Nat.sub_self, Nat.add_zero]
      exact h.inGrid_track t _ (by omega) (by omega)
    rw [Display.shiftRight, encodeAll_cons, encode_copy]
    refine Sends.append (r := []) (h.draws.copy s _ _ _ _ _ _ hs (Nat.le_refl _) hw h2 hlast h1 hdest) fun s' hs' hmid => ?_
    refine (sends_put h.draws hs' hlast (printable_symbol .blank).1 (printable_symbol .blank).2).imp ?_
    rintro cells _ rfl
    rw [hmid]
    exact copy_put_right (D.cell s) t.line hw
  | left =>
    refine ⟨_, if_neg hw0, ?_⟩
    have h1 := h.inGrid_track t 1 (by omega) (by omega)
    have h2 := h.inGrid_track t 2 (by omega) (by omega)
    have hlast := h.inGrid_track t (d.columns - 1) (by omega) (by omega)
    have hdest : D.InGrid (t.line + (t.line - t.line)) (2 + (d.columns - 1 - 1)) := by
      rw [Nat.sub_self, Nat.add_zero]
      exact h.inGrid_track t _ (by omega) (by omega)
    rw [encodeAll_cons, encode_copy]
    refine Sends.append (r := []) (h.draws.copy s _ _ _ _ _ _ hs (Nat.le_refl _) (by omega) h1 hlast h2 hdest) fun s' hs' hmid => ?_
    refine (sends_put h.draws hs' h1 (printable_symbol .blank).1 (printable_symbol .blank).2).imp ?_
    rintro cells _ rfl
    rw [hmid]
    exact copy_put_left (D.cell s) t.line hw

/-- A track is written under its head and then slides. -/
theorem sends_writeTrack {s : D.State} (hs : D.ready s) (t : Track) (op : TrackOp) :
    ∃ p, d.writeTrack t op = .ok p ∧ D.Sends s (encodeAll p) [] fun cells _ =>
      cells = ((D.cell s).put t.line d.headColumn op.write.toChar).slide t.line d.columns op.shift := by
  have hput := sends_put h.draws hs (h.inGrid_head t) (printable_symbol op.write).1 (printable_symbol op.write).2
  -- the commands of the move do not depend on the state they are sent in
  obtain ⟨p, hp, _⟩ := sends_shift h hs t op.shift
  refine ⟨[.cursor t.line d.headColumn, .text op.write.text] ++ ([.cursor statusLine 1] ++ p), ?_, ?_⟩
  · rw [Display.writeTrack, hp]
    rfl
  · refine sends_encodeAll_append (v := []) hput fun s1 hs1 hmid1 => ?_
    rw [encodeAll_append, encodeAll_cons, encodeAll_nil, String.append_empty]
    refine Sends.append (r := []) (sends_cursor h.draws hs1 h.inGrid_status) fun s2 hs2 hmid2 => ?_
    obtain ⟨q, hq, hsend⟩ := sends_shift h hs2 t op.shift
    rw [hp] at hq
    cases hq
    rw [hmid2.1, hmid1] at hsend
    exact hsend

end

/-! ## Programs -/

/-- The grid after both tracks were written and moved. -/
def stepCells (d : Display) (first second : TrackOp) (cells : Cells) : Cells :=
  (((cells.put 1 d.headColumn first.write.toChar).slide 1 d.columns first.shift).put 2 d.headColumn
    second.write.toChar).slide 2 d.columns second.shift

/-- A step program on a device that can be drawn on: commands that draw the new grid and put the cursor below it, and then the
requests. -/
theorem exists_draws_stepProgram {d : Display} (h : D.Room d) (first second : TrackOp) :
    ∃ draws, d.stepProgram first second = .ok (draws ++ d.requests) ∧ (∀ c ∈ draws, c.isRequest = false) ∧
      ∀ s, D.ready s → D.Sends s (encodeAll draws) [] fun cells cursor =>
        cells = stepCells d first second (D.cell s) ∧ cursor = (statusLine, 1) := by
  have hw := h.two_le
  cases hp : d.stepProgram first second with
  | error u => exact absurd (Display.stepProgram_eq_error_iff.1 hp).1 (by omega)
  | ok p =>
    obtain ⟨one, two, hone, htwo, rfl⟩ := Display.exists_of_stepProgram hp
    refine ⟨one ++ (two ++ [.cursor statusLine 1]), ?_, fun c hc => ?_, fun s hs => ?_⟩
    · simp [Display.requestBoth_eq]
    · simp only [List.mem_append, List.mem_singleton] at hc
      rcases hc with hc | hc | rfl
      · exact (Display.trackCommand_of_mem_writeTrack hone hc).isRequest
      · exact (Display.trackCommand_of_mem_writeTrack htwo hc).isRequest
      · rfl
    · obtain ⟨one', hone', hsend⟩ := sends_writeTrack h hs .first first
      obtain rfl : one = one' := Except.ok.inj (hone.symm.trans hone')
      refine sends_encodeAll_append (v := []) hsend fun s1 hs1 hmid1 => ?_
      obtain ⟨two', htwo', hsend'⟩ := sends_writeTrack h hs1 .second second
      obtain rfl : two = two' := Except.ok.inj (htwo.symm.trans htwo')
      refine sends_encodeAll_append (v := []) hsend' fun s2 hs2 hmid2 => ?_
      rw [encodeAll_cons, encodeAll_nil, String.append_empty]
      refine (sends_cursor h.draws hs2 h.inGrid_status).imp ?_
      rintro cells cursor ⟨rfl, rfl⟩
      refine ⟨?_, rfl⟩
      rw [hmid2, hmid1]
      rfl

section

variable {d : Display} (h : D.Holds d)
include h

/-- The symbols under both heads are asked for: the replies report the two cells, and nothing changes. -/
theorem sends_bothRequests {s : D.State} (hs : D.ready s) :
    D.Sends s (encodeAll d.requests) (Track.both.map fun t => replyText t.line (D.cell s t.line d.headColumn))
      fun cells cursor => cells = D.cell s ∧ cursor = D.cursor s := by
  simp only [Display.requests, encodeAll_cons, encodeAll_nil, String.append_empty, encode_request]
  refine Sends.append (q := [_]) (h.lawful.request s 1 _ _ hs (h.toRoom.inGrid_head .first)) fun s' hs' hmid => ?_
  have hsecond := h.lawful.request s' 2 _ _ hs' (h.toRoom.inGrid_head .second)
  rw [hmid.1] at hsecond
  refine hsecond.imp ?_
  rintro cells cursor ⟨rfl, rfl⟩
  exact ⟨rfl, hmid.2⟩

/-- The cursor is put below the tracks before the symbols under both heads are asked for. -/
theorem sends_requestBoth {s : D.State} (hs : D.ready s) :
    D.Sends s (encodeAll d.requestBoth) (Track.both.map fun t => replyText t.line (D.cell s t.line d.headColumn))
      fun cells cursor => cells = D.cell s ∧ cursor = (statusLine, 1) := by
  rw [Display.requestBoth_eq, encodeAll_cons]
  refine Sends.append (q := []) (sends_cursor h.toRoom.draws hs h.toRoom.inGrid_status) fun s' hs' hmid => ?_
  have hrequests := sends_bothRequests h hs'
  rw [hmid.1, hmid.2] at hrequests
  exact hrequests

/-- A step program writes and moves both tracks, then asks for both symbols. -/
theorem sends_stepProgram {s : D.State} (hs : D.ready s) (first second : TrackOp) :
    ∃ p, d.stepProgram first second = .ok p ∧
      D.Sends s (encodeAll p)
        (Track.both.map fun t => replyText t.line (stepCells d first second (D.cell s) t.line d.headColumn))
        fun cells cursor => cells = stepCells d first second (D.cell s) ∧ cursor = (statusLine, 1) := by
  obtain ⟨draws, hprogram, -, hsends⟩ := exists_draws_stepProgram h.toRoom first second
  refine ⟨draws ++ d.requests, hprogram, sends_encodeAll_append (u := []) (hsends s hs) fun s' hs' hmid => ?_⟩
  have hrequests := sends_bothRequests h hs'
  rw [hmid.1, hmid.2] at hrequests
  exact hrequests

/-- After the input, the line below the tracks is cleared and marked, and both symbols are asked for. -/
theorem sends_postInitProgram {s : D.State} (hs : D.ready s) :
    D.Sends s (encodeAll d.postInitProgram) (Track.both.map fun t => replyText t.line (D.cell s t.line d.headColumn))
      fun cells cursor => (∀ r k, r ≠ statusLine → cells r k = D.cell s r k) ∧ cursor = (statusLine, 1) := by
  have hgrid : D.InGrid statusLine d.headColumn := by
    have h1 := h.toRoom.inGrid_head .first
    exact ⟨by decide, h.rows_le, h1.2.2.1, h1.2.2.2⟩
  unfold Display.postInitProgram
  rw [List.cons_append, List.cons_append, List.cons_append, List.nil_append, encodeAll_cons, encodeAll_cons, encodeAll_cons]
  refine Sends.append (q := []) (sends_cursor h.toRoom.draws hs hgrid) fun s1 hs1 hmid1 => ?_
  refine Sends.append (q := []) (h.lawful.clearLine s1 hs1) fun s2 hs2 hmid2 => ?_
  refine Sends.append (q := []) (h.lawful.print s2 '^' hs2 (by decide)) fun s3 hs3 hmid3 => ?_
  have hsame : ∀ r k, r ≠ statusLine → D.cell s3 r k = D.cell s r k := by
    intro r k hr
    rw [hmid3.1, hmid2.1, hmid2.2, hmid1.2, ← hmid1.1]
    simp [Cells.put, hr]
  have hreq := sends_requestBoth h hs3
  simp only [Track.both, List.map_cons, List.map_nil] at hreq ⊢
  rw [hsame _ _ (by decide), hsame _ _ (by decide)] at hreq
  refine hreq.imp ?_
  rintro cells cursor ⟨rfl, rfl⟩
  exact ⟨hsame, rfl⟩

/-- A track of blanks fills its row. -/
theorem sends_blankTrack {s : D.State} (hs : D.ready s) (t : Track) :
    D.Sends s (encodeAll (d.blankTrack t)) [] fun cells _ =>
      cells = (D.cell s).write t.line 1 (List.replicate d.columns '#') := by
  have hw := h.two_le
  have hc := h.columns_le
  have htext : "".pushn Symbol.blank.toChar d.columns = String.ofList (List.replicate d.columns '#') :=
    String.toList_injective (by simp [toList_pushn, Symbol.toChar])
  rw [Display.blankTrack, htext, encodeAll_cons, encodeAll_cons, encodeAll_nil, String.append_empty]
  refine Sends.append (r := []) (sends_cursor h.toRoom.draws hs (h.toRoom.inGrid_track t 1 (by omega) (by omega))) fun s1 hs1 hmid1 => ?_
  refine (sends_shown h.lawful _ s1 hs1 ?_).imp ?_
  · intro c hcm
    rw [List.eq_of_mem_replicate hcm]
    decide
  · rintro cells cursor ⟨-, -, hfit⟩
    rw [hmid1.1, hmid1.2] at hfit
    exact hfit (by rw [List.length_replicate]; omega)

/-- The first program fills both tracks with blanks and leaves the cursor under the first head. -/
theorem sends_initProgram {s : D.State} (hs : D.ready s) {prompt : String} (hp : Shown prompt) :
    D.Sends s (encodeAll (d.initProgram prompt)) [] fun cells cursor =>
      (∀ (t : Track) (k : Nat), 1 ≤ k → k ≤ d.columns → cells t.line k = '#') ∧ cursor = (Track.first.line, d.headColumn) := by
  have hprog : d.initProgram prompt = [.clear] ++ (d.blankTrack .first ++ (d.blankTrack .second ++
      [.cursor statusLine 1, .text prompt, .cursor Track.first.line d.headColumn])) := by
    simp [Display.initProgram, Track.both]
  rw [hprog]
  have hclear : D.Sends s (encodeAll [.clear]) [] fun _ _ => True := by
    rw [encodeAll_cons, encodeAll_nil, String.append_empty]
    exact (h.lawful.clear s hs).imp fun _ _ _ => trivial
  refine sends_encodeAll_append (v := []) hclear fun s1 hs1 _ => ?_
  refine sends_encodeAll_append (v := []) (sends_blankTrack h hs1 .first) fun s2 hs2 hmid2 => ?_
  refine sends_encodeAll_append (v := []) (sends_blankTrack h hs2 .second) fun s3 hs3 hmid3 => ?_
  have hblank : ∀ (t : Track) (k : Nat), 1 ≤ k → k ≤ d.columns → D.cell s3 t.line k = '#' := by
    intro t k h1 h2
    have hget : (List.replicate d.columns '#').getD (k - 1) ' ' = '#' := by
      rw [List.getD_eq_getElem?_getD, List.getElem?_replicate, if_pos (by omega)]
      rfl
    rw [hmid3, hmid2]
    cases t with
    | first =>
      unfold Cells.write
      rw [if_neg (by simp [Track.line]), List.length_replicate, if_pos ⟨rfl, h1, by omega⟩, hget]
    | second =>
      unfold Cells.write
      rw [List.length_replicate, if_pos ⟨rfl, h1, by omega⟩, hget]
  rw [encodeAll_cons, encodeAll_cons, encodeAll_cons, encodeAll_nil, String.append_empty]
  refine Sends.append (r := []) (sends_cursor h.toRoom.draws hs3 h.toRoom.inGrid_status) fun s4 hs4 hmid4 => ?_
  have htext := sends_shown h.lawful prompt.toList s4 hs4 hp
  rw [String.ofList_toList] at htext
  refine Sends.append (r := []) htext fun s5 hs5 hmid5 => ?_
  refine (sends_cursor h.toRoom.draws hs5 (h.toRoom.inGrid_head .first)).imp ?_
  rintro cells cursor ⟨rfl, rfl⟩
  refine ⟨fun t k h1 h2 => ?_, rfl⟩
  rw [hmid5.2.1 _ _ (by rw [hmid4.2]; cases t <;> decide), hmid4.1, hblank t k h1 h2]

/-- A halt program shows its message and the footer below the tracks, asks for nothing, and changes no other line. -/
theorem sends_haltProgram {s : D.State} (hs : D.ready s) (hrows : 5 ≤ D.rows) {message : String} (hm : Shown message) :
    D.Sends s (encodeAll (Display.haltProgram message)) [] fun cells cursor =>
      (∀ r k, r ≠ 3 → r ≠ 4 → cells r k = D.cell s r k) ∧ cursor = (5, 1) ∧
        ((padRight message haltMessageWidth).length ≤ D.columns → cells.ShowsText 3 (padRight message haltMessageWidth)) ∧
        (haltFooter.length ≤ D.columns → cells.ShowsText 4 haltFooter) := by
  have hg : ∀ row, 1 ≤ row → row ≤ 5 → D.InGrid row 1 := by
    intro row h1 h2
    have hw := h.two_le
    have hc := h.columns_le
    exact ⟨h1, by omega, by omega, by omega⟩
  have hshown : ∀ c ∈ (padRight message haltMessageWidth).toList, isControlChar c = false := by
    intro c hc
    rw [padRight, toList_pushn, List.mem_append] at hc
    rcases hc with hc | hc
    · exact hm c hc
    · rw [List.eq_of_mem_replicate hc]
      decide
  unfold Display.haltProgram
  simp only [encodeAll_cons, encodeAll_nil, String.append_empty]
  refine Sends.append (r := []) (sends_cursor h.toRoom.draws hs (hg 3 (by decide) (by decide))) fun s1 hs1 hmid1 => ?_
  have htext := sends_shown h.lawful _ s1 hs1 hshown
  rw [String.ofList_toList] at htext
  refine Sends.append (r := []) htext fun s2 hs2 hmid2 => ?_
  refine Sends.append (r := []) (sends_cursor h.toRoom.draws hs2 (hg 4 (by decide) (by decide))) fun s3 hs3 hmid3 => ?_
  have hfooter : Shown haltFooter := by decide
  have hfoot := sends_shown h.lawful haltFooter.toList s3 hs3 hfooter
  rw [String.ofList_toList] at hfoot
  refine Sends.append (r := []) hfoot fun s4 hs4 hmid4 => ?_
  refine (sends_cursor h.toRoom.draws hs4 (hg 5 (by decide) (by decide))).imp ?_
  rintro cells cursor ⟨rfl, rfl⟩
  have hrow4 : ∀ r k, r ≠ 4 → D.cell s4 r k = D.cell s2 r k := by
    intro r k hr
    rw [hmid4.2.1 r k (by rw [hmid3.2]; exact hr), hmid3.1]
  refine ⟨fun r k h3 h4 => ?_, rfl, fun hfit => ?_, fun hfit => ?_⟩
  · rw [hrow4 r k h4, hmid2.2.1 r k (by rw [hmid1.2]; exact h3), hmid1.1]
  · intro k hk
    rw [hrow4 3 (k + 1) (by decide), hmid2.2.2 (by rw [hmid1.2, String.length_toList]; omega), hmid1.2]
    exact Cells.write_at_one _ _ _ hk
  · intro k hk
    rw [hmid4.2.2 (by rw [hmid3.2, String.length_toList]; omega), hmid3.2]
    exact Cells.write_at_one _ _ _ hk

end

end Device

end DispatchTree
