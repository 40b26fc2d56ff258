import DispatchTree.Proofs.Screen.Window
import DispatchTree.Proofs.Simulation

/-!
# Running a compiled machine on a device

A session sends the programs of a compiled machine to a device and lets the device's replies choose the next node: the two
replies, in either order, are a dispatch key. Nothing in it knows the machine. `Session.Follows` relates a session to the
configuration the machine is in; a session that has been started follows the initial configuration (`follows_start`), and one
round of it is one step of the machine (`next?_step`, `next?_halt`).
-/

namespace DispatchTree

/-! ## Sessions -/

/-- What a device shows, the replies to the last program, and the position in the graph. -/
structure Session (D : Device) where
  screen : D.State
  replies : List String
  position : Option Nat

namespace Session

variable {D : Device}

/-- A session begins with the first program, the word the operator types, and the program that is shown after it. -/
def start (D : Device) (d : Display) (prompt : String) (word : List Symbol) (s : D.State) : Session D :=
  let cleared := (D.send s (encodeAll (d.initProgram prompt))).1
  let typed := (D.send cleared (String.ofList (word.map Symbol.toChar))).1
  let sent := D.send typed (encodeAll d.postInitProgram)
  ⟨sent.1, sent.2, none⟩

/-- The two replies joined, the second one first if they are swapped. -/
def key? (σ : Session D) (swapped : Bool) : Option String :=
  match σ.replies with
  | [one, two] => some (if swapped then two ++ one else one ++ two)
  | _ => none

/-- One round: the replies lead to a node, whose program is sent. -/
def next? (g : Graph) (d : Display) (swapped : Bool) (σ : Session D) : Option (Session D) := do
  let key ← σ.key? swapped
  let id ← g.follow σ.position key
  let node ← g.node? id
  let program ← (node.program.render d).toOption
  let sent := D.send σ.screen program
  return ⟨sent.1, sent.2, some id⟩

/-- Rounds one after the other, each with the replies in a given order. -/
def run (g : Graph) (d : Display) : List Bool → Session D → Option (Session D)
  | [], σ => some σ
  | swapped :: orders, σ => (σ.next? g d swapped).bind (run g d orders)

theorem run_append (g : Graph) (d : Display) (xs ys : List Bool) (σ : Session D) :
    σ.run g d (xs ++ ys) = (σ.run g d xs).bind (run g d ys) := by
  induction xs generalizing σ with
  | nil => rfl
  | cons x xs ih =>
    simp only [List.cons_append, run]
    cases σ.next? g d x with
    | none => rfl
    | some τ => exact ih τ

/-- The device shows a configuration and has reported the pair under its heads. -/
structure Shows (σ : Session D) (d : Display) (c : Configuration) : Prop where
  tracks : d.Shows (D.cell σ.screen) c
  replies : σ.replies = Track.both.map fun t => checksumReply (c.read.get t) t

/-- The device shows a configuration and, below it, a message; it has reported nothing. -/
structure ShowsHalt (σ : Session D) (d : Display) (c : Configuration) (message : String) : Prop where
  tracks : d.Shows (D.cell σ.screen) c
  replies : σ.replies = []
  message : (padRight message haltMessageWidth).length ≤ D.columns →
    (D.cell σ.screen).ShowsText 3 (padRight message haltMessageWidth)
  footer : haltFooter.length ≤ D.columns → (D.cell σ.screen).ShowsText 4 haltFooter

/-- A session follows a machine that is in a configuration. Every action of the machine has a number of its own. -/
structure Follows (σ : Session D) (m : Machine) (d : Display) (c : Configuration) : Prop where
  numbered : m.catalog.size ≤ Catalog.capacity
  ready : D.ready σ.screen
  view : σ.Shows d c
  inside : d.Inside c
  standing : Standing m σ.position c.state

end Session

/-- No track is shown on the status line. -/
theorem Track.line_ne_status (t : Track) : t.line ≠ statusLine := by cases t <;> decide

/-! ## Replies -/

/-- The reply of a device for a symbol is the one that dispatch keys are made of. -/
theorem replyText_symbol (t : Track) (x : Symbol) : replyText t.line x.toChar = checksumReply x t := by
  cases t <;> cases x <;> decide

/-- What a device replies when it shows a configuration. -/
theorem replies_of_shows {d : Display} (hw : 2 ≤ d.columns) {cells : Cells} {c : Configuration} (h : d.Shows cells c) :
    (Track.both.map fun t => replyText t.line (cells t.line d.headColumn)) =
      Track.both.map fun t => checksumReply (c.read.get t) t := by
  have hhead : d.headColumn = d.columns / 2 := rfl
  apply List.map_congr_left
  intro t _
  rw [h t d.headColumn (by omega) (by omega), c.get_read, ← replyText_symbol]
  congr 3
  omega

namespace Session

variable {D : Device} {m : Machine} {d : Display} {σ : Session D} {c : Configuration}

/-- The joined replies are a dispatch key of the pair under the heads. -/
theorem Shows.key (h : σ.Shows d c) (swapped : Bool) : ∃ key, σ.key? swapped = some key ∧ key ∈ c.read.dispatchKeys := by
  refine ⟨if swapped then c.read.reverseKey else c.read.forwardKey, ?_, ?_⟩
  · unfold key?
    rw [h.replies]
    cases swapped <;> rfl
  · cases swapped <;> simp [SymbolPair.dispatchKeys]

/-! ## Rounds -/

/-- A round that reaches a node sends the node's program. -/
theorem next?_eq {g : Graph} {swapped : Bool} {key : String} {id : Nat} {node : Node} {program : String}
    (hk : σ.key? swapped = some key) (hf : g.follow σ.position key = some id) (hn : g.node? id = some node)
    (hp : node.program.render d = .ok program) :
    σ.next? g d swapped = some ⟨(D.send σ.screen program).1, (D.send σ.screen program).2, some id⟩ := by
  simp [next?, hk, hf, hn, hp, Except.toOption]

/-- Where the machine takes an action, a round reaches the node of the action. -/
theorem Follows.reach (h : σ.Follows m d c) {a : Action} (ha : m.step? c.state c.read = some a) (swapped : Bool) :
    ∃ key id, σ.key? swapped = some key ∧ m.graph.follow σ.position key = some id ∧ m.catalog.get? a = some id ∧
      m.graph.node? id = some (m.nodeOf id a) := by
  obtain ⟨key, hk, hmem⟩ := h.view.key swapped
  obtain ⟨id, hid, hn⟩ := node_of_step h.numbered h.standing.2 ha
  refine ⟨key, id, hk, ?_, hid, hn⟩
  rw [follow_key h.standing hmem, ha, Option.bind_some, hid]

/-- An action that does not end the run: after the round the session follows what the action makes of the configuration. -/
theorem next?_step (hD : D.Holds d) (hw : 4 ≤ d.columns) (h : σ.Follows m d c) {a : Action}
    (ha : m.step? c.state c.read = some a) (hgo : m.message? a.next = none) (hkeep : d.Keeps c a) (swapped : Bool) :
    ∃ τ, σ.next? m.graph d swapped = some τ ∧ τ.Follows m d (c.apply a) ∧ m.catalog.get? a = τ.position := by
  obtain ⟨key, id, hk, hf, hid, hn⟩ := h.reach ha swapped
  obtain ⟨p, hp, hsend⟩ := Device.sends_stepProgram hD h.ready a.first a.second
  have hrender : (m.nodeOf id a).program.render d = .ok (encodeAll p) := by
    simp only [Machine.nodeOf, m.programOf_eq, hgo, Program.render, Program.commands, hp, Except.map]
  refine ⟨_, next?_eq hk hf hn hrender, ?_, hid⟩
  have hshow : d.Shows (Device.stepCells d a.first a.second (D.cell σ.screen)) (c.apply a) :=
    shows_stepCells (by omega) h.view.tracks h.inside
  obtain ⟨hready, hrep, hcells, _⟩ := hsend
  refine ⟨h.numbered, hready, ⟨?_, ?_⟩, inside_apply hw h.inside hkeep, standing_node m ha hn⟩
  · rw [hcells]
    exact hshow
  · rw [hrep]
    exact replies_of_shows hD.two_le hshow

/-- An action that ends the run: the message is shown, the tracks stay, and nothing is reported. -/
theorem next?_halt (hD : D.Holds d) (hrows : 5 ≤ D.rows) (h : σ.Follows m d c) {a : Action}
    (ha : m.step? c.state c.read = some a) {message : String} (hstop : m.message? a.next = some message)
    (hm : Shown message) (swapped : Bool) :
    ∃ τ, σ.next? m.graph d swapped = some τ ∧ τ.ShowsHalt d c message ∧ m.catalog.get? a = τ.position := by
  obtain ⟨key, id, hk, hf, hid, hn⟩ := h.reach ha swapped
  have hrender : (m.nodeOf id a).program.render d = .ok (encodeAll (Display.haltProgram message)) := by
    simp only [Machine.nodeOf, m.programOf_eq, hstop, Program.render, Program.commands, Except.map]
  refine ⟨_, next?_eq hk hf hn hrender, ?_, hid⟩
  obtain ⟨_, hrep, hsame, _, hmessage, hfooter⟩ := Device.sends_haltProgram hD h.ready hrows hm
  generalize D.send σ.screen (encodeAll (Display.haltProgram message)) = sent at hrep hsame hmessage hfooter ⊢
  refine ⟨fun t k h1 h2 => ?_, hrep, hmessage, hfooter⟩
  rw [hsame t.line k t.line_ne_status (fun he => by cases t <;> simp [Track.line] at he)]
  exact h.view.tracks t k h1 h2

/-- Where the machine has stopped, no round is possible. -/
theorem Follows.next?_eq_none (h : σ.Follows m d c) (hs : m.step? c.state c.read = none) (swapped : Bool) :
    σ.next? m.graph d swapped = none := by
  obtain ⟨key, hk, hmem⟩ := h.view.key swapped
  simp [next?, hk, (follow_eq_none_iff h.standing hmem).2 hs]

/-- After a halt program no round is possible. -/
theorem ShowsHalt.next?_eq_none {message : String} (h : σ.ShowsHalt d c message) (g : Graph) (swapped : Bool) :
    σ.next? g d swapped = none := by
  simp [next?, key?, h.replies]

/-! ## The start -/

/-- A word that is typed on two tracks of blanks is shown as the initial configuration. -/
theorem sends_word (hD : D.Holds d) (state : String) {word : List Symbol} (hword : word.length ≤ d.columns - d.headColumn + 1)
    {s : D.State} (hs : D.ready s) (hcur : D.cursor s = (Track.first.line, d.headColumn))
    (hblank : ∀ (t : Track) (k : Nat), 1 ≤ k → k ≤ d.columns → D.cell s t.line k = '#') :
    D.Sends s (String.ofList (word.map Symbol.toChar)) [] fun cells _ => d.Shows cells (.start state word) := by
  have hw := hD.two_le
  have hc := hD.columns_le
  have hhead : d.headColumn = d.columns / 2 := rfl
  have hshown : ∀ x ∈ word.map Symbol.toChar, isControlChar x = false := by
    intro x hx
    obtain ⟨y, _, rfl⟩ := List.mem_map.1 hx
    exact Device.isControlChar_symbol y
  refine (Device.sends_shown hD.lawful _ s hs hshown).imp ?_
  rintro cells cursor ⟨-, -, hfit⟩
  rw [hcur, List.length_map] at hfit
  rw [hfit (by simp only; omega)]
  apply shows_start
  intro t k hk1 hk2
  unfold Cells.write
  rw [hblank t k hk1 hk2, List.length_map]
  cases t with
  | first => simp
  | second => simp [Track.line]

/-- A session that has been started follows the machine in its initial configuration. -/
theorem follows_start (hD : D.Holds d) (hm : m.catalog.size ≤ Catalog.capacity) (hp : Shown m.prompt) {word : List Symbol}
    (hword : word.length ≤ d.columns - d.headColumn + 1) {s : D.State} (hs : D.ready s) :
    (start D d m.prompt word s).Follows m d (.start m.initial word) := by
  simp only [start]
  obtain ⟨h1, _, hblank, hcur⟩ := Device.sends_initProgram hD hs hp
  generalize (D.send s (encodeAll (d.initProgram m.prompt))).1 = s1 at h1 hblank hcur ⊢
  obtain ⟨h2, _, hshows⟩ := sends_word hD m.initial hword h1 hcur hblank
  generalize (D.send s1 (String.ofList (word.map Symbol.toChar))).1 = s2 at h2 hshows ⊢
  obtain ⟨h3, hrep, hsame, _⟩ := Device.sends_postInitProgram hD h2
  rw [replies_of_shows hD.two_le hshows] at hrep
  generalize D.send s2 (encodeAll d.postInitProgram) = sent at h3 hrep hsame ⊢
  refine ⟨hm, h3, ⟨fun t k hk1 hk2 => ?_, hrep⟩, inside_start hD.two_le m.initial hword, standing_root m⟩
  rw [hsame t.line k t.line_ne_status]
  exact hshows t k hk1 hk2

end Session

end DispatchTree
