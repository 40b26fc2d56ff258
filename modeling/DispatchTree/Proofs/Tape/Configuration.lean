import DispatchTree.Proofs.Completion
import Mathlib.Logic.Function.Basic

/-!
# Machines on two tracks without ends

A configuration is the state of a machine together with its two tracks, each infinite in both directions with a head on it. An
action writes under each head and then moves it. A machine and its completed table go through the same configurations
(`Table.after_complete`).
-/

namespace DispatchTree

/-- By how many cells a move displaces a head. -/
def Move.offset : Move → Int
  | .left => -1
  | .right => 1
  | .stay => 0

/-- The state of a machine, what stands in the cells of its tracks, and where its heads are. -/
structure Configuration where
  state : String
  cells : Track → Int → Symbol
  head : Track → Int

namespace Configuration

/-- A word on the first track from the head rightwards, and blanks everywhere else. -/
def start (state : String) (word : List Symbol) : Configuration where
  state := state
  cells
    | .first, i => if 0 ≤ i then (word[i.toNat]?).getD .blank else .blank
    | .second, _ => .blank
  head _ := 0

/-- The pair under the heads. -/
def read (c : Configuration) : SymbolPair := ⟨c.cells .first (c.head .first), c.cells .second (c.head .second)⟩

/-- What an action makes of a configuration. -/
def apply (c : Configuration) (a : Action) : Configuration where
  state := a.next
  cells t := Function.update (c.cells t) (c.head t) (a.op t).write
  head t := c.head t + (a.op t).shift.offset

/-- What is read on a track is the symbol under its head. -/
theorem get_read (c : Configuration) (t : Track) : c.read.get t = c.cells t (c.head t) := by cases t <;> rfl

end Configuration

/-- The next configuration of a machine, unless it has stopped. -/
def Machine.advance? (m : Machine) (c : Configuration) : Option Configuration := (m.step? c.state c.read).map c.apply

/-- The next configuration by a table, if the table has an answer. -/
def Table.advance? (t : Table) (c : Configuration) : Option Configuration := (t.lookup c.state c.read).map c.apply

/-- The result of a number of steps, if that many can be made. -/
def after {α : Type} (step : α → Option α) : Nat → α → Option α
  | 0, a => some a
  | n + 1, a => (step a).bind (after step n)

theorem after_add {α : Type} (step : α → Option α) (n k : Nat) (a : α) :
    after step (n + k) a = (after step n a).bind (after step k) := by
  induction n generalizing a with
  | zero => simp [after]
  | succ n ih =>
    rw [Nat.succ_add]
    simp only [after]
    cases step a with
    | none => rfl
    | some b => exact ih b

/-- One step more after a number of steps. -/
theorem after_succ {α : Type} (step : α → Option α) (n : Nat) (a : α) :
    after step (n + 1) a = (after step n a).bind step := by
  rw [after_add]
  congr 1
  funext b
  simp [after]

/-- In a state that the machine mentions, the machine and its completed table take the same step. -/
theorem Table.advance?_complete (m : Machine) {c : Configuration} (h : c.state ∈ m.mentioned) :
    m.complete.advance? c = m.advance? c := by
  rw [Table.advance?, Machine.advance?, m.complete_lookup h]

/-- From a state that the machine mentions, the machine and its completed table have the same runs. -/
theorem Table.after_complete (m : Machine) (n : Nat) : ∀ {c : Configuration}, c.state ∈ m.mentioned →
    after m.complete.advance? n c = after m.advance? n c := by
  induction n with
  | zero => intro c _; rfl
  | succ n ih =>
    intro c h
    simp only [after, Table.advance?_complete m h]
    cases hs : m.step? c.state c.read with
    | none => simp [Machine.advance?, hs]
    | some a =>
      simp only [Machine.advance?, hs, Option.map_some, Option.bind_some]
      exact ih (m.next_mem_mentioned hs)

end DispatchTree
