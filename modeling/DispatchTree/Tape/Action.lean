import DispatchTree.Tape.Symbol

/-!
# Actions

An action is the answer of a machine to a pair of symbols: the state it enters and, for each track, the symbol written and
the move made. Actions are ordered by the next state's text, then by the operation on the first track, then by the second.
-/

namespace DispatchTree

/-- What happens on one track: a symbol is written, then the head moves. -/
structure TrackOp where
  write : Symbol
  shift : Move
  deriving DecidableEq, Repr

/-- The state entered and the operation on each track. -/
structure Action where
  next : String
  first : TrackOp
  second : TrackOp
  deriving DecidableEq, Repr

/-- The state that every unspecified transition leads to. -/
def sinkState : String := "invalid"

/-- The message shown in the sink unless the machine gives it one. -/
def sinkMessage : String := "Invalid State, halting"

namespace TrackOp

/-- A blank is written and the head stays. -/
def idle : TrackOp := ⟨.blank, .stay⟩

/-- The operation's text, as in `0R`. -/
def text (op : TrackOp) : String := op.write.text ++ op.shift.text

instance : Ord TrackOp where
  compare := compareLex (compareOn TrackOp.write) (compareOn TrackOp.shift)

instance : Std.TransOrd TrackOp :=
  inferInstanceAs (Std.TransCmp (compareLex (compareOn TrackOp.write) (compareOn TrackOp.shift)))

instance : Std.LawfulEqOrd TrackOp where
  eq_of_compare {a b} h := by
    rcases a with ⟨a1, a2⟩; rcases b with ⟨b1, b2⟩
    have h' : (compare a1 b1).then (compare a2 b2) = .eq := h
    rw [Ordering.then_eq_eq, Std.LawfulEqOrd.compare_eq_iff_eq, Std.LawfulEqOrd.compare_eq_iff_eq] at h'
    rw [h'.1, h'.2]

end TrackOp

namespace Action

/-- The action of every transition a machine leaves out. -/
def invalid : Action := ⟨sinkState, .idle, .idle⟩

/-- The operation of an action on a track. -/
def op (a : Action) : Track → TrackOp
  | .first => a.first
  | .second => a.second

/-- The action's text, as in `done 0R #N`. -/
def text (a : Action) : String := a.next ++ " " ++ a.first.text ++ " " ++ a.second.text

instance : Ord Action where
  compare := compareLex (compareOn Action.next) (compareLex (compareOn Action.first) (compareOn Action.second))

instance : Std.TransOrd Action :=
  inferInstanceAs (Std.TransCmp
    (compareLex (compareOn Action.next) (compareLex (compareOn Action.first) (compareOn Action.second))))

instance : Std.LawfulEqOrd Action where
  eq_of_compare {a b} h := by
    rcases a with ⟨a1, a2, a3⟩; rcases b with ⟨b1, b2, b3⟩
    have h' : (compare a1 b1).then ((compare a2 b2).then (compare a3 b3)) = .eq := h
    rw [Ordering.then_eq_eq, Ordering.then_eq_eq, Std.LawfulEqOrd.compare_eq_iff_eq, Std.LawfulEqOrd.compare_eq_iff_eq,
      Std.LawfulEqOrd.compare_eq_iff_eq] at h'
    rw [h'.1, h'.2.1, h'.2.2]

/-- A list of actions in the order of the type; equal actions keep their places. -/
def sort (as : List Action) : List Action := as.mergeSort fun a b => (compare a b).isLE

end Action

end DispatchTree
