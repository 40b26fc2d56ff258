/-!
# Symbols, moves and tracks

The alphabet has three symbols and a head has three moves. A machine reads two tracks at once, so what it sees is a pair of
symbols. The order of every type here is the order of its constructors; a pair is ordered by its first track.
-/

namespace DispatchTree

/-- A tape symbol. -/
inductive Symbol where
  | zero | one | blank
  deriving DecidableEq, Repr, Ord

/-- What a head does after its track is written. -/
inductive Move where
  | left | right | stay
  deriving DecidableEq, Repr, Ord

/-- One of the two tracks of the tape. -/
inductive Track where
  | first | second
  deriving DecidableEq, Repr

/-- The two symbols under the heads. -/
structure SymbolPair where
  first : Symbol
  second : Symbol
  deriving DecidableEq, Repr

namespace Symbol

/-- The alphabet in its order. -/
def all : List Symbol := [.zero, .one, .blank]

/-- The character that shows a symbol on the display. -/
def toChar : Symbol → Char
  | .zero => '0'
  | .one => '1'
  | .blank => '#'

/-- The symbol a character shows, if it shows one. -/
def ofChar? (c : Char) : Option Symbol :=
  if c = '0' then some .zero else if c = '1' then some .one else if c = '#' then some .blank else none

/-- The symbol's one-character text. -/
def text (s : Symbol) : String := String.singleton s.toChar

/-- The symbol's name in serialized actions. -/
def name : Symbol → String
  | .zero => "Zero"
  | .one => "One"
  | .blank => "Blank"

@[simp] theorem ofChar?_toChar (s : Symbol) : ofChar? s.toChar = some s := by
  cases s <;> rfl

instance : Std.TransOrd Symbol where
  eq_swap {a b} := by cases a <;> cases b <;> rfl
  isLE_trans {a b c} := by cases a <;> cases b <;> cases c <;> decide

instance : Std.LawfulEqOrd Symbol where
  compare_self {a} := by cases a <;> rfl
  eq_of_compare {a b} := by cases a <;> cases b <;> decide

end Symbol

namespace Move

/-- Every move, in the order of the type. -/
def all : List Move := [.left, .right, .stay]

/-- The letter of a move. -/
def toChar : Move → Char
  | .left => 'L'
  | .right => 'R'
  | .stay => 'N'

/-- The move a letter stands for, if it stands for one. -/
def ofChar? (c : Char) : Option Move :=
  if c = 'L' then some .left else if c = 'R' then some .right else if c = 'N' then some .stay else none

/-- The move's one-letter text. -/
def text (m : Move) : String := String.singleton m.toChar

/-- The move's name in serialized actions. -/
def name : Move → String
  | .left => "Left"
  | .right => "Right"
  | .stay => "Stay"

@[simp] theorem ofChar?_toChar (m : Move) : ofChar? m.toChar = some m := by
  cases m <;> rfl

instance : Std.TransOrd Move where
  eq_swap {a b} := by cases a <;> cases b <;> rfl
  isLE_trans {a b c} := by cases a <;> cases b <;> cases c <;> decide

instance : Std.LawfulEqOrd Move where
  compare_self {a} := by cases a <;> rfl
  eq_of_compare {a b} := by cases a <;> cases b <;> decide

end Move

namespace Track

/-- Both tracks, in the order in which they are drawn. -/
def both : List Track := [.first, .second]

/-- The track's number, which is also the display line it is drawn on. -/
def line : Track → Nat
  | .first => 1
  | .second => 2

end Track

namespace SymbolPair

/-- All nine pairs in the order of the type. -/
def all : List SymbolPair := Symbol.all.flatMap fun a => Symbol.all.map fun b => ⟨a, b⟩

/-- The symbol a pair holds on a track. -/
def get (p : SymbolPair) : Track → Symbol
  | .first => p.first
  | .second => p.second

/-- The pair's text, as in `(0,#)`. -/
def text (p : SymbolPair) : String := "(" ++ p.first.text ++ "," ++ p.second.text ++ ")"

instance : Ord SymbolPair where
  compare := compareLex (compareOn SymbolPair.first) (compareOn SymbolPair.second)

instance : Std.TransOrd SymbolPair :=
  inferInstanceAs (Std.TransCmp (compareLex (compareOn SymbolPair.first) (compareOn SymbolPair.second)))

instance : Std.LawfulEqOrd SymbolPair where
  eq_of_compare {a b} h := by
    rcases a with ⟨a1, a2⟩; rcases b with ⟨b1, b2⟩
    have h' : (compare a1 b1).then (compare a2 b2) = .eq := h
    rw [Ordering.then_eq_eq, Std.LawfulEqOrd.compare_eq_iff_eq, Std.LawfulEqOrd.compare_eq_iff_eq] at h'
    rw [h'.1, h'.2]

theorem mem_all (p : SymbolPair) : p ∈ all := by
  rcases p with ⟨a, b⟩
  cases a <;> cases b <;> decide

end SymbolPair

end DispatchTree
