/-!
# Text patterns

A pattern describes texts by characters, sequences, choices and repetitions. It is looked for from front to back, by following
several ways through the pattern at once in the order of their preference. As soon as a way has come to its end, the ways that are
less preferred are given up; so a text matches when a way that was not given up ends exactly where the text ends.
-/

namespace DispatchTree.Text

/-- A class of characters: those that lie in one of the ranges, or those that lie in none. -/
structure CharClass where
  negated : Bool
  ranges : List (Char × Char)
  deriving DecidableEq, Repr

/-- Whether a class has a character. -/
def CharClass.has (k : CharClass) (c : Char) : Bool := (k.ranges.any fun r => r.1 ≤ c && c ≤ r.2) != k.negated

/-- What a pattern asks for. -/
inductive Shape where
  | nothing
  | one (members : CharClass)
  | textStart
  | textEnd
  | both (first second : Shape)
  /-- One of two; the first is preferred. -/
  | either (first second : Shape)
  /-- Any number of times, as often as possible or as seldom as possible. -/
  | loop (body : Shape) (greedy : Bool)
  deriving DecidableEq, Repr

namespace Shape

/-- Whether a shape can be found without any character. -/
def isNullable : Shape → Bool
  | .nothing | .textStart | .textEnd | .loop _ _ => true
  | .one _ => false
  | .both a b => a.isNullable && b.isNullable
  | .either a b => a.isNullable || b.isNullable

/-- A shape or nothing. -/
def optional (s : Shape) (greedy : Bool) : Shape := if greedy then .either s .nothing else .either .nothing s

/-- A shape once or more often. -/
def onceOrMore (s : Shape) (greedy : Bool) : Shape := .both s (.loop s greedy)

/-- A shape any number of times. One that can be found without any character is tried once before the repetition is left out. -/
def anyNumber (s : Shape) (greedy : Bool) : Shape :=
  if s.isNullable then optional (onceOrMore s greedy) greedy else .loop s greedy

end Shape

/-- A pattern with the text that spells it. -/
structure Pattern where
  text : String
  shape : Shape
  deriving DecidableEq, Repr

namespace Pattern

/-- A way through a pattern: what is still asked for. -/
abbrev Way := List Shape

/-- The ways that lead on from given ways without a character: those that ask for one next, or have come to their end. A way is
taken only once, where it is preferred most. `first` and `last` tell whether the text starts or ends here. -/
def waysOn (first last : Bool) : Nat → List Way → List Way → List Way
  | 0, _, _ => []
  | _, _, [] => []
  | fuel + 1, seen, w :: ws =>
    if seen.contains w then waysOn first last fuel seen ws
    else
      let into (next : List Way) := waysOn first last fuel (w :: seen) (next ++ ws)
      match w with
      | [] => [] :: into []
      | .one k :: rest => (.one k :: rest) :: into []
      | .nothing :: rest => into [rest]
      | .textStart :: rest => if first then into [rest] else into []
      | .textEnd :: rest => if last then into [rest] else (.textEnd :: rest) :: into []
      | .both a b :: rest => into [a :: b :: rest]
      | .either a b :: rest => into [a :: rest, b :: rest]
      | .loop a true :: rest => into [a :: .loop a true :: rest, rest]
      | .loop a false :: rest => into [rest, a :: .loop a false :: rest]

/-- What is left of a way behind a character. -/
def behind? (c : Char) : Way → Option Way
  | .one k :: rest => if k.has c then some rest else none
  | _ => none

/-- How far a search has come: the ways that are followed, and whether the pattern may still begin later because none of them
has come to its end. -/
structure Search where
  ways : List Way
  unfound : Bool

/-- The ways up to the first that has come to its end. -/
def upToEnd : List Way → List Way
  | [] => []
  | w :: ws => if w.isEmpty then [w] else w :: upToEnd ws

/-- The number of steps that are enough to find all ways: each part of a pattern asks for at most two ways more. -/
def fuel (p : Pattern) : Nat := 8 * (p.text.length + 2)

/-- A search that follows ways; the end of one of them ends the search for later places. -/
def searchAlong (ways : List Way) (unfound : Bool) : Search := ⟨upToEnd ways, unfound && !ways.contains []⟩

/-- The search before the first character. -/
def start (p : Pattern) : Search := searchAlong (waysOn true false p.fuel [] [[p.shape]]) true

/-- The search behind a character. -/
def step (p : Pattern) (s : Search) (c : Char) : Search :=
  let ways := s.ways.filterMap (behind? c) ++ (if s.unfound then [[p.shape]] else [])
  searchAlong (waysOn false false (p.fuel + ways.length) [] ways) s.unfound

/-- Whether a pattern is found in a text so that it ends where the text ends. -/
def isFoundIn (p : Pattern) (s : String) : Bool :=
  let search := s.toList.foldl p.step p.start
  (waysOn s.isEmpty true (p.fuel + search.ways.length) [] search.ways).contains []

end Pattern

end DispatchTree.Text
