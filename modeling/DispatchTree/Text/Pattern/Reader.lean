import DispatchTree.Text.Pattern

/-!
# Reading patterns

A pattern is written with the usual signs: a point for any character of a line, brackets for classes, parentheses for groups, a bar
between choices, signs for repetitions behind what is repeated, and a backslash before a sign that stands for itself. There are no
names for classes of characters, no counted repetitions, no classes within classes and no switches.
-/

namespace DispatchTree.Text.Pattern

/-- A reader of a part of a pattern. -/
abbrev PartReader := List Char → Option (Shape × List Char)

/-- One character as a shape. -/
def exactly (c : Char) : Shape := .one ⟨false, [(c, c)]⟩

/-- The characters of a line. -/
def anyOfLine : Shape := .one ⟨true, [('\n', '\n')]⟩

/-- The character that a letter stands for behind a backslash. -/
def control? : Char → Option Char
  | 'a' => some '\x07'
  | 'f' => some '\x0c'
  | 't' => some '\t'
  | 'n' => some '\n'
  | 'r' => some '\r'
  | 'v' => some '\x0b'
  | _ => none

/-- Whether a sign behind a backslash stands for itself. -/
def isSign (c : Char) : Bool := c.toNat < 0x80 && !c.isAlphanum && c != '<' && c != '>'

/-- The character that stands behind a backslash. -/
def escapedChar? (c : Char) : Option Char := (control? c).or (if isSign c then some c else none)

/-- What stands behind a backslash outside of a class: a place in the text or a character. -/
def escapedShape? : Char → Option Shape
  | 'A' => some .textStart
  | 'z' => some .textEnd
  | c => (escapedChar? c).map exactly

/-- One character of a class. -/
def classMember : List Char → Option (Char × List Char)
  | [] | '[' :: _ | ['\\'] => none
  | '\\' :: c :: cs => (escapedChar? c).map (·, cs)
  | c :: cs => some (c, cs)

/-- The ranges of a class up to its closing bracket. -/
def classRanges : Nat → List (Char × Char) → List Char → Option (List (Char × Char) × List Char)
  | 0, _, _ => none
  | _, acc, ']' :: cs => some (acc.reverse, cs)
  | fuel + 1, acc, cs => do
    let (first, cs) ← classMember cs
    match cs with
    | '-' :: ']' :: _ => classRanges fuel ((first, first) :: acc) cs
    | '-' :: cs =>
      let (last, cs) ← classMember cs
      if first ≤ last then classRanges fuel ((first, last) :: acc) cs else none
    | cs => classRanges fuel ((first, first) :: acc) cs

/-- A class behind its opening bracket. A closing bracket or a dash that stands first is a member. -/
def charClass (cs : List Char) : Option (Shape × List Char) :=
  let (negated, cs) := match cs with
    | '^' :: cs => (true, cs)
    | cs => (false, cs)
  let (first, cs) := match cs with
    | ']' :: cs => ([(']', ']')], cs)
    | '-' :: cs => ([('-', '-')], cs)
    | cs => ([], cs)
  (classRanges (cs.length + 1) first cs).map fun (ranges, cs) => (.one ⟨negated, ranges⟩, cs)

/-- The name of a group behind its opening angle bracket. -/
def groupName (cs : List Char) : Option (List Char) :=
  match cs.takeWhile (· != '>'), cs.dropWhile (· != '>') with
  | c :: name, _ :: rest =>
    if (c.isAlpha || c == '_') && name.all (fun c => c.isAlphanum || c == '_') then some rest else none
  | _, _ => none

/-- The start of a group behind its opening parenthesis: its name or its lack of one is passed over. -/
def groupStart : List Char → Option (List Char)
  | '?' :: ':' :: cs => some cs
  | '?' :: 'P' :: '<' :: cs => groupName cs
  | '?' :: '<' :: cs => groupName cs
  | '?' :: _ => none
  | cs => some cs

/-- What may be repeated: a character, a class, a group or a place. -/
def atom (choice : PartReader) : PartReader
  | '(' :: cs => do
    match ← choice (← groupStart cs) with
    | (s, ')' :: cs) => some (s, cs)
    | _ => none
  | '[' :: cs => charClass cs
  | '.' :: cs => some (anyOfLine, cs)
  | '^' :: cs => some (.textStart, cs)
  | '$' :: cs => some (.textEnd, cs)
  | '\\' :: c :: cs => (escapedShape? c).map (·, cs)
  | c :: cs => if ['\\', '*', '+', '?', '\x7b', '|', ')'].contains c then none else some (exactly c, cs)
  | [] => none

/-- A shape with the signs for repetitions that stand behind it. -/
def repeated : Nat → Shape → List Char → Shape × List Char
  | 0, s, cs => (s, cs)
  | fuel + 1, s, cs =>
    let lazily (cs : List Char) (f : Bool → Shape) : Shape × List Char :=
      match cs with
      | '?' :: cs => repeated fuel (f false) cs
      | cs => repeated fuel (f true) cs
    match cs with
    | '*' :: cs => lazily cs s.anyNumber
    | '+' :: cs => lazily cs s.onceOrMore
    | '?' :: cs => lazily cs s.optional
    | cs => (s, cs)

/-- The parts of a sequence up to its end, added to `acc`. -/
def sequence (choice : PartReader) : Nat → Shape → PartReader
  | 0, _, _ => none
  | fuel + 1, acc, cs =>
    match cs with
    | [] | '|' :: _ | ')' :: _ => some (acc, cs)
    | cs => do
      let (s, cs) ← atom choice cs
      let (s, cs) := repeated cs.length s cs
      sequence choice fuel (if acc = .nothing then s else .both acc s) cs

/-- The choices of a group up to its end. -/
def choices (choice : PartReader) : Nat → PartReader
  | 0, _ => none
  | fuel + 1, cs => do
    let (s, cs) ← sequence choice (cs.length + 1) .nothing cs
    match cs with
    | '|' :: cs =>
      let (t, cs) ← choices choice fuel cs
      some (.either s t, cs)
    | cs => some (s, cs)

/-- A shape with groups within each other up to a depth. -/
def shapeWithin : Nat → PartReader
  | 0 => fun _ => none
  | depth + 1 => fun cs => choices (shapeWithin depth) (cs.length + 1) cs

/-- The deepest groups within each other. -/
def maxDepth : Nat := 250

/-- The pattern that a text spells. -/
def parse? (s : String) : Option Pattern :=
  match shapeWithin maxDepth s.toList with
  | some (shape, []) => some ⟨s, shape⟩
  | _ => none

end DispatchTree.Text.Pattern
