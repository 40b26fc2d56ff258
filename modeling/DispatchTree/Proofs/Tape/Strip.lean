import DispatchTree.Proofs.Tape.Configuration

/-!
# Runs within finite pieces of the tracks

A strip is a finite piece of a track with the head on it; a head that leaves its strip is stuck. A run on strips is therefore a
run of the machine (`Strips.lies_after`) that stays within the strips, on tracks that are blank everywhere else. Strips are lists,
so loops of a machine are inductions on what stands on them.
-/

namespace DispatchTree

/-- A finite piece of a track: the cells before the head, the nearest one first, and the cells from the head on. -/
structure Strip where
  before : List Symbol
  ahead : List Symbol

namespace Strip

/-- Writes under the head and moves it. -/
def act (op : TrackOp) : Strip → Option Strip
  | ⟨_, []⟩ => none
  | ⟨l, _ :: r⟩ =>
    match op.shift, l with
    | .stay, l => some ⟨l, op.write :: r⟩
    | .right, l => some ⟨op.write :: l, r⟩
    | .left, x :: l => some ⟨l, x :: op.write :: r⟩
    | .left, [] => none

/-- The strip whose head is on the nearest of the cells before it. -/
def back : List Symbol → List Symbol → Strip
  | [], r => ⟨[], r⟩
  | x :: l, r => ⟨l, x :: r⟩

/-- All cells of a strip, from the first one on. -/
def content (s : Strip) : List Symbol := s.before.reverse ++ s.ahead

/-- A strip lies on a track: its first cell is at the origin, its head is the track's, and beyond it the track is blank. -/
structure Lies (s : Strip) (origin : Int) (cells : Int → Symbol) (head : Int) : Prop where
  head_eq : head = origin + s.before.length
  cells_eq : ∀ i, cells i = if origin ≤ i then (s.content[(i - origin).toNat]?).getD .blank else .blank

@[simp] theorem back_cons (x : Symbol) (l r : List Symbol) : back (x :: l) r = ⟨l, x :: r⟩ := rfl

/-- A symbol is written and the head stays. -/
theorem act_stay (l r : List Symbol) (x w : Symbol) : act ⟨w, .stay⟩ ⟨l, x :: r⟩ = some ⟨l, w :: r⟩ := rfl

/-- A symbol is written and the head leaves it to the left. -/
theorem act_right (l r : List Symbol) (x w : Symbol) : act ⟨w, .right⟩ ⟨l, x :: r⟩ = some ⟨w :: l, r⟩ := rfl

/-- A symbol is written and the head goes back, if there is something to the left. -/
theorem act_left {l : List Symbol} (hl : l ≠ []) (r : List Symbol) (x w : Symbol) :
    act ⟨w, .left⟩ ⟨l, x :: r⟩ = some (back l (w :: r)) := by
  cases l with
  | nil => exact absurd rfl hl
  | cons y l => rfl

/-- What an operation changes: the cell under the head, and the place of the head. -/
theorem act_eq_some {op : TrackOp} {l r : List Symbol} {x : Symbol} {s : Strip} (h : act op ⟨l, x :: r⟩ = some s) :
    s.content = (l.reverse ++ x :: r).set l.length op.write ∧ (s.before.length : Int) = l.length + op.shift.offset := by
  have hset : (l.reverse ++ x :: r).set l.length op.write = l.reverse ++ op.write :: r := by
    rw [← List.length_reverse, List.set_append_right _ _ (by omega), Nat.sub_self]
    rfl
  rw [hset]
  cases hm : op.shift with
  | stay =>
    simp only [act, hm, Option.some.injEq] at h
    subst h
    simp [content, Move.offset]
  | right =>
    simp only [act, hm, Option.some.injEq] at h
    subst h
    simp [content, Move.offset]
  | left =>
    cases l with
    | nil => simp [act, hm] at h
    | cons y l =>
      simp only [act, hm, Option.some.injEq] at h
      subst h
      refine ⟨by simp [content], ?_⟩
      simp only [List.length_cons, Move.offset]
      omega

/-- The cell under the head of a strip is the track's. -/
theorem Lies.read {origin head : Int} {cells : Int → Symbol} {l r : List Symbol} {x : Symbol}
    (h : Lies ⟨l, x :: r⟩ origin cells head) : cells head = x := by
  have hhead := h.head_eq
  simp only at hhead
  have hpos : (head - origin).toNat = l.length := by omega
  rw [h.cells_eq, if_pos (by omega), hpos, content, List.getElem?_append_right (by simp)]
  simp

/-- An operation on a strip is the operation on the track it lies on. -/
theorem Lies.act {origin head : Int} {cells : Int → Symbol} {op : TrackOp} {s s' : Strip} (h : s.Lies origin cells head)
    (ha : s.act op = some s') : s'.Lies origin (Function.update cells head op.write) (head + op.shift.offset) := by
  obtain ⟨l, ahead⟩ := s
  cases ahead with
  | nil => cases ha
  | cons x r =>
    obtain ⟨hcontent, hlength⟩ := act_eq_some ha
    have hhead := h.head_eq
    simp only at hhead
    refine ⟨by omega, fun i => ?_⟩
    rw [hcontent, List.getElem?_set, Function.update_apply]
    by_cases hi : i = head
    · have hpos : l.length = (i - origin).toNat := by omega
      rw [if_pos hi, if_pos (by omega), if_pos hpos, if_pos (by simp), Option.getD_some]
    · rw [if_neg hi, h.cells_eq]
      by_cases ho : origin ≤ i
      · rw [if_pos ho, if_pos ho, if_neg (by omega)]
        rfl
      · rw [if_neg ho, if_neg ho]

end Strip

/-- A state of a machine, and a strip of each track. -/
structure Strips where
  state : String
  first : Strip
  second : Strip

namespace Strips

/-- The strip of a track. -/
def get (c : Strips) : Track → Strip
  | .first => c.first
  | .second => c.second

/-- One step of a machine, unless it has stopped or a head leaves its strip. -/
def next? (m : Machine) (c : Strips) : Option Strips := do
  let x ← c.first.ahead.head?
  let y ← c.second.ahead.head?
  let a ← m.step? c.state ⟨x, y⟩
  let first ← c.first.act a.first
  let second ← c.second.act a.second
  return ⟨a.next, first, second⟩

/-- Strips lie on the tracks of a configuration that is in the same state. -/
structure Lies (c : Strips) (origin : Track → Int) (k : Configuration) : Prop where
  state_eq : k.state = c.state
  tracks : ∀ t, (c.get t).Lies (origin t) (k.cells t) (k.head t)

/-- A step on strips is a step of the machine. -/
theorem Lies.next? {m : Machine} {c c' : Strips} {origin : Track → Int} {k : Configuration} (h : c.Lies origin k)
    (hs : c.next? m = some c') : ∃ k', m.advance? k = some k' ∧ c'.Lies origin k' := by
  obtain ⟨state, ⟨l1, r1⟩, ⟨l2, r2⟩⟩ := c
  cases r1 with
  | nil => cases hs
  | cons x r1 =>
    cases r2 with
    | nil => cases hs
    | cons y r2 =>
      have hread : k.read = ⟨x, y⟩ := by
        rw [Configuration.read, (h.tracks .first).read, (h.tracks .second).read]
      simp only [Strips.next?, List.head?_cons, Option.bind_eq_bind, Option.bind_some, Option.bind_eq_some_iff] at hs
      obtain ⟨a, ha, one, hone, two, htwo, hc⟩ := hs
      obtain rfl := Option.some.inj hc
      refine ⟨k.apply a, ?_, rfl, fun t => ?_⟩
      · rw [Machine.advance?, hread, h.state_eq, ha]
        rfl
      · cases t with
        | first => exact (h.tracks .first).act hone
        | second => exact (h.tracks .second).act htwo

/-- A run on strips is a run of the machine. -/
theorem Lies.after {m : Machine} {origin : Track → Int} (n : Nat) : ∀ {c c' : Strips} {k : Configuration}, c.Lies origin k →
    DispatchTree.after (Strips.next? m) n c = some c' → ∃ k', DispatchTree.after m.advance? n k = some k' ∧ c'.Lies origin k' := by
  induction n with
  | zero =>
    intro c c' k h hs
    obtain rfl : c = c' := Option.some.inj hs
    exact ⟨k, rfl, h⟩
  | succ n ih =>
    intro c c' k h hs
    obtain ⟨d, hd, hs⟩ := Option.bind_eq_some_iff.1 hs
    obtain ⟨k', hk, h'⟩ := h.next? hd
    obtain ⟨k'', hk', h''⟩ := ih h' hs
    exact ⟨k'', by rw [DispatchTree.after, hk, Option.bind_some, hk'], h''⟩

/-- Blanks after a list do not change what is read as a blank beyond it. -/
theorem getD_append_blanks (l : List Symbol) (b k : Nat) :
    ((l ++ List.replicate b .blank)[k]?).getD .blank = (l[k]?).getD .blank := by
  by_cases hk : k < l.length
  · rw [List.getElem?_append_left hk]
  · rw [List.getElem?_append_right (by omega), List.getElem?_replicate, List.getElem?_eq_none (Nat.le_of_not_lt hk)]
    split <;> rfl

/-- Blanks around a word lie on the tracks of an initial configuration. -/
theorem lies_start (state : String) (word : List Symbol) (a b c d : Nat) :
    Lies ⟨state, ⟨List.replicate a .blank, word ++ List.replicate b .blank⟩,
      ⟨List.replicate c .blank, List.replicate d .blank⟩⟩ (fun | .first => -a | .second => -c) (.start state word) := by
  refine ⟨rfl, fun t => ?_⟩
  cases t with
  | first =>
    refine ⟨by simp only [get, Configuration.start, List.length_replicate]; omega, fun i => ?_⟩
    simp only [get, Configuration.start, Strip.content, List.reverse_replicate, ← List.append_assoc, getD_append_blanks]
    by_cases hi : 0 ≤ i
    · have hpos : (i - -(a : Int)).toNat - a = i.toNat := by omega
      rw [if_pos hi, if_pos (by omega), List.getElem?_append_right (by rw [List.length_replicate]; omega),
        List.length_replicate, hpos]
    · rw [if_neg hi]
      split
      · rw [List.getElem?_append_left (by rw [List.length_replicate]; omega), List.getElem?_replicate]
        split <;> rfl
      · rfl
  | second =>
    refine ⟨by simp only [get, Configuration.start, List.length_replicate]; omega, fun i => ?_⟩
    simp only [get, Configuration.start, Strip.content, List.reverse_replicate, List.replicate_append_replicate,
      List.getElem?_replicate]
    split
    · split <;> rfl
    · rfl

/-! ## Reaching -/

/-- A machine gets from strips to strips in some number of steps. -/
def Reaches (m : Machine) (c c' : Strips) : Prop := ∃ n, DispatchTree.after (next? m) n c = some c'

variable {m : Machine} {c c' c'' : Strips}

theorem Reaches.refl (m : Machine) (c : Strips) : Reaches m c c := ⟨0, rfl⟩

theorem Reaches.trans (h : Reaches m c c') (h' : Reaches m c' c'') : Reaches m c c'' := by
  obtain ⟨n, hn⟩ := h
  obtain ⟨k, hk⟩ := h'
  exact ⟨n + k, by rw [after_add, hn, Option.bind_some, hk]⟩

/-- One step, by the action of the machine and what it makes of the two strips. -/
theorem reaches_of_step {state : String} {l1 r1 l2 r2 : List Symbol} {x y : Symbol} {a : Action} {one two : Strip}
    (ha : m.step? state ⟨x, y⟩ = some a) (h1 : Strip.act a.first ⟨l1, x :: r1⟩ = some one)
    (h2 : Strip.act a.second ⟨l2, y :: r2⟩ = some two) :
    Reaches m ⟨state, ⟨l1, x :: r1⟩, ⟨l2, y :: r2⟩⟩ ⟨a.next, one, two⟩ :=
  ⟨1, by simp [DispatchTree.after, next?, ha, h1, h2]⟩

/-- What a machine reaches from its initial state, with blanks around a word, its completed table comes to from the word on tracks
without ends. -/
theorem Reaches.complete {word : List Symbol} {a b c d : Nat} {state : String} {one two : Strip}
    (h : Reaches m ⟨m.initial, ⟨List.replicate a .blank, word ++ List.replicate b .blank⟩,
      ⟨List.replicate c .blank, List.replicate d .blank⟩⟩ ⟨state, one, two⟩) :
    ∃ n k, DispatchTree.after m.complete.advance? n (.start m.complete.initial word) = some k ∧ k.state = state := by
  obtain ⟨n, hn⟩ := h
  obtain ⟨k, hk, hlies⟩ := (lies_start m.initial word a b c d).after n hn
  have hmem : (Configuration.start m.initial word).state ∈ m.mentioned := m.initial_mem_mentioned
  exact ⟨n, k, (Table.after_complete m n hmem).trans hk, hlies.state_eq⟩

end Strips

end DispatchTree
