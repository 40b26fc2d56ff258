import DispatchTree.Proofs.Primality.Decision
import DispatchTree.Proofs.Screen.Window

/-!
# The tester fits its display

A run on strips stays within them, and strips keep their lengths (`Strips.length_next?`). Where the strips are shorter than the part
of a window on either side of the heads, nothing but blanks ever comes to an edge (`Strips.Lies.keeps`), so that no step of the run
pushes anything off (`Strips.keeps_of_stops`). The tester needs half as many cells again as its number has digits, and a few more,
which the standard display has for numbers of fewer than 29 digits (`tester_fits_display`).
-/

namespace DispatchTree

namespace Strip

/-- An operation keeps the length of a strip. -/
theorem length_act {op : TrackOp} {s s' : Strip} (h : s.act op = some s') : s'.content.length = s.content.length := by
  obtain ⟨l, ahead⟩ := s
  cases ahead with
  | nil => cases h
  | cons x r => rw [(act_eq_some h).1, List.length_set, content]

/-- Beyond its strip a track is blank. -/
theorem Lies.blank {s : Strip} {origin head i : Int} {cells : Int → Symbol} (h : s.Lies origin cells head)
    (hi : i < origin ∨ origin + s.content.length ≤ i) : cells i = .blank := by
  rw [h.cells_eq]
  split
  · rw [List.getElem?_eq_none (by omega), Option.getD_none]
  · rfl

/-- A head is on its strip, or just behind it. -/
theorem Lies.head_bounds {s : Strip} {origin head : Int} {cells : Int → Symbol} (h : s.Lies origin cells head) :
    origin ≤ head ∧ head ≤ origin + s.content.length := by
  have hhead := h.head_eq
  have hlength : s.content.length = s.before.length + s.ahead.length := by
    rw [content, List.length_append, List.length_reverse]
  omega

end Strip

/-- A state in which a completed table has an answer is mentioned. -/
theorem Machine.mentioned_of_lookup {m : Machine} {state : String} {p : SymbolPair} {a : Action}
    (h : m.complete.lookup state p = some a) : state ∈ m.mentioned := by
  obtain ⟨row, hrow, -⟩ := Option.bind_eq_some_iff.1 h
  rw [m.complete_rows_getElem?] at hrow
  split at hrow
  · rename_i hmem
    exact ((m.mem_rowStates state).1 hmem).1
  · cases hrow

/-- The first answer of a completed table on a word is the first action of the machine. -/
theorem Machine.lookup_start (m : Machine) {x : Symbol} (word : List Symbol) {a : Action} (h : m.step? m.initial ⟨x, .blank⟩ = some a) :
    m.complete.lookup (Configuration.start m.complete.initial (x :: word)).state
      (Configuration.start m.complete.initial (x :: word)).read = some a :=
  (m.complete_lookup m.initial_mem_mentioned _).trans h

namespace Strips

variable {m : Machine} {c c' : Strips} {origin : Track → Int} {k : Configuration} {d : Display}

/-- A step keeps the lengths of both strips. -/
theorem length_next? (h : c.next? m = some c') (t : Track) : (c'.get t).content.length = (c.get t).content.length := by
  simp only [next?, Option.bind_eq_bind, Option.bind_eq_some_iff] at h
  obtain ⟨x, -, y, -, a, -, first, hfirst, second, hsecond, hc⟩ := h
  cases hc
  cases t with
  | first => exact Strip.length_act hfirst
  | second => exact Strip.length_act hsecond

/-- On strips that are shorter than half the window, whatever an action pushes off an edge is blank. -/
theorem Lies.keeps (h : c.Lies origin k) (hsize : ∀ t, (c.get t).content.length + 2 ≤ d.headColumn) (a : Action) : d.Keeps k a := by
  intro t x hx
  have hcolumn : d.headColumn = d.columns / 2 := rfl
  have hlies := h.tracks t
  have hbounds := hlies.head_bounds
  have hshort := hsize t
  -- both edges are beyond the strip, and neither is under the head
  have hedge : ∀ i, i ≠ k.head t → i < origin t ∨ origin t + (c.get t).content.length ≤ i → (k.apply a).cells t i = .blank := by
    intro i hne hi
    simp only [Configuration.apply]
    rw [Function.update_of_ne hne]
    exact hlies.blank hi
  unfold Display.pushed? at hx
  cases hshift : (a.op t).shift with
  | stay =>
    rw [hshift] at hx
    cases hx
  | left =>
    rw [hshift] at hx
    cases hx
    exact hedge _ (by omega) (by omega)
  | right =>
    rw [hshift] at hx
    cases hx
    exact hedge _ (by omega) (by omega)

/-- A machine that comes to a stop on short strips pushes nothing but blanks off the window, in any step until then. The induction is
on the steps up to the stop. -/
theorem keeps_of_stops (n : Nat) : ∀ {c c' : Strips} {k : Configuration}, after (next? m) n c = some c' → m.stops c'.state = true →
    c.Lies origin k → (∀ t, (c.get t).content.length + 2 ≤ d.headColumn) →
    ∀ (i : Nat) (k' : Configuration) (a : Action), after m.advance? i k = some k' → m.step? k'.state k'.read = some a → d.Keeps k' a := by
  induction n with
  | zero =>
    intro c c' k hrun hstops hlies hsize i k' a hk' ha
    cases hrun
    have hnone : ∀ p, m.step? k.state p = none := by
      intro p
      rw [Machine.step?, hlies.state_eq, hstops]
      rfl
    cases i with
    | zero =>
      cases hk'
      rw [hnone] at ha
      cases ha
    | succ i =>
      rw [after, Machine.advance?, hnone] at hk'
      cases hk'
  | succ n ih =>
    intro c c' k hrun hstops hlies hsize i k' a hk' ha
    obtain ⟨c₁, hc₁, hrest⟩ := Option.bind_eq_some_iff.1 hrun
    obtain ⟨k₁, hk₁, hlies₁⟩ := hlies.next? hc₁
    cases i with
    | zero =>
      cases hk'
      exact hlies.keeps hsize a
    | succ i =>
      rw [after, hk₁, Option.bind_some] at hk'
      refine ih hrest hstops hlies₁ (fun t => ?_) i k' a hk' ha
      rw [length_next? hc₁]
      exact hsize t

/-- The same of the completed table of a machine, started on a word with blanks around it. -/
theorem Reaches.keeps {word : List Symbol} {p q u v : Nat}
    (h : Reaches m ⟨m.initial, ⟨List.replicate p .blank, word ++ List.replicate q .blank⟩,
      ⟨List.replicate u .blank, List.replicate v .blank⟩⟩ c') (hstops : m.stops c'.state = true)
    (hfirst : p + word.length + q + 2 ≤ d.headColumn) (hsecond : u + v + 2 ≤ d.headColumn) {n : Nat}
    {k : Configuration} {a : Action} (hk : DispatchTree.after m.complete.advance? n (.start m.complete.initial word) = some k)
    (ha : m.complete.lookup k.state k.read = some a) : d.Keeps k a := by
  obtain ⟨steps, hsteps⟩ := h
  have hmem : (Configuration.start m.initial word).state ∈ m.mentioned := m.initial_mem_mentioned
  rw [m.complete_lookup (Machine.mentioned_of_lookup ha)] at ha
  refine keeps_of_stops steps hsteps hstops (lies_start m.initial word p q u v) (fun t => ?_) n k a
    ((Table.after_complete m n hmem).symm.trans hk) ha
  cases t with
  | first =>
    simp only [get, Strip.content, List.length_append, List.length_reverse, List.length_replicate]
    omega
  | second =>
    simp only [get, Strip.content, List.length_append, List.length_reverse, List.length_replicate]
    omega

end Strips

namespace Primality

/-- The tester fits its display. On every word of fewer than 29 binary digits, no step of its completed table pushes a symbol other
than a blank off the standard window, whose columns show the cells around each head. -/
theorem tester_fits_display (xs : List Bool) (h : xs.length < 29) (n : Nat) (c : Configuration) (a : Action)
    (hc : after machine.complete.advance? n (.start machine.complete.initial (digits xs)) = some c)
    (ha : machine.complete.lookup c.state c.read = some a) : Display.standard.Keeps c a := by
  have hcolumns : Display.standard.headColumn = 60 := by decide
  have hlength : (digits xs).length = xs.length := List.length_map digit
  obtain ⟨one, two, hreach⟩ := reaches_start xs (w := xs.length / 2 + 4) (c := xs.length) (by omega) (by omega) []
  rw [← machine_initial] at hreach
  exact Strips.Reaches.keeps (p := 1) (v := 2) hreach (stops_verdict (numeral xs)) (by omega) (by omega) hc ha

/-- On twenty-eight ones the tester moves both tracks in its first step, and pushes blanks off both edges. -/
theorem tester_fits_ones : (List.replicate 28 true).length < 29 ∧
    ∃ c a, c = .start machine.complete.initial (digits (List.replicate 28 true)) ∧ machine.complete.lookup c.state c.read = some a ∧
      a.first.shift = .right ∧ a.second.shift = .left ∧ Display.standard.Keeps c a := by
  have hlength : (List.replicate 28 true).length < 29 := by decide
  have hrule : (machine.initial, (⟨.one, .blank⟩ : SymbolPair), (⟨"chk1", ⟨.one, .right⟩, ⟨.one, .left⟩⟩ : Action)) ∈ rules := by
    rw [machine_initial]
    decide
  have hlookup := machine.lookup_start (digits (List.replicate 27 true)) (step?_of_mem hrule)
  exact ⟨hlength, _, _, rfl, hlookup, rfl, rfl, tester_fits_display _ hlength 0 _ _ rfl hlookup⟩

end Primality

end DispatchTree
