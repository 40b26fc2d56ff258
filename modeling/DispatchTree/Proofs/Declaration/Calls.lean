import DispatchTree.Proofs.Rules

/-!
# Machines assembled call by call

A machine can be assembled by calls that give it a prompt, a terminal state or a rule. Of calls about one thing the last counts:
what stands in the machine in the end is read off the calls alone (`prompt_calls`, `halts_calls`, `action?_calls`). A call never
makes a row without rules (`filled_calls`), and a machine without such rows is known by its answers (`eq_of_action?`), so that
nothing else is left of the order of the calls (`calls_eq_of_sameLast`).
-/

namespace DispatchTree

/-- One call in the assembly of a machine. -/
inductive Call where
  | prompt (text : String)
  | halt (state message : String)
  | rule (state : String) (read : SymbolPair) (a : Action)
  deriving DecidableEq, Repr

namespace Call

/-- The prompt that a call gives. -/
def prompt? : Call → Option String
  | .prompt text => some text
  | _ => none

/-- The message that a call gives to a state. -/
def message? (state : String) : Call → Option String
  | .halt s message => if s = state then some message else none
  | _ => none

/-- The action that a call gives to a state on a pair. -/
def action? (state : String) (read : SymbolPair) : Call → Option Action
  | .rule s p a => if s = state ∧ p = read then some a else none
  | _ => none

/-- What the last call that gives something gives. -/
def last? {α : Type} (given : Call → Option α) (calls : List Call) : Option α := (calls.filterMap given).getLast?

/-- Two lists of calls whose last words are the same: on the prompt, on every terminal state, and on every state and pair. -/
structure SameLast (calls calls' : List Call) : Prop where
  prompt : last? prompt? calls = last? prompt? calls'
  message : ∀ state, last? (message? state) calls = last? (message? state) calls'
  action : ∀ state read, last? (action? state read) calls = last? (action? state read) calls'

@[simp] theorem last?_nil {α : Type} (given : Call → Option α) : last? given [] = none := rfl

@[simp] theorem last?_cons {α : Type} (given : Call → Option α) (c : Call) (calls : List Call) :
    last? given (c :: calls) = (last? given calls).or (given c) := by
  unfold last?
  cases hc : given c with
  | none => rw [List.filterMap_cons_none hc, Option.or_none]
  | some x =>
    rw [List.filterMap_cons_some hc, List.getLast?_cons]
    cases (calls.filterMap given).getLast? with
    | none => rfl
    | some y => rfl

end Call

namespace Machine

/-! ## Machines without empty rows -/

/-- Every row has a rule. -/
def Filled (m : Machine) : Prop := ∀ (state : String) (row : Row), m.transitions[state]? = some row → row ≠ ∅

/-- In a filled machine a state has a row exactly if the machine has a rule for it. -/
theorem Filled.transitions_getElem? {m : Machine} (h : m.Filled) (state : String) :
    m.transitions[state]? = if m.row state = ∅ then none else some (m.row state) := by
  unfold row
  cases hrow : m.transitions[state]? with
  | none => simp
  | some row => simp [h state row hrow]

/-- Filled machines that give the same answers are equal. -/
theorem eq_of_action? {m m' : Machine} (h : m.Filled) (h' : m'.Filled) (hinitial : m.initial = m'.initial)
    (hprompt : m.prompt = m'.prompt) (hhalts : ∀ state : String, m.halts[state]? = m'.halts[state]?)
    (haction : ∀ state read, m.action? state read = m'.action? state read) : m = m' := by
  have hrow : ∀ state, m.row state = m'.row state := fun state => Std.ExtTreeMap.ext_getElem? (haction state)
  have htransitions : m.transitions = m'.transitions := by
    refine Std.ExtTreeMap.ext_getElem? fun state => ?_
    rw [h.transitions_getElem?, h'.transitions_getElem?, hrow]
  cases m
  cases m'
  rw [Machine.mk.injEq]
  exact ⟨hinitial, hprompt, Std.ExtTreeMap.ext_getElem? hhalts, htransitions⟩

/-- A new machine has no rows, so none is empty. -/
theorem filled_new (initial : String) : (Machine.new initial).Filled := by
  intro state row h
  simp [Machine.new] at h

/-- Adding a rule leaves no row empty. -/
theorem Filled.rule {m : Machine} (h : m.Filled) (state : String) (read : SymbolPair) (a : Action) : (m.rule state read a).Filled := by
  intro s row hrow
  simp only [Machine.rule, Std.ExtTreeMap.getElem?_insert, Std.LawfulEqOrd.compare_eq_iff_eq] at hrow
  split at hrow
  · cases hrow
    exact Std.ExtTreeMap.insert_ne_empty
  · exact h s row hrow

/-- Rules fill the rows of their states. -/
theorem Filled.addRules {rules : List (String × SymbolPair × Action)} : ∀ {m : Machine}, m.Filled → (m.addRules rules).Filled := by
  induction rules with
  | nil => exact id
  | cons r rules ih => exact fun h => ih (h.rule r.1 r.2.1 r.2.2)

/-! ## Calls -/

/-- The machine after a call. -/
def call (m : Machine) : Call → Machine
  | .prompt text => m.withPrompt text
  | .halt state message => m.halt state message
  | .rule state read a => m.rule state read a

/-- The machine after calls, one after the other. -/
def calls (m : Machine) (cs : List Call) : Machine := cs.foldl call m

/-- If a call changes what is seen of a machine to what the call gives, then after a list of calls the last that gives something has
decided it. -/
theorem seen_calls {α : Type} (seen : Machine → Option α) (given : Call → Option α)
    (hcall : ∀ m c, seen (m.call c) = (given c).or (seen m)) (cs : List Call) :
    ∀ m : Machine, seen (m.calls cs) = (Call.last? given cs).or (seen m) := by
  induction cs with
  | nil => intro m; rfl
  | cons c cs ih =>
    intro m
    rw [Call.last?_cons, Option.or_assoc, ← hcall]
    exact ih (m.call c)

/-- No call changes the initial state. -/
theorem initial_calls (cs : List Call) : ∀ m : Machine, (m.calls cs).initial = m.initial := by
  induction cs with
  | nil => intro m; rfl
  | cons c cs ih =>
    intro m
    have hcall : (m.call c).initial = m.initial := by cases c <;> rfl
    rw [← hcall]
    exact ih (m.call c)

/-- The last call that gives a prompt decides it, and otherwise it stays what it was. -/
theorem prompt_calls (m : Machine) (cs : List Call) : (m.calls cs).prompt = (Call.last? Call.prompt? cs).getD m.prompt := by
  have hseen := seen_calls (fun m => some m.prompt) Call.prompt? (fun m c => by cases c <;> rfl) cs m
  cases hlast : Call.last? Call.prompt? cs with
  | none => simpa [hlast] using hseen
  | some text => simpa [hlast] using hseen

/-- The last call that gives a state a message decides its message. -/
theorem halts_calls (m : Machine) (cs : List Call) (state : String) :
    (m.calls cs).halts[state]? = (Call.last? (Call.message? state) cs).or m.halts[state]? := by
  refine seen_calls (fun m => m.halts[state]?) (Call.message? state) (fun m c => ?_) cs m
  cases c with
  | prompt text => rfl
  | rule s p a => rfl
  | halt s message =>
    simp only [call, halt, Std.ExtTreeMap.getElem?_insert, Std.LawfulEqOrd.compare_eq_iff_eq, Call.message?]
    split
    · rfl
    · rfl

/-- The last call that gives an action for a state and a pair decides the action. -/
theorem action?_calls (m : Machine) (cs : List Call) (state : String) (read : SymbolPair) :
    (m.calls cs).action? state read = (Call.last? (Call.action? state read) cs).or (m.action? state read) := by
  refine seen_calls (fun m => m.action? state read) (Call.action? state read) (fun m c => ?_) cs m
  cases c with
  | prompt text => rfl
  | halt s message => rfl
  | rule s p a =>
    rw [call, action?_rule, Call.action?]
    by_cases h : state = s ∧ read = p
    · rw [if_pos h, if_pos ⟨h.1.symm, h.2.symm⟩, Option.some_or]
    · rw [if_neg h, if_neg fun h' => h ⟨h'.1.symm, h'.2.symm⟩, Option.none_or]

/-- No call leaves an empty row. -/
theorem filled_calls (cs : List Call) : ∀ m : Machine, m.Filled → (m.calls cs).Filled := by
  induction cs with
  | nil => exact fun m h => h
  | cons c cs ih =>
    intro m h
    refine ih (m.call c) ?_
    cases c with
    | prompt text => exact h
    | halt state message => exact h
    | rule state read a => exact h.rule state read a

/-- Calls with the same last words make the same machine. -/
theorem calls_eq_of_sameLast {cs cs' : List Call} (h : Call.SameLast cs cs') (initial : String) :
    (Machine.new initial).calls cs = (Machine.new initial).calls cs' := by
  have hfilled := filled_new initial
  refine eq_of_action? (filled_calls cs _ hfilled) (filled_calls cs' _ hfilled) ?_ ?_ (fun state => ?_) (fun state read => ?_)
  · rw [initial_calls, initial_calls]
  · rw [prompt_calls, prompt_calls, h.prompt]
  · rw [halts_calls, halts_calls, h.message]
  · rw [action?_calls, action?_calls, h.action]

end Machine

end DispatchTree
