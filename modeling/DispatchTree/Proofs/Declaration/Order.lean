import DispatchTree.Machine.Description
import DispatchTree.Proofs.Declaration.Calls
import DispatchTree.Proofs.Files.Build

/-!
# The order of declarations does not matter

A description is accepted exactly when it names an initial state, every rule of it can be read and no two rules share state and
pair; its machine is then the one with these rules (`toMachine_eq_ok_iff`). None of this depends on the order of the rules, so that
a reordered description gives the same machine or none. A machine that is assembled call by call depends only on the last call about
each thing, and so does everything that is compiled from it.
-/

namespace DispatchTree

/-- The rule that an entry stands for, if it can be read. -/
def RuleEntry.rule? (e : RuleEntry) : Option (String × SymbolPair × Action) := e.toRule.toOption.map fun r => (e.state, r)

namespace Machine

/-- Rules for different states or pairs may be added in any order. -/
theorem addRules_perm {m : Machine} (hm : m.Filled) {rules rules' : List (String × SymbolPair × Action)} (h : rules.Perm rules')
    (hd : (rules.map fun r => (r.1, r.2.1)).Nodup) : m.addRules rules = m.addRules rules' := by
  have hd' : (rules'.map fun r => (r.1, r.2.1)).Nodup := (h.map _).nodup_iff.1 hd
  refine eq_of_action? hm.addRules hm.addRules ?_ ?_ (fun state => ?_) (fun state read => ?_)
  · rw [initial_addRules, initial_addRules]
  · rw [prompt_addRules, prompt_addRules]
  · rw [halts_addRules, halts_addRules]
  · by_cases hkey : (state, read) ∈ rules.map fun r => (r.1, r.2.1)
    · obtain ⟨⟨s, p, a⟩, hr, hsp⟩ := List.mem_map.1 hkey
      cases hsp
      rw [action?_addRules rules m hd hr, action?_addRules rules' m hd' (h.mem_iff.1 hr)]
    · have hkey' : (state, read) ∉ rules'.map fun r => (r.1, r.2.1) := fun hmem => hkey ((h.map _).mem_iff.2 hmem)
      rw [action?_addRules_of_notMem rules m hkey, action?_addRules_of_notMem rules' m hkey']

end Machine

namespace Description

/-- The rules of a description that can be read. -/
def readable (d : Description) : List (String × SymbolPair × Action) := d.rules.filterMap RuleEntry.rule?

/-- What makes a description acceptable. -/
structure Acceptable (d : Description) : Prop where
  initial : Text.allBlank d.initial = false
  rules : ∀ e ∈ d.rules, e.rule?.isSome
  distinct : (d.readable.map fun r => (r.1, r.2.1)).Nodup

/-- The machine that a description stands for, whether it is acceptable or not. -/
def machine (d : Description) : Machine :=
  Machine.addRules { Machine.new d.initial with prompt := d.prompt, halts := d.halts } d.readable

/-- A rule that cannot be read ends the reading, whatever comes after it. -/
theorem addRules_cons_of_error {e : RuleEntry} (h : e.rule? = none) (es : List RuleEntry) (index : Nat) (m : Machine) :
    ∃ fault, addRules index (e :: es) m = .error fault := by
  unfold RuleEntry.rule? at h
  cases hrule : e.toRule with
  | error fault =>
    refine ⟨.invalidRule index e.state fault, ?_⟩
    simp only [addRules, hrule, Except.mapError, bind, Except.bind]
  | ok r => simp [hrule, Except.toOption] at h

/-- A rule that can be read is added, unless there is one for its state and its pair. -/
theorem addRules_cons_of_ok {e : RuleEntry} {r : String × SymbolPair × Action} (h : e.rule? = some r) (es : List RuleEntry)
    (index : Nat) (m : Machine) :
    addRules index (e :: es) m = if (m.action? r.1 r.2.1).isSome then .error (.duplicateRule r.1 r.2.1)
      else addRules (index + 1) es (m.rule r.1 r.2.1 r.2.2) := by
  unfold RuleEntry.rule? at h
  cases hrule : e.toRule with
  | error fault => simp [hrule, Except.toOption] at h
  | ok pa =>
    obtain ⟨p, a⟩ := pa
    simp only [hrule, Except.toOption, Option.map_some, Option.some.injEq] at h
    subst h
    simp only [addRules, hrule, Except.mapError, bind, Except.bind, Machine.insertRule]
    cases m.action? e.state p with
    | none => rfl
    | some b => rfl

/-- Rules are added to a machine exactly if all of them can be read and no state and pair gets a second rule. -/
theorem addRules_eq_ok_iff (es : List RuleEntry) : ∀ (index : Nat) (m m' : Machine), addRules index es m = .ok m' ↔
    (∀ e ∈ es, e.rule?.isSome) ∧ ((es.filterMap RuleEntry.rule?).map fun r => (r.1, r.2.1)).Nodup ∧
      (∀ r ∈ es.filterMap RuleEntry.rule?, m.action? r.1 r.2.1 = none) ∧ m' = m.addRules (es.filterMap RuleEntry.rule?) := by
  induction es with
  | nil =>
    intro index m m'
    have hnil : m.addRules [] = m := rfl
    rw [addRules, Except.ok.injEq, List.filterMap_nil, hnil]
    constructor
    · rintro rfl
      exact ⟨by simp, by simp, by simp, rfl⟩
    · rintro ⟨-, -, -, rfl⟩
      rfl
  | cons e es ih =>
    intro index m m'
    cases hrule : e.rule? with
    | none =>
      obtain ⟨fault, hfault⟩ := addRules_cons_of_error hrule es index m
      simp [hfault, hrule]
    | some r =>
      rw [addRules_cons_of_ok hrule, List.filterMap_cons_some hrule]
      cases haction : m.action? r.1 r.2.1 with
      | some b => simp [haction]
      | none =>
        -- a rule is new to the machine with the first rule exactly if it is new to the machine and not for the first rule's pair
        have hnew : (∀ q ∈ es.filterMap RuleEntry.rule?, (m.rule r.1 r.2.1 r.2.2).action? q.1 q.2.1 = none) ↔
            (r.1, r.2.1) ∉ (es.filterMap RuleEntry.rule?).map (fun r => (r.1, r.2.1)) ∧
              ∀ q ∈ es.filterMap RuleEntry.rule?, m.action? q.1 q.2.1 = none := by
          simp only [Machine.action?_rule, List.mem_map, Prod.mk.injEq, not_exists, not_and]
          constructor
          · intro h
            refine ⟨fun q hq h1 h2 => ?_, fun q hq => ?_⟩
            · simpa [h1, h2] using h q hq
            · by_cases hsame : q.1 = r.1 ∧ q.2.1 = r.2.1
              · rw [hsame.1, hsame.2, haction]
              · simpa [hsame] using h q hq
          · rintro ⟨hne, h⟩ q hq
            rw [if_neg fun hsame => hne q hq hsame.1 hsame.2, h q hq]
        simp only [Option.isSome_none, Bool.false_eq_true, if_false, ih, hnew, List.map_cons, List.nodup_cons, List.mem_cons,
          forall_eq_or_imp, hrule, Option.isSome_some, true_and, haction]
        constructor
        · rintro ⟨hread, hd, ⟨hne, hfree⟩, rfl⟩
          exact ⟨hread, ⟨hne, hd⟩, hfree, rfl⟩
        · rintro ⟨hread, ⟨hne, hd⟩, hfree, rfl⟩
          exact ⟨hread, hd, ⟨hne, hfree⟩, rfl⟩

/-- A description is read exactly if it is acceptable, and then as its machine. -/
theorem toMachine_eq_ok_iff (d : Description) (m : Machine) : d.toMachine = .ok m ↔ d.Acceptable ∧ m = d.machine := by
  unfold toMachine
  cases hblank : Text.allBlank d.initial with
  | true =>
    simp only [if_true, reduceCtorEq, false_iff, not_and]
    intro h
    rw [h.initial] at hblank
    cases hblank
  | false =>
    rw [if_neg (by decide), addRules_eq_ok_iff]
    constructor
    · rintro ⟨hread, hd, -, rfl⟩
      exact ⟨⟨hblank, hread, hd⟩, rfl⟩
    · rintro ⟨h, rfl⟩
      refine ⟨h.rules, h.distinct, fun r _ => ?_, rfl⟩
      simp [Machine.action?, Machine.row, Machine.new]

/-- The description with its rules in another order. -/
def withRules (d : Description) (rules : List RuleEntry) : Description := { d with rules }

variable {d : Description} {rules : List RuleEntry}

/-- Reordered rules are read as the same rules in another order. -/
theorem readable_perm (h : d.rules.Perm rules) : d.readable.Perm (d.withRules rules).readable := h.filterMap _

/-- Acceptability does not depend on the order of the rules. -/
theorem Acceptable.perm (h : d.rules.Perm rules) (hd : d.Acceptable) : (d.withRules rules).Acceptable where
  initial := hd.initial
  rules e he := hd.rules e (h.mem_iff.2 he)
  distinct := ((readable_perm h).map _).nodup_iff.1 hd.distinct

/-- The machine does not depend on the order of the rules, since no two are for the same state and the same pair. -/
theorem machine_perm (h : d.rules.Perm rules) (hd : d.Acceptable) : d.machine = (d.withRules rules).machine := by
  have hfilled : Machine.Filled { Machine.new d.initial with prompt := d.prompt, halts := d.halts } := Machine.filled_new d.initial
  exact Machine.addRules_perm hfilled (readable_perm h) hd.distinct

/-- What is not acceptable is refused. -/
theorem exists_error_of_not_acceptable (h : ¬ d.Acceptable) : ∃ fault, d.toMachine = .error fault := by
  cases hm : d.toMachine with
  | error fault => exact ⟨fault, rfl⟩
  | ok m => exact absurd ((d.toMachine_eq_ok_iff m).1 hm).1 h

end Description

/-- The order of declarations does not matter. A description and the description with its rules in another order are both rejected, or
give the same machine. Calls that end with the same last word on everything give machines with the same completed table, the same
numbers, the same graph, and the same fingerprint on every display with columns. -/
theorem declaration_order_irrelevant :
    (∀ (d : Description) (rules : List RuleEntry), d.rules.Perm rules →
      ((∃ fault, d.toMachine = .error fault) ∧ ∃ fault, (d.withRules rules).toMachine = .error fault) ∨
        ∃ m, d.toMachine = .ok m ∧ (d.withRules rules).toMachine = .ok m) ∧
    ∀ (initial : String) (calls calls' : List Call), Call.SameLast calls calls' →
      ∃ plan plan', ((Machine.new initial).calls calls).plan = .ok plan ∧ ((Machine.new initial).calls calls').plan = .ok plan' ∧
        plan.table = plan'.table ∧ plan.catalog = plan'.catalog ∧ plan.graph = plan'.graph ∧
        ∀ d : Display, 0 < d.columns → ∃ text, plan.graph.fingerprint d = .ok text ∧ plan'.graph.fingerprint d = .ok text := by
  refine ⟨fun d rules h => ?_, fun initial calls calls' h => ?_⟩
  · by_cases hd : d.Acceptable
    · refine Or.inr ⟨d.machine, (d.toMachine_eq_ok_iff _).2 ⟨hd, rfl⟩, ?_⟩
      exact ((d.withRules rules).toMachine_eq_ok_iff _).2 ⟨hd.perm h, Description.machine_perm h hd⟩
    · have hd' : ¬ (d.withRules rules).Acceptable := by
        intro h'
        have hback : ((d.withRules rules).withRules d.rules).Acceptable := Description.Acceptable.perm h.symm h'
        exact hd hback
      exact Or.inl ⟨Description.exists_error_of_not_acceptable hd, Description.exists_error_of_not_acceptable hd'⟩
  · rw [← Machine.calls_eq_of_sameLast h]
    refine ⟨_, _, Machine.plan_eq _, Machine.plan_eq _, rfl, rfl, rfl, fun d hd => ?_⟩
    obtain ⟨text, htext⟩ := Graph.exists_fingerprint hd ((Machine.new initial).calls calls).graph
    exact ⟨text, htext, htext⟩

/-- A description with two rules for one state. -/
def twoRules : Description := ⟨"A", "go", ∅, [⟨"A", "00", "B", "11", "RR"⟩, ⟨"A", "1#", "A", "0#", "LN"⟩]⟩

/-- Calls that give a second message to a state, and a second action to a state and pair. -/
def secondThoughts : List Call :=
  [.rule "A" ⟨.zero, .zero⟩ .invalid, .halt "B" "wait", .rule "A" ⟨.zero, .zero⟩ ⟨"B", .idle, .idle⟩, .prompt "go", .halt "B" "done"]

/-- Calls that come to the same. -/
def firstThoughts : List Call := [.halt "B" "done", .prompt "go", .rule "A" ⟨.zero, .zero⟩ ⟨"B", .idle, .idle⟩]

theorem sameLast_thoughts : Call.SameLast secondThoughts firstThoughts where
  prompt := rfl
  message state := by
    by_cases h : "B" = state
    · simp [secondThoughts, firstThoughts, Call.message?, h]
    · simp [secondThoughts, firstThoughts, Call.message?, h]
  action state read := by
    by_cases h : "A" = state ∧ (⟨.zero, .zero⟩ : SymbolPair) = read
    · simp [secondThoughts, firstThoughts, Call.action?, h]
    · simp [secondThoughts, firstThoughts, Call.action?, h]

/-- Two rules in either order make the same machine, and what was called first does not show. -/
theorem declaration_order_thoughts :
    twoRules.rules.Perm twoRules.rules.reverse ∧
      (∃ m, twoRules.toMachine = .ok m ∧ (twoRules.withRules twoRules.rules.reverse).toMachine = .ok m) ∧
      Call.SameLast secondThoughts firstThoughts ∧ secondThoughts ≠ firstThoughts ∧
      ∃ plan plan', ((Machine.new "A").calls secondThoughts).plan = .ok plan ∧
        ((Machine.new "A").calls firstThoughts).plan = .ok plan' ∧ plan.graph = plan'.graph ∧
        ∃ text, plan.graph.fingerprint ⟨4⟩ = .ok text ∧ plan'.graph.fingerprint ⟨4⟩ = .ok text := by
  have hperm : twoRules.rules.Perm twoRules.rules.reverse := (List.reverse_perm _).symm
  refine ⟨hperm, ?_, sameLast_thoughts, by decide, ?_⟩
  · rcases declaration_order_irrelevant.1 twoRules _ hperm with ⟨⟨fault, hfault⟩, -⟩ | haccepted
    · have hok : twoRules.toMachine.isOk = true := by decide +kernel
      rw [hfault] at hok
      cases hok
    · exact haccepted
  · obtain ⟨plan, plan', hplan, hplan', -, -, hgraph, hfingerprint⟩ :=
      declaration_order_irrelevant.2 "A" secondThoughts firstThoughts sameLast_thoughts
    exact ⟨plan, plan', hplan, hplan', hgraph, hfingerprint ⟨4⟩ (by decide)⟩

end DispatchTree
