import Mathlib.Data.List.Induction
import DispatchTree.Proofs.Screen.Emulator
import DispatchTree.Proofs.Screen.Session

/-!
# Whole runs on a device

As long as nothing but blanks is pushed off the edges, the rounds of a session show the run of the machine: after as many rounds
as the machine has made steps the device shows the machine's configuration, or its message, and it goes on exactly if the machine
does (`device_runs_machine`). The induction is on the rounds, from the last one back.
-/

namespace DispatchTree

/-- In a number of steps of a machine, no step that is shown pushes anything but blanks off an edge. The step after which the
machine stops is not shown. -/
def Display.KeepsFor (d : Display) (m : Machine) (word : List Symbol) (n : Nat) : Prop :=
  ∀ k < n, ∀ before a, after m.advance? k (.start m.initial word) = some before → m.step? before.state before.read = some a →
    m.message? a.next = none → d.Keeps before a

namespace Session

variable {D : Device} {m : Machine} {d : Display} {σ : Session D} {c : Configuration} {word : List Symbol}

/-- What a session has come to after as many rounds as a machine has made steps. Before the first round it stands at the root and
shows the initial configuration. A round leads to the node of the machine's action, and shows what the action makes of the
configuration, or, if the machine stops after it, the message. -/
def Mirrors (σ : Session D) (catalog : Catalog) (m : Machine) (d : Display) (word : List Symbol) : Nat → Prop
  | 0 => σ.position = none ∧ σ.Shows d (.start m.initial word)
  | n + 1 => ∃ before a, after m.advance? n (.start m.initial word) = some before ∧
      m.step? before.state before.read = some a ∧ catalog.get? a = σ.position ∧
      match m.message? a.next with
      | none => σ.Shows d (before.apply a)
      | some message => σ.ShowsHalt d before message

/-- A session is in step with a machine: it follows the machine, or both have come to an end. -/
def InStep (σ : Session D) (m : Machine) (d : Display) (c : Configuration) : Prop :=
  σ.Follows m d c ∨ m.step? c.state c.read = none ∧ ∀ swapped, σ.next? m.graph d swapped = none

/-- A session that is in step goes on exactly if the machine does. -/
theorem InStep.next?_eq_none_iff (hw : 0 < d.columns) (h : σ.InStep m d c) (swapped : Bool) :
    σ.next? m.graph d swapped = none ↔ m.step? c.state c.read = none := by
  rcases h with h | ⟨hs, hn⟩
  · refine ⟨fun hnone => ?_, fun hs => h.next?_eq_none hs swapped⟩
    cases hs : m.step? c.state c.read with
    | none => rfl
    | some a =>
      obtain ⟨key, id, hk, hf, _, hn⟩ := h.reach hs swapped
      obtain ⟨text, hp⟩ := (m.nodeOf id a).program.exists_render hw
      rw [next?_eq hk hf hn hp] at hnone
      cases hnone
  · simp [hs, hn]

/-- One round of a session that is in step, when the machine makes a step: the session is in step again and has come to the node of
the action. -/
theorem InStep.next? (hD : D.Holds d) (hw : 4 ≤ d.columns) (hrows : 5 ≤ D.rows)
    (hm : ∀ state message, m.message? state = some message → Shown message) (h : σ.InStep m d c) {a : Action}
    (ha : m.step? c.state c.read = some a) (hkeep : m.message? a.next = none → d.Keeps c a) (swapped : Bool) :
    ∃ τ, σ.next? m.graph d swapped = some τ ∧ τ.InStep m d (c.apply a) ∧ m.catalog.get? a = τ.position ∧
      match m.message? a.next with
      | none => τ.Shows d (c.apply a)
      | some message => τ.ShowsHalt d c message := by
  rcases h with h | ⟨hs, _⟩
  · cases hmsg : m.message? a.next with
    | none =>
      obtain ⟨τ, hτ, hf, hpos⟩ := next?_step hD hw h ha hmsg (hkeep hmsg) swapped
      exact ⟨τ, hτ, .inl hf, hpos, hf.view⟩
    | some message =>
      obtain ⟨τ, hτ, hhalt, hpos⟩ := next?_halt hD hrows h ha hmsg (hm a.next message hmsg) swapped
      have hstops : m.stops a.next = true := by rw [← m.message?_isSome, hmsg]; rfl
      exact ⟨τ, hτ, .inr ⟨if_pos hstops, hhalt.next?_eq_none m.graph⟩, hpos, hhalt⟩
  · rw [hs] at ha
    cases ha

/-- The rounds of a session, as many as the machine has made steps, end in step with the machine and mirror its run. -/
theorem run_mirrors (hD : D.Holds d) (hw : 4 ≤ d.columns) (hrows : 5 ≤ D.rows)
    (hm : ∀ state message, m.message? state = some message → Shown message) (hstart : σ.Follows m d (.start m.initial word))
    (hroot : σ.position = none) (orders : List Bool) : ∀ c, after m.advance? orders.length (.start m.initial word) = some c →
      d.KeepsFor m word orders.length →
      ∃ τ, σ.run m.graph d orders = some τ ∧ τ.InStep m d c ∧ τ.Mirrors m.catalog m d word orders.length := by
  induction orders using List.reverseRecOn with
  | nil =>
    intro c hc _
    obtain rfl : Configuration.start m.initial word = c := Option.some.inj hc
    exact ⟨σ, rfl, .inl hstart, hroot, hstart.view⟩
  | append_singleton orders swapped ih =>
    intro c hc hkeep
    rw [List.length_append, List.length_singleton] at hc hkeep ⊢
    rw [after_succ] at hc
    obtain ⟨before, hbefore, hstep⟩ := Option.bind_eq_some_iff.1 hc
    obtain ⟨a, ha, rfl⟩ := Option.map_eq_some_iff.1 hstep
    obtain ⟨τ, hrun, hτ, _⟩ := ih before hbefore fun k hk => hkeep k (by omega)
    obtain ⟨ρ, hnext, hρ, hpos, hshows⟩ := hτ.next? hD hw hrows hm ha (hkeep _ (by omega) before a hbefore ha) swapped
    refine ⟨ρ, ?_, hρ, before, a, hbefore, ha, hpos, hshows⟩
    simp [run_append, hrun, run, hnext]

end Session

/-- The messages of a machine are shown if those it declares are. -/
theorem Machine.shown_message? {m : Machine} (h : ∀ state message : String, m.halts[state]? = some message → Shown message)
    (state message : String) (hs : m.message? state = some message) : Shown message := by
  unfold message? at hs
  rcases Option.or_eq_some_iff.1 hs with hs | ⟨_, hs⟩
  · exact h state message hs
  · by_cases hsink : state = sinkState
    · rw [if_pos hsink] at hs
      obtain rfl : sinkMessage = message := Option.some.inj hs
      decide
    · rw [if_neg hsink] at hs
      cases hs

/-- A device that obeys its laws runs every machine with at most `2 ^ 32` actions. Compiling the machine succeeds; the first program
is sent, the word is typed and the second program is sent; then, round by round, the two replies are joined in any order and lead to
a node, whose program is sent. As long as nothing but blanks is pushed off the edges, after every number of steps of the machine the
device shows what the machine has come to, and there is a next round exactly if the machine makes another step. -/
theorem device_runs_machine {D : Device} (hD : D.Lawful) {d : Display} (hw : 4 ≤ d.columns) (hcols : d.columns ≤ D.columns)
    (hrows : 5 ≤ D.rows) (m : Machine) (hnumbers : m.catalog.size ≤ Catalog.capacity) (hp : Shown m.prompt)
    (hm : ∀ state message : String, m.halts[state]? = some message → Shown message) (word : List Symbol)
    (hword : word.length ≤ d.columns - d.columns / 2 + 1) (s : D.State) (hs : D.ready s) :
    ∃ plan, m.plan = .ok plan ∧ ∀ (orders : List Bool) (c : Configuration),
      after m.advance? orders.length (.start m.initial word) = some c → d.KeepsFor m word orders.length →
      ∃ τ, (Session.start D d m.prompt word s).run plan.graph d orders = some τ ∧
        τ.Mirrors plan.catalog m d word orders.length ∧
        ∀ swapped, τ.next? plan.graph d swapped = none ↔ m.step? c.state c.read = none := by
  have hholds : D.Holds d := ⟨⟨hD.draws, by omega, hcols, by omega⟩, hD⟩
  have hstart := Session.follows_start hholds hnumbers hp hword hs
  refine ⟨_, m.plan_eq, fun orders c hc hkeep => ?_⟩
  obtain ⟨τ, hrun, hin, hmirrors⟩ := Session.run_mirrors hholds hw hrows (Machine.shown_message? hm) hstart rfl orders c hc hkeep
  exact ⟨τ, hrun, hmirrors, hin.next?_eq_none_iff (by omega)⟩

/-- A machine that erases ones from left to right and stops on a blank. -/
def erasing : Machine :=
  (((Machine.new "A").halt "B" "done").rule "A" ⟨.one, .blank⟩ ⟨"A", ⟨.blank, .right⟩, ⟨.blank, .stay⟩⟩).rule "A" ⟨.blank, .blank⟩
    ⟨"B", ⟨.blank, .stay⟩, ⟨.blank, .stay⟩⟩

/-- Three ones on four columns fill the line to its end. They are erased in three rounds, whichever reply comes first, and in the
fourth round the device shows the message; there is no fifth. -/
theorem emulator_runs_erasing : erasing.catalog.size ≤ Catalog.capacity ∧
    ∃ plan, erasing.plan = .ok plan ∧ ∃ τ : Session (Emulator.device 5 4),
      (Session.start (Emulator.device 5 4) ⟨4⟩ erasing.prompt [.one, .one, .one] Emulator.blank).run plan.graph ⟨4⟩
          [false, true, true, false] = some τ ∧
        (∃ c, τ.ShowsHalt ⟨4⟩ c "done") ∧ ∀ swapped, τ.next? plan.graph ⟨4⟩ swapped = none := by
  have hmessage : ∀ state message : String, erasing.halts[state]? = some message → Shown message := by
    intro state message h
    simp only [erasing, Machine.halt, Machine.rule, Machine.new, Std.ExtTreeMap.getElem?_insert] at h
    split at h
    · obtain rfl := Option.some.inj h
      decide
    · simp at h
  have hkeep : (⟨4⟩ : Display).KeepsFor erasing [.one, .one, .one] 4 := by
    intro k hk before a hbefore ha hgo t x hx
    match k, hk with
    | 0, _ | 1, _ | 2, _ =>
      obtain rfl := Option.some.inj hbefore
      obtain rfl := Option.some.inj ha
      cases t with
      | first => exact (Option.some.inj hx).symm
      | second => cases hx
    | 3, _ =>
      obtain rfl := Option.some.inj hbefore
      obtain rfl := Option.some.inj ha
      cases hgo
  have hnumbers : erasing.catalog.size ≤ Catalog.capacity := by decide +kernel
  obtain ⟨plan, hplan, hrun⟩ := device_runs_machine (Emulator.lawful_device 5 4) (d := ⟨4⟩) (by decide) (by decide) (by decide)
    erasing hnumbers (fun x hx => by cases hx) hmessage [.one, .one, .one] (by decide) Emulator.blank ⟨rfl, by decide, by decide⟩
  obtain ⟨τ, hτ, ⟨before, a, hbefore, ha, _, hshows⟩, hend⟩ := hrun [false, true, true, false] _ rfl hkeep
  refine ⟨hnumbers, plan, hplan, τ, hτ, ⟨before, ?_⟩, fun swapped => (hend swapped).2 rfl⟩
  obtain rfl := Option.some.inj hbefore
  obtain rfl := Option.some.inj ha
  exact hshows

end DispatchTree
