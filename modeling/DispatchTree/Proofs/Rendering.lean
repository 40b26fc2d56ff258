import DispatchTree.Command.Execute
import DispatchTree.Proofs.Files.Refusal
import DispatchTree.Proofs.Report.Width
import DispatchTree.Proofs.Screen.Commands
import DispatchTree.Proofs.Settings.Variables

/-!
# What can be rendered

A graph cannot be rendered on a display without columns if one of its nodes moves a head to the left, and it can be rendered
otherwise (`fingerprint_eq_error_iff`). A build finds this out while it writes the programs, if the file system does not stop it
before (`materialize_of_underflows`). The settings that are loaded have at least four columns (`four_le_of_loadFor`). On such a
display the column of the heads is well inside, and screen programs stay on the tracks and the line below them
(`proper_of_four_le`), so that the only command that can still break off is a plan whose table is too wide (`execute_abrupt_iff`).
-/

namespace DispatchTree

/-! ## Fingerprints -/

namespace Graph

variable {g : Graph} {d : Display}

/-- A node of the graph moves a head to the left, and the display has no columns. -/
def Underflows (g : Graph) (d : Display) : Prop := d.columns = 0 ∧ ∃ n ∈ g.nodes, n.program.movesLeft = true

/-- A graph underflows if one of its programs does, and there is only one way to do so. -/
theorem underflows_iff (u : Underflow) : g.Underflows d ↔ ∃ n ∈ g.nodes, n.program.render d = .error u := by
  simp only [Underflows, Program.render_eq_error_iff]
  constructor
  · rintro ⟨hcolumns, n, hn, hleft⟩
    exact ⟨n, hn, hcolumns, hleft⟩
  · rintro ⟨n, hn, hcolumns, hleft⟩
    exact ⟨hcolumns, n, hn, hleft⟩

/-- Nodes have bytes unless the program of one of them underflows. -/
theorem nodesBytes_eq_error_iff {u : Underflow} (nodes : List Node) :
    nodesBytes d nodes = .error u ↔ ∃ n ∈ nodes, n.program.render d = .error u := by
  induction nodes with
  | nil => simp [nodesBytes]
  | cons n nodes ih =>
    rw [List.exists_mem_cons_iff, ← ih]
    cases u
    cases hrender : n.program.render d with
    | error v =>
      cases v
      simp [nodesBytes, Node.bytes, hrender, bind, Except.bind]
    | ok text =>
      cases hrest : nodesBytes d nodes with
      | error v =>
        cases v
        simp [nodesBytes, Node.bytes, hrender, hrest, bind, Except.bind, pure, Except.pure]
      | ok bs => simp [nodesBytes, Node.bytes, hrender, hrest, bind, Except.bind, pure, Except.pure]

/-- A graph has no fingerprint exactly if a node moves a head to the left on a display without columns. -/
theorem fingerprint_eq_error_iff {u : Underflow} : g.fingerprint d = .error u ↔ g.Underflows d := by
  rw [underflows_iff u, ← nodesBytes_eq_error_iff, fingerprint, bytes]
  cases nodesBytes d g.nodes with
  | error v => simp [bind, Except.bind, Except.map]
  | ok bs => simp [bind, Except.bind, pure, Except.pure, Except.map]

end Graph

/-! ## Builds -/

/-- Faults of the file system: the root is there, or an operation on files failed. -/
def BuildFault.isDisk : BuildFault → Bool
  | .outputRootExists _ => true
  | .disk _ _ => true
  | _ => false

namespace Operation

/-- Whether an operation creates a link. -/
def isLink : Operation → Bool
  | .link .. => true
  | _ => false

/-- Operations fail with a program that cannot be rendered only if there is one among them. -/
theorem mem_of_runAll {ops : List Operation} {u : Underflow} : ∀ {p : Progress}, (runAll ops p).1 = .error (.underflow u) →
    ∃ path, .file path (.error u) ∈ ops := by
  induction ops with
  | nil => nofun
  | cons op ops ih =>
    intro p h
    rw [runAll] at h
    split at h
    · obtain ⟨path, hpath⟩ := ih h
      exact ⟨path, List.mem_cons_of_mem op hpath⟩
    · rename_i f hf
      cases h
      rcases run_eq_error hf with ⟨_, _, hdisk⟩ | ⟨_, _, _, _, _, hconflict⟩ | ⟨path, v, rfl, hunderflow⟩
      · cases hdisk
      · cases hconflict
      · cases hunderflow
        exact ⟨path, List.mem_cons_self⟩

/-- A program that cannot be rendered ends a build, unless the file system did before. The induction is on the operations up to it,
none of which creates a link. -/
theorem runAll_of_mem {ops : List Operation} {path : String} {u : Underflow} (rest : List Operation)
    (hlinks : ∀ op ∈ ops, op.isLink = false) (h : .file path (.error u) ∈ ops) :
    ∀ p : Progress, ∃ f, (runAll (ops ++ rest) p).1 = .error f ∧ (f.isDisk = true ∨ ∃ v, f = .underflow v) := by
  induction ops with
  | nil => cases h
  | cons op ops ih =>
    intro p
    rw [List.cons_append, runAll]
    cases hrun : op.run p with
    | error f =>
      refine ⟨f, rfl, ?_⟩
      rcases run_eq_error hrun with ⟨_, _, rfl⟩ | ⟨_, _, _, _, rfl, -⟩ | ⟨_, v, -, rfl⟩
      · exact .inl rfl
      · cases hlinks _ List.mem_cons_self
      · exact .inr ⟨v, rfl⟩
    | ok p' =>
      refine ih (fun op' hop' => hlinks op' (List.mem_cons_of_mem op hop')) ?_ p'
      rcases List.mem_cons.1 h with rfl | h
      · cases hrun
      · exact h

end Operation

namespace Graph

variable {g : Graph} {d : Display}

/-- The operations for programs put no links. -/
theorem isLink_of_mem_programOperations {root : String} {op : Operation} (h : op ∈ g.programOperations d root g.nodes) :
    op.isLink = false := by
  simp only [programOperations, nodeOperations, List.mem_append, List.mem_cons, List.not_mem_nil, or_false, List.mem_flatMap] at h
  rcases h with (rfl | rfl) | ⟨n, -, rfl | rfl | rfl⟩
  · rfl
  · rfl
  · rfl
  · rfl
  · rfl

/-- A program that cannot be rendered is that of a node. -/
theorem exists_of_mem_operations {root path : String} {u : Underflow} (h : .file path (.error u) ∈ g.operations d root) :
    ∃ n ∈ g.nodes, n.program.render d = .error u := by
  have hlinks : ∀ directory state edges nested, Operation.file path (.error u) ∉ linkOperations directory state edges nested := by
    intro directory state edges nested hmem
    simp [linkOperations] at hmem
  rw [operations_eq_append, List.mem_append, List.mem_append, List.mem_flatMap] at h
  rcases h with (h | ⟨n, -, h⟩) | h
  · simp only [programOperations, nodeOperations, List.mem_append, List.mem_cons, List.not_mem_nil, or_false, List.mem_flatMap] at h
    rcases h with (h | h) | ⟨n, hn, h | h | h⟩
    · cases h
    · cases h
    · cases h
    · exact ⟨n, hn, (Operation.file.inj h).2.symm⟩
    · cases h
  · exact absurd h (hlinks _ _ _ _)
  · exact absurd h (hlinks _ _ _ _)

/-- A root is refused because it is there, or because of the file system. -/
theorem makeRoot_eq_error {disk disk' : Disk} {root : String} {f : BuildFault} (h : makeRoot disk root = (.error f, disk')) :
    f = .outputRootExists root ∨ ∃ path fault, f = .disk path fault := by
  unfold makeRoot at h
  split at h
  · rename_i hparents
    cases h
    exact .inr (makeParents_eq_error hparents)
  · split at h
    · cases h
    · cases h
      exact .inl rfl
    · cases h
      exact .inr ⟨root, _, rfl⟩

/-- What goes wrong with the root is due to the file system. -/
theorem isDisk_of_makeRoot {disk disk' : Disk} {root : String} {f : BuildFault} (h : makeRoot disk root = (.error f, disk')) :
    f.isDisk = true := by
  rcases makeRoot_eq_error h with rfl | ⟨path, fault, rfl⟩
  · rfl
  · rfl

/-- A build is stopped by the file system before it starts, or carries out its operations and then takes the fingerprint. -/
theorem materialize_cases (g : Graph) (d : Display) (root : String) (disk : Disk) :
    (∃ f, (g.materialize d root disk).1 = .error f ∧ f.isDisk = true) ∨
      ∃ start, (∃ f, (Operation.runAll (g.operations d root) start).1 = .error f ∧ (g.materialize d root disk).1 = .error f) ∨
        (∃ u, g.fingerprint d = .error u ∧ (g.materialize d root disk).1 = .error (.underflow u)) ∨
        ∃ summary, g.fingerprint d = .ok summary.fingerprint ∧ (g.materialize d root disk).1 = .ok summary := by
  unfold materialize
  split
  · exact .inl ⟨_, rfl, rfl⟩
  · split
    · rename_i f disk' hmake
      exact .inl ⟨f, rfl, isDisk_of_makeRoot hmake⟩
    · rename_i disk' hmake
      refine .inr ⟨⟨disk', [], 0, 0⟩, ?_⟩
      split
      · rename_i f p hrun
        exact .inl ⟨f, by rw [hrun], rfl⟩
      · split
        · rename_i u hfingerprint
          exact .inr (.inl ⟨u, hfingerprint, rfl⟩)
        · rename_i fingerprint hfingerprint
          exact .inr (.inr ⟨_, hfingerprint, rfl⟩)

/-- Writing a tree reports an underflow only if there is one. -/
theorem underflows_of_materialize {root : String} {disk : Disk} {u : Underflow}
    (h : (g.materialize d root disk).1 = .error (.underflow u)) : g.Underflows d := by
  rcases g.materialize_cases d root disk with ⟨f, hf, hdisk⟩ | ⟨start, ⟨f, hrun, hf⟩ | ⟨v, hv, -⟩ | ⟨summary, -, hok⟩⟩
  · rw [h] at hf
    cases hf
    cases hdisk
  · rw [h] at hf
    cases hf
    obtain ⟨path, hpath⟩ := Operation.mem_of_runAll hrun
    exact (underflows_iff u).2 (exists_of_mem_operations hpath)
  · exact fingerprint_eq_error_iff.1 hv
  · rw [h] at hok
    cases hok

/-- The operations of a graph that cannot be rendered end with this fault, or with one of the file system. -/
theorem runAll_of_underflows (h : g.Underflows d) (root : String) (start : Progress) :
    ∃ f, (Operation.runAll (g.operations d root) start).1 = .error f ∧ (f.isDisk = true ∨ ∃ u, f = .underflow u) := by
  obtain ⟨n, hn, hrender⟩ := (underflows_iff .noColumns).1 h
  have hmem : .file (Path.join (Path.join root (tag n.id)) executeFile) (.error .noColumns) ∈ g.programOperations d root g.nodes := by
    refine List.mem_append_right _ (List.mem_flatMap.2 ⟨n, hn, ?_⟩)
    rw [← hrender]
    exact List.mem_cons_of_mem _ List.mem_cons_self
  rw [operations_eq_append, List.append_assoc]
  exact Operation.runAll_of_mem _ (fun op => isLink_of_mem_programOperations) hmem start

/-- With an underflow writing a tree fails: with a fault of the disk that came before, or with the underflow. -/
theorem materialize_of_underflows (h : g.Underflows d) (root : String) (disk : Disk) :
    ∃ f, (g.materialize d root disk).1 = .error f ∧ (f.isDisk = true ∨ ∃ u, f = .underflow u) := by
  rcases g.materialize_cases d root disk with ⟨f, hf, hdisk⟩ | ⟨start, ⟨f, hrun, hf⟩ | ⟨v, -, hv⟩ | ⟨summary, hok, -⟩⟩
  · exact ⟨f, hf, .inl hdisk⟩
  · obtain ⟨f', hrun', hf'⟩ := runAll_of_underflows h root start
    rw [hrun'] at hrun
    cases hrun
    exact ⟨f, hf, hf'⟩
  · exact ⟨_, hv, .inr ⟨v, rfl⟩⟩
  · rw [(fingerprint_eq_error_iff (u := .noColumns)).2 h] at hok
    cases hok

end Graph

/-- A build ends as the writing of its graph does. -/
theorem Machine.fst_build (m : Machine) (d : Display) (root : String) (disk : Disk) :
    (m.build d root disk).1 = (m.graph.materialize d root disk).1 := by
  cases hentry : disk.hasEntry root with
  | true => rw [build, Graph.materialize, if_pos hentry, if_pos hentry]
  | false => exact (m.build_of_hasEntry d hentry).1

/-- A build that the file system does not stop fails to render exactly if its graph underflows. -/
theorem Machine.build_underflow_iff {m : Machine} {d : Display} {root : String} {disk : Disk}
    (h : ∀ f, (m.build d root disk).1 = .error f → f.isDisk = false) :
    (∃ u, (m.build d root disk).1 = .error (.underflow u)) ↔ m.graph.Underflows d := by
  rw [m.fst_build] at h ⊢
  constructor
  · rintro ⟨u, hu⟩
    exact Graph.underflows_of_materialize hu
  · intro hunderflows
    obtain ⟨f, hf, hdisk | ⟨u, rfl⟩⟩ := Graph.materialize_of_underflows hunderflows root disk
    · rw [h f hf] at hdisk
      cases hdisk
    · exact ⟨u, hf⟩

/-! ## Displays that are wide enough -/

/-- A command that stays on the tracks and the line below them: the cursor is placed in one of these lines, within the columns, and
what is copied stays on the line of one track, within the columns. -/
def Control.Within (columns : Nat) : Control → Prop
  | .cursor row col => 1 ≤ row ∧ row ≤ 3 ∧ 1 ≤ col ∧ col ≤ columns
  | .copy top left bottom right row col =>
    (∃ t : Track, top = t.line ∧ bottom = t.line ∧ row = t.line) ∧ 1 ≤ left ∧ left ≤ right ∧ right ≤ columns ∧
      1 ≤ col ∧ col + (right - left) ≤ columns
  | _ => True

namespace Display

variable {d : Display}

/-- A display on which every step can be shown, the head is inside, and programs stay within the tracks and the line below them. -/
structure Proper (d : Display) : Prop where
  head : 1 < d.headColumn ∧ d.headColumn < d.columns
  init : ∀ prompt, ∀ c ∈ d.initProgram prompt, c.Within d.columns
  postInit : ∀ c ∈ d.postInitProgram, c.Within d.columns
  step : ∀ first second, ∃ p, d.stepProgram first second = .ok p ∧ ∀ c ∈ p, c.Within d.columns

/-- Tracks are shown on the first three lines. -/
theorem line_bounds (t : Track) : 1 ≤ t.line ∧ t.line ≤ 3 := by cases t <;> decide

/-- On four columns every command of a track stays on the screen. -/
theorem TrackCommand.within (hd : 4 ≤ d.columns) {t : Track} {c : Control} (h : d.TrackCommand t c) : c.Within d.columns := by
  have hline := line_bounds t
  have hhead : d.headColumn = d.columns / 2 := rfl
  cases h with
  | head => exact ⟨hline.1, hline.2, by omega, by omega⟩
  | symbol x => trivial
  | park => exact ⟨by decide, by decide, by omega, by omega⟩
  | copyLeft => exact ⟨⟨t, rfl, rfl, rfl⟩, by omega, by omega, by omega, by omega, by omega⟩
  | last => exact ⟨hline.1, hline.2, by omega, by omega⟩
  | copyRight => exact ⟨⟨t, rfl, rfl, rfl⟩, by omega, by omega, by omega, by omega, by omega⟩
  | first => exact ⟨hline.1, hline.2, by omega, by omega⟩

/-- On four columns the requests for the symbols stay on the screen. -/
theorem within_of_mem_requestBoth (hd : 4 ≤ d.columns) {c : Control} (h : c ∈ d.requestBoth) : c.Within d.columns := by
  simp only [requestBoth, Track.both, List.map_cons, List.map_nil, List.mem_cons, List.not_mem_nil, or_false] at h
  rcases h with rfl | rfl | rfl
  · exact ⟨by decide, by decide, by omega, by omega⟩
  · trivial
  · trivial

/-- Four columns are enough. -/
theorem proper_of_four_le (hd : 4 ≤ d.columns) : d.Proper := by
  have hhead : d.headColumn = d.columns / 2 := rfl
  refine ⟨⟨by omega, by omega⟩, fun prompt c hc => ?_, fun c hc => ?_, fun first second => ?_⟩
  · simp only [initProgram, Track.both, blankTrack, List.flatMap_cons, List.flatMap_nil, List.mem_append, List.mem_cons,
      List.not_mem_nil, or_false] at hc
    rcases hc with (rfl | (rfl | rfl) | rfl | rfl) | rfl | rfl | rfl
    · trivial
    · exact ⟨by decide, by decide, by omega, by omega⟩
    · trivial
    · exact ⟨by decide, by decide, by omega, by omega⟩
    · trivial
    · exact ⟨by decide, by decide, by omega, by omega⟩
    · trivial
    · exact ⟨by decide, by decide, by omega, by omega⟩
  · rcases List.mem_append.1 hc with hc | hc
    · simp only [List.mem_cons, List.not_mem_nil, or_false] at hc
      rcases hc with rfl | rfl | rfl
      · exact ⟨by decide, by decide, by omega, by omega⟩
      · trivial
      · trivial
    · exact within_of_mem_requestBoth hd hc
  · cases hp : d.stepProgram first second with
    | error u => exact absurd (stepProgram_eq_error_iff.1 hp).1 (by omega)
    | ok p =>
      refine ⟨p, rfl, fun c hc => ?_⟩
      obtain ⟨one, two, hone, htwo, rfl⟩ := exists_of_stepProgram hp
      rcases List.mem_append.1 hc with hc | hc
      · rcases List.mem_append.1 hc with hc | hc
        · exact (trackCommand_of_mem_writeTrack hone hc).within hd
        · exact (trackCommand_of_mem_writeTrack htwo hc).within hd
      · exact within_of_mem_requestBoth hd hc

end Display

/-- The settings that are loaded have at least four columns. -/
theorem Settings.four_le_of_loadFor {lib : Library} {orders : Orders} {env : Environment} {disk : Disk} {workspace : String}
    {file : Option String} {s : Settings} (h : (loadFor lib orders env disk workspace file).1 = .ok s) : 4 ≤ s.display.columns := by
  obtain ⟨misfit, hload⟩ := exists_loadFor_eq lib orders disk workspace file env
  rw [hload] at h
  have hfaults : s.faults = [] := by
    simp only [ofSources, bind, Except.bind] at h
    split at h
    · cases h
    · split at h
      · cases h
      · split at h
        · rename_i hempty
          cases h
          simpa using hempty
        · cases h
  have hwidth : ¬s.width.toNat < minWidth := by
    intro hwidth
    simp [faults, hwidth] at hfaults
  exact Nat.not_lt.1 hwidth

/-! ## Commands -/

/-- Faults with which a run breaks off. -/
def CommandFault.isAbrupt : CommandFault → Bool
  | .build (.underflow _) => true
  | .report _ => true
  | .settings (.place _) => true
  | _ => false

namespace Command

variable {s : Settings} {disk : Disk} {m : Machine}

/-- A plan of a graph that underflows fails. -/
theorem executePlan_of_error {u : Underflow} (h : m.graph.fingerprint s.display = .error u) (format : PlanFormat) :
    (executePlan s format disk m).result = .error (.build (.underflow u)) := by
  obtain ⟨plan, hplan⟩ := m.exists_plan_eq
  rw [← Machine.graph_of_plan hplan] at h
  simp only [executePlan, hplan, h]

/-- A plan of a graph that has a fingerprint is reported with it. -/
theorem executePlan_of_ok {plan : Plan} (hplan : m.plan = .ok plan) {fingerprint : String}
    (h : m.graph.fingerprint s.display = .ok fingerprint) (format : PlanFormat) :
    (executePlan s format disk m).result = (planReport format plan fingerprint).mapError CommandFault.report := by
  rw [← Machine.graph_of_plan hplan] at h
  simp only [executePlan, hplan, h]

/-- A report cannot be printed exactly if it is a table that is too wide. -/
theorem planReport_abrupt_iff (format : PlanFormat) (p : Plan) (fingerprint : String) :
    (∃ f, (planReport format p fingerprint).mapError CommandFault.report = .error f ∧ f.isAbrupt = true) ↔
      format = .text ∧ Report.maxWidth < Report.stateWidth p.graph := by
  cases format with
  | json => simp [planReport, Except.mapError]
  | text =>
    by_cases hwidth : Report.maxWidth < Report.stateWidth p.graph
    · simp [planReport, Report.planText_of_lt fingerprint hwidth, hwidth, Except.mapError, CommandFault.isAbrupt]
    · simp [planReport, Report.planText_of_le fingerprint (Nat.not_lt.1 hwidth), hwidth, Except.mapError]

/-- A plan breaks off if its graph cannot be rendered, or if it is to be printed as a table that is too wide. -/
theorem executePlan_abrupt_iff (format : PlanFormat) : (∃ f, (executePlan s format disk m).result = .error f ∧ f.isAbrupt = true) ↔
    m.graph.Underflows s.display ∨ format = .text ∧ Report.maxWidth < Report.stateWidth m.graph := by
  cases hfingerprint : m.graph.fingerprint s.display with
  | error u =>
    rw [executePlan_of_error hfingerprint]
    exact ⟨fun _ => .inl (Graph.fingerprint_eq_error_iff.1 hfingerprint), fun _ => ⟨_, rfl, rfl⟩⟩
  | ok fingerprint =>
    have hunderflows : ¬m.graph.Underflows s.display := by
      intro h
      rw [(Graph.fingerprint_eq_error_iff (u := .noColumns)).2 h] at hfingerprint
      cases hfingerprint
    obtain ⟨plan, hplan⟩ := m.exists_plan_eq
    rw [executePlan_of_ok hplan hfingerprint, planReport_abrupt_iff, Machine.graph_of_plan hplan, or_iff_right hunderflows]

/-- A plan that breaks off for its table. -/
theorem executePlan_of_lt (hs : 0 < s.display.columns) (hwidth : Report.maxWidth < Report.stateWidth m.graph) :
    (executePlan s .text disk m).result = .error (.report .columnTooWide) := by
  obtain ⟨fingerprint, hfingerprint⟩ := Graph.exists_fingerprint hs m.graph
  obtain ⟨plan, hplan⟩ := m.exists_plan_eq
  rw [← Machine.graph_of_plan hplan] at hwidth
  rw [executePlan_of_ok hplan hfingerprint, planReport, Report.planText_of_lt fingerprint hwidth]
  rfl

/-- The root of a build: the given path or that of the settings, seen from the workspace. -/
def rootFor (s : Settings) (workspace : String) : Option String → String
  | some path => Path.join workspace path
  | none => s.resolveRoot workspace

/-- A build command ends as the build below its root does. -/
theorem result_executeBuild (s : Settings) (workspace : String) (output : Option String) (disk : Disk) (m : Machine) :
    (executeBuild s workspace output disk m).result =
      ((m.build s.display (rootFor s workspace output) disk).1.mapError CommandFault.build).map Report.buildText := by
  cases output with
  | none =>
    unfold executeBuild
    dsimp only [rootFor]
  | some path =>
    unfold executeBuild
    dsimp only [rootFor]

/-- A build breaks off only if its graph cannot be rendered. -/
theorem underflows_of_executeBuild {workspace : String} {output : Option String} {f : CommandFault}
    (h : (executeBuild s workspace output disk m).result = .error f) (hf : f.isAbrupt = true) : m.graph.Underflows s.display := by
  rw [result_executeBuild, m.fst_build] at h
  cases hbuild : (m.graph.materialize s.display (rootFor s workspace output) disk).1 with
  | ok summary =>
    rw [hbuild] at h
    cases h
  | error fault =>
    rw [hbuild] at h
    cases h
    cases fault with
    | underflow u => exact Graph.underflows_of_materialize hbuild
    | _ => cases hf

/-- What can be wrong with the machine of a command is no reason to break off. -/
theorem isAbrupt_of_chooseMachine {workspace : String} {path : Option String} {fault : CommandFault} {os : List Occurrence}
    (h : chooseMachine disk workspace path = (.error fault, os)) : fault.isAbrupt = false := by
  unfold chooseMachine at h
  split at h
  · cases h
  · dsimp only at h
    split at h
    · cases h
    · cases h
      rfl

/-- On a display that has columns a command ends abruptly only if it shows a table with a state that is too wide. -/
theorem executeWith_abrupt_iff (hs : 0 < s.display.columns) (c : Command) (workspace : String) (disk : Disk) (m : Machine) :
    (∃ f, (c.executeWith s workspace disk m).result = .error f ∧ f.isAbrupt = true) ↔
      (∃ path, c = .plan path .text) ∧ Report.maxWidth < Report.stateWidth m.graph := by
  have hunderflows : ¬m.graph.Underflows s.display := by
    rintro ⟨hcolumns, -⟩
    omega
  cases c with
  | build path output =>
    constructor
    · rintro ⟨f, hf, habrupt⟩
      rw [executeWith] at hf
      exact absurd (underflows_of_executeBuild hf habrupt) hunderflows
    · rintro ⟨⟨path', hc⟩, -⟩
      cases hc
  | plan path format =>
    rw [executeWith, executePlan_abrupt_iff, or_iff_right hunderflows]
    constructor
    · rintro ⟨rfl, hwidth⟩
      exact ⟨⟨path, rfl⟩, hwidth⟩
    · rintro ⟨⟨path', hc⟩, hwidth⟩
      cases hc
      exact ⟨rfl, hwidth⟩

/-- On a display with columns, only a plan that is to be printed as a table that is too wide breaks off. -/
theorem execute_abrupt_iff (hs : 0 < s.display.columns) (c : Command) (workspace : String) (disk : Disk) :
    (∃ f, (c.execute s workspace disk).result = .error f ∧ f.isAbrupt = true) ↔
      ∃ path m os, c = .plan path .text ∧ chooseMachine disk workspace path = (.ok m, os) ∧
        Report.maxWidth < Report.stateWidth m.graph := by
  obtain ⟨chosen, os, hchosen⟩ : ∃ chosen os, chooseMachine disk workspace c.machinePath? = (chosen, os) := ⟨_, _, rfl⟩
  cases chosen with
  | error fault =>
    have hresult : (c.execute s workspace disk).result = .error fault := by simp only [execute, hchosen]
    rw [hresult]
    constructor
    · rintro ⟨f, hf, habrupt⟩
      cases hf
      rw [isAbrupt_of_chooseMachine hchosen] at habrupt
      cases habrupt
    · rintro ⟨path, m, os', rfl, hm, -⟩
      rw [machinePath?, hm] at hchosen
      cases hchosen
  | ok m =>
    have hresult : (c.execute s workspace disk).result = (c.executeWith s workspace disk m).result := by simp only [execute, hchosen]
    rw [hresult, executeWith_abrupt_iff hs]
    constructor
    · rintro ⟨⟨path, rfl⟩, hwidth⟩
      exact ⟨path, m, os, rfl, hchosen, hwidth⟩
    · rintro ⟨path, m', os', rfl, hm, hwidth⟩
      rw [machinePath?, hm] at hchosen
      cases hchosen
      exact ⟨⟨path, rfl⟩, hwidth⟩

end Command

/-- Rendering fails exactly where a head is to be moved left on a display without columns. For the fingerprint of a plan and for a
build that the file system does not stop, this is all that can happen; a plan also breaks off if it is to be printed as a table with a
state whose name has more than 65535 bytes. Settings that were loaded have at least four columns, with the heads inside and all
programs within the tracks and the line below them, and with them no command breaks off, but for such a table. -/
theorem rendering_fails_iff (m : Machine) (lib : Settings.Library) (orders : Settings.Orders) (env : Environment) (disk : Disk)
    (workspace : String) (file : Option String) :
    (∃ plan, m.plan = .ok plan ∧
      (∀ d, (∃ u, plan.graph.fingerprint d = .error u) ↔ plan.graph.Underflows d) ∧
      (∀ s format disk, (∃ f, (Command.executePlan s format disk m).result = .error f ∧ f.isAbrupt = true) ↔
        plan.graph.Underflows s.display ∨ format = .text ∧ ∃ n ∈ plan.graph.nodes, 65535 < n.state.utf8ByteSize) ∧
      ∀ d root disk, (∀ f, (m.build d root disk).1 = .error f → f.isDisk = false) →
        ((∃ u, (m.build d root disk).1 = .error (.underflow u)) ↔ plan.graph.Underflows d)) ∧
    ∀ s, (Settings.loadFor lib orders env disk workspace file).1 = .ok s →
      4 ≤ s.display.columns ∧ s.display.Proper ∧
        ∀ (c : Command) workspace disk, (∃ f, (c.execute s workspace disk).result = .error f ∧ f.isAbrupt = true) ↔
          ∃ path m os plan, c = .plan path .text ∧ Command.chooseMachine disk workspace path = (.ok m, os) ∧ m.plan = .ok plan ∧
            ∃ n ∈ plan.graph.nodes, 65535 < n.state.utf8ByteSize := by
  refine ⟨?_, fun s h => ?_⟩
  · obtain ⟨plan, hplan⟩ := m.exists_plan_eq
    refine ⟨plan, hplan, ?_⟩
    rw [Machine.graph_of_plan hplan]
    refine ⟨fun d => ?_, fun s format disk => ?_, fun d root disk h => Machine.build_underflow_iff h⟩
    · exact ⟨fun ⟨u, hu⟩ => Graph.fingerprint_eq_error_iff.1 hu, fun h => ⟨.noColumns, Graph.fingerprint_eq_error_iff.2 h⟩⟩
    · rw [Command.executePlan_abrupt_iff, Report.maxWidth_lt_stateWidth_iff, Report.maxWidth]
  · have hcolumns := Settings.four_le_of_loadFor h
    refine ⟨hcolumns, Display.proper_of_four_le hcolumns, fun c workspace disk => ?_⟩
    rw [Command.execute_abrupt_iff (by omega)]
    simp only [Report.maxWidth_lt_stateWidth_iff]
    constructor
    · rintro ⟨path, m, os, hc, hm, hlong⟩
      obtain ⟨plan, hplan⟩ := m.exists_plan_eq
      rw [← Machine.graph_of_plan hplan] at hlong
      exact ⟨path, m, os, plan, hc, hm, hplan, hlong⟩
    · rintro ⟨path, m, os, plan, hc, hm, hplan, hlong⟩
      rw [Machine.graph_of_plan hplan] at hlong
      exact ⟨path, m, os, hc, hm, hlong⟩

/-- A machine with one rule, which moves the first head to the left. -/
def retreating : Machine := (Machine.new "A").rule "A" ⟨.zero, .zero⟩ ⟨"A", ⟨.zero, .left⟩, ⟨.zero, .stay⟩⟩

/-- What the build of this machine and the settings come to. Both are evaluated at once. -/
theorem evaluated_retreating :
    (retreating.build ⟨0⟩ "tree" (.workingIn [])).1 = .error (.underflow .noColumns) ∧
      (Settings.loadFor .standard .listed ⟨[]⟩ (.workingIn []) "." none).1 = .ok .standard := by decide +kernel

/-- Without columns this machine has neither a fingerprint nor a plan nor a tree. The standard settings, which are loaded where
there are none, have columns enough. -/
theorem rendering_fails_retreating :
    ∃ plan, retreating.plan = .ok plan ∧ plan.graph.Underflows ⟨0⟩ ∧ (∃ u, plan.graph.fingerprint ⟨0⟩ = .error u) ∧
      (∃ f, (Command.executePlan { Settings.standard with width := 0 } .json (.workingIn []) retreating).result = .error f ∧
        f.isAbrupt = true) ∧
      (∃ u, (retreating.build ⟨0⟩ "tree" (.workingIn [])).1 = .error (.underflow u)) ∧
      (Settings.loadFor .standard .listed ⟨[]⟩ (.workingIn []) "." none).1 = .ok .standard ∧ Settings.standard.display.Proper := by
  obtain ⟨⟨plan, hplan, hfingerprint, hexecute, hbuild⟩, hsettings⟩ :=
    rendering_fails_iff retreating .standard .listed ⟨[]⟩ (.workingIn []) "." none
  obtain ⟨hresult, hloaded⟩ := evaluated_retreating
  have hfault : ∀ f, (retreating.build ⟨0⟩ "tree" (.workingIn [])).1 = .error f → f.isDisk = false := by
    intro f hf
    rw [hresult] at hf
    cases hf
    rfl
  have hunderflows : plan.graph.Underflows ⟨0⟩ := (hbuild ⟨0⟩ "tree" _ hfault).1 ⟨_, hresult⟩
  have habrupt := (hexecute { Settings.standard with width := 0 } .json (.workingIn [])).2 (.inl hunderflows)
  have hproper := (hsettings .standard hloaded).2.1
  exact ⟨plan, hplan, hunderflows, (hfingerprint ⟨0⟩).2 hunderflows, habrupt, ⟨.noColumns, hresult⟩, hloaded, hproper⟩

/-- With the standard settings, a plan whose table is too wide breaks off, though its machine moves no head. -/
theorem long_state_breaks_plan :
    (Settings.loadFor .standard .listed ⟨[]⟩ (.workingIn []) "." none).1 = .ok .standard ∧ ∀ disk,
      (Command.executePlan .standard .text disk (Machine.leadingTo (longState 65536))).result = .error (.report .columnTooWide) := by
  have hwidth := Report.maxWidth_lt_longState (show 65535 < 65536 by omega)
  exact ⟨evaluated_retreating.2, fun disk => Command.executePlan_of_lt (by decide) hwidth⟩

end DispatchTree
