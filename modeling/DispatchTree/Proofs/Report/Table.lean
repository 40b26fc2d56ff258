import DispatchTree.Proofs.Files.Build
import DispatchTree.Proofs.Files.Names
import DispatchTree.Proofs.Report.Width

/-!
# Reading a table back

The table of a plan has fixed columns. The column of states is measured in bytes and filled by characters, of which a state has no
more than bytes, so that every state fits into it; tags have at most four digits as long as there are no more than 65536 nodes, and
a node has at most eighteen edges. A line is therefore cut at fixed offsets into its fields (`readsAs_tableLine`), and the text of a
plan is cut into its lines if no state breaks one (`plan_table_reads_back`).
-/

namespace DispatchTree

namespace Report

/-- A text without line breaks. -/
def OneLine (s : String) : Prop := '\n' ∉ s.toList

instance (s : String) : Decidable (OneLine s) := inferInstanceAs (Decidable (_ ∉ _))

/-- The lines of a text. -/
def linesOf (text : String) : List (List Char) := text.toList.splitOn '\n'

/-- The characters of a line from one offset to another. -/
def cut (line : List Char) (first last : Nat) : List Char := (line.take last).drop first

/-- A line of the table whose fields can be cut out, each filled with spaces. -/
structure ReadsAs (width : Nat) (line : List Char) (tag next kind out : String) : Prop where
  length : line.length = width + 17
  tag : ∃ k, cut line 0 4 = tag.toList ++ List.replicate k ' '
  next : ∃ k, cut line 6 (6 + width) = next.toList ++ List.replicate k ' '
  kind : ∃ k, cut line (8 + width) (12 + width) = kind.toList ++ List.replicate k ' '
  out : ∃ k, cut line (14 + width) (17 + width) = List.replicate k ' ' ++ out.toList

/-- Lines that show a graph: a heading and a line for each node, in the order of their numbers, and six lines around them. -/
structure ShowsGraph (g : Graph) (lines : List (List Char)) : Prop where
  length : lines.length = g.nodes.length + 6
  heading : ∃ line, lines[3]? = some line ∧ ReadsAs (stateWidth g) line "TAG" "NEXT" "KIND" "OUT"
  rows : ∀ (i : Nat) (n : Node), g.nodes[i]? = some n → ∃ line, lines[i + 4]? = some line ∧
    ReadsAs (stateWidth g) line (DispatchTree.tag i) n.state n.program.kind (Nat.repr n.edges.size)

/-! ## Fields -/

/-- A field is cut out of a line if it stands between these columns. -/
theorem cut_append {before field after : List Char} {first last : Nat} (hfirst : before.length = first)
    (hlast : first + field.length = last) : cut (before ++ (field ++ after)) first last = field := by
  subst hfirst hlast
  rw [cut, List.take_length_add_append, List.take_left, List.drop_left]

theorem toList_padRight (s : String) (width : Nat) : (padRight s width).toList = s.toList ++ List.replicate (width - s.length) ' ' :=
  toList_pushn s ' ' _

/-- A text that fits is padded to the width of its column. -/
theorem length_toList_padRight {s : String} {width : Nat} (h : s.length ≤ width) : (padRight s width).toList.length = width := by
  rw [toList_padRight, List.length_append, List.length_replicate, String.length_toList]
  omega

theorem toList_padLeft (s : String) (width : Nat) : (padLeft s width).toList = List.replicate (width - s.length) ' ' ++ s.toList := by
  rw [padLeft, String.toList_append, toList_pushn]
  rfl

/-- Fields that fit into their columns can be cut out of their line again. -/
theorem readsAs_tableLine {width : Nat} {tag next kind out : String} (htag : tag.length ≤ 4) (hnext : next.length ≤ width)
    (hkind : kind.length ≤ 4) (hout : out.length ≤ 3) : ReadsAs width (tableLine width tag next kind out).toList tag next kind out := by
  have hline : (tableLine width tag next kind out).toList =
      (padRight tag 4).toList ++ ([' ', ' '] ++ ((padRight next width).toList ++ ([' ', ' '] ++
        ((padRight kind 4).toList ++ ([' ', ' '] ++ ((padLeft out 3).toList ++ [])))))) := by
    simp [tableLine]
  have htagLength := length_toList_padRight htag
  have hnextLength := length_toList_padRight hnext
  have hkindLength := length_toList_padRight hkind
  have houtLength : (padLeft out 3).toList.length = 3 := by
    rw [toList_padLeft, List.length_append, List.length_replicate, String.length_toList]
    omega
  -- each field is found between what stands before it and what stands after it
  rw [hline]
  refine ⟨?_, ⟨_, (?_ : _ = (padRight tag 4).toList).trans (toList_padRight tag 4)⟩,
    ⟨_, (?_ : _ = (padRight next width).toList).trans (toList_padRight next width)⟩,
    ⟨_, (?_ : _ = (padRight kind 4).toList).trans (toList_padRight kind 4)⟩,
    ⟨_, (?_ : _ = (padLeft out 3).toList).trans (toList_padLeft out 3)⟩⟩
  · simp only [List.length_append, List.length_cons, List.length_nil]
    omega
  · exact cut_append (show ([] : List Char).length = 0 from rfl) (by omega)
  · rw [← List.append_assoc]
    refine cut_append ?_ (by omega)
    simp only [List.length_append, List.length_cons, List.length_nil]
    omega
  · rw [← List.append_assoc, ← List.append_assoc, ← List.append_assoc]
    refine cut_append ?_ (by omega)
    simp only [List.length_append, List.length_cons, List.length_nil]
    omega
  · rw [← List.append_assoc, ← List.append_assoc, ← List.append_assoc, ← List.append_assoc, ← List.append_assoc]
    refine cut_append ?_ (by omega)
    simp only [List.length_append, List.length_cons, List.length_nil]
    omega

/-! ## Lines -/

/-- A text in two parts is on one line if both parts are. -/
theorem oneLine_append {a b : String} : OneLine (a ++ b) ↔ OneLine a ∧ OneLine b := by
  simp [OneLine]

/-- Spaces stay on the line. -/
theorem oneLine_pushn {s : String} (hs : OneLine s) (n : Nat) : OneLine (s.pushn ' ' n) := by
  rw [OneLine, toList_pushn, List.mem_append, not_or]
  refine ⟨hs, fun hmem => ?_⟩
  exact absurd (List.eq_of_mem_replicate hmem) (by decide)

theorem oneLine_tag (id : Nat) : OneLine (tag id) := fun h => absurd (mem_tagChars_of_mem_tag h) (by decide)

/-- Numbers are on one line. -/
theorem oneLine_repr (n : Nat) : OneLine (Nat.repr n) := by
  intro h
  rw [Nat.toList_repr] at h
  exact absurd (Nat.isDigit_of_mem_toDigits (by decide) (by decide) h) (by decide)

/-- There are two kinds of programs. -/
theorem kind_eq (p : Program) : p.kind = "halt" ∨ p.kind = "step" := by
  cases p with
  | halt message => exact .inl rfl
  | step first second => exact .inr rfl

theorem oneLine_kind (p : Program) : OneLine p.kind := by
  rcases kind_eq p with h | h
  · rw [h]
    decide
  · rw [h]
    decide

/-- Bytes in hexadecimal digits are on one line. -/
theorem oneLine_hexBytes (bs : List UInt8) : OneLine (hexBytes bs) := by
  intro h
  rw [hexBytes, String.toList_ofList, List.mem_flatMap] at h
  obtain ⟨b, -, h⟩ := h
  have hb := b.toNat_lt
  have hother : '\n' ∉ tagChars := by decide
  simp only [List.mem_cons, List.not_mem_nil, or_false] at h
  rcases h with h | h
  · exact hother (h ▸ digitChar_mem_tagChars (by omega))
  · exact hother (h ▸ digitChar_mem_tagChars (by omega))

/-- The fingerprint of a graph is one line. -/
theorem oneLine_fingerprint {g : Graph} {d : Display} {fingerprint : String} (h : g.fingerprint d = .ok fingerprint) :
    OneLine fingerprint := by
  unfold Graph.fingerprint at h
  cases hbytes : g.bytes d with
  | error u =>
    rw [hbytes] at h
    cases h
  | ok bs =>
    rw [hbytes] at h
    cases h
    exact oneLine_hexBytes _

/-- A line of the table is on one line if all its fields are. -/
theorem oneLine_tableLine {width : Nat} {tag next kind out : String} (htag : OneLine tag) (hnext : OneLine next) (hkind : OneLine kind)
    (hout : OneLine out) : OneLine (tableLine width tag next kind out) := by
  have hspaces : OneLine "  " := by decide
  have hempty : OneLine "" := by decide
  simp only [tableLine, padLeft, oneLine_append]
  exact ⟨⟨⟨⟨⟨⟨oneLine_pushn htag _, hspaces⟩, oneLine_pushn hnext _⟩, hspaces⟩, oneLine_pushn hkind _⟩, hspaces⟩,
    oneLine_pushn hempty _, hout⟩

/-- No line of a report has a line break in it, if no name of a state has one. -/
theorem oneLine_of_mem_planLines {p : Plan} {fingerprint : String} (hinitial : OneLine p.graph.initial)
    (hstates : ∀ n ∈ p.graph.nodes, OneLine n.state) (hfingerprint : OneLine fingerprint) {line : String}
    (h : line ∈ planLines p fingerprint) : OneLine line := by
  simp only [planLines, List.mem_append, List.mem_cons, List.not_mem_nil, or_false, List.mem_map] at h
  rcases h with ((rfl | rfl | rfl | rfl) | ⟨n, hn, rfl⟩) | rfl | rfl
  · simp only [oneLine_append]
    exact ⟨⟨⟨⟨⟨⟨by decide, hinitial⟩, by decide⟩, oneLine_repr _⟩, by decide⟩, oneLine_repr _⟩, by decide⟩
  · exact oneLine_append.2 ⟨by decide, hfingerprint⟩
  · decide
  · exact oneLine_tableLine (by decide) (by decide) (by decide) (by decide)
  · exact oneLine_tableLine (oneLine_tag _) (hstates n hn) (oneLine_kind _) (oneLine_repr _)
  · decide
  · exact oneLine_append.2 ⟨by decide, oneLine_repr _⟩

/-- Lines put together are cut apart again. -/
theorem linesOf_intercalate {lines : List String} (hne : lines ≠ []) (h : ∀ line ∈ lines, OneLine line) :
    linesOf ("\n".intercalate lines) = lines.map String.toList := by
  have hbreak : "\n".toList = ['\n'] := by decide
  rw [linesOf, String.toList_intercalate, hbreak, List.splitOn_intercalate]
  · intro l hl
    obtain ⟨line, hline, rfl⟩ := List.mem_map.1 hl
    exact h line hline
  · simpa using hne

/-! ## The table -/

/-- The lines of a plan show its graph, if tags are short and nodes have few edges. -/
theorem showsGraph_planLines {p : Plan} (fingerprint : String) (hnumbered : ∀ (i : Nat) (n : Node), p.graph.nodes[i]? = some n → n.id = i)
    (hnodes : p.graph.nodes.length ≤ 65536) (hedges : ∀ n ∈ p.graph.nodes, n.edges.size < 1000) :
    ShowsGraph p.graph ((planLines p fingerprint).map String.toList) := by
  have hwidth := four_le_stateWidth p.graph
  refine ⟨?_, ⟨_, rfl, readsAs_tableLine (by decide) hwidth (by decide) (by decide)⟩, fun i n hn => ?_⟩
  · simp [planLines]
  · obtain ⟨hi, hget⟩ := List.getElem?_eq_some_iff.1 hn
    refine ⟨(nodeLine (stateWidth p.graph) n).toList, ?_, ?_⟩
    · simp [planLines, List.getElem?_append, hi, hget]
    · have hmem := List.mem_of_getElem? hn
      have hshort : i < 16 ^ 4 := by omega
      rw [nodeLine, hnumbered i n hn]
      refine readsAs_tableLine ?_ ?_ ?_ ?_
      · rw [tag, String.length_ofList]
        exact (Nat.length_toDigits_le_iff (by decide) (by decide)).2 hshort
      · exact (length_le_utf8ByteSize n.state).trans (utf8ByteSize_le_stateWidth hmem)
      · rcases kind_eq n.program with h | h
        · rw [h]
          decide
        · rw [h]
          decide
      · rw [← String.length_toList, Nat.toList_repr]
        exact (Nat.length_toDigits_le_iff (by decide) (by decide)).2 (hedges n hmem)

/-- The text of a plan whose column of states is not too wide is cut into lines that show its graph. -/
theorem exists_table {p : Plan} {fingerprint : String} (hwidth : stateWidth p.graph ≤ maxWidth) (hinitial : OneLine p.graph.initial)
    (hstates : ∀ n ∈ p.graph.nodes, OneLine n.state) (hfingerprint : OneLine fingerprint)
    (hnumbered : ∀ (i : Nat) (n : Node), p.graph.nodes[i]? = some n → n.id = i) (hnodes : p.graph.nodes.length ≤ 65536)
    (hedges : ∀ n ∈ p.graph.nodes, n.edges.size < 1000) :
    ∃ text, planText p fingerprint = .ok text ∧ ShowsGraph p.graph (linesOf text) := by
  refine ⟨_, planText_of_le fingerprint hwidth, ?_⟩
  have hne : planLines p fingerprint ≠ [] := by simp [planLines]
  rw [linesOf_intercalate hne fun line hline => oneLine_of_mem_planLines hinitial hstates hfingerprint hline]
  exact showsGraph_planLines fingerprint hnumbered hnodes hedges

end Report

/-- The table of a plan is aligned and can be read back, for every machine whose states have names of one line. If there are no more
than 65536 nodes, the lines of the text are six more than the nodes, the heading and the lines of the nodes have the same length,
and each is cut at fixed offsets into its fields. A state whose name has more than 65535 bytes leaves no room for a table. -/
theorem plan_table_reads_back (m : Machine) (hstates : ∀ state ∈ m.mentioned, Report.OneLine state) :
    ∃ plan, m.plan = .ok plan ∧ ∀ fingerprint, Report.OneLine fingerprint →
      (plan.graph.nodes.length ≤ 65536 → Report.stateWidth plan.graph ≤ 65535 →
        ∃ text, Report.planText plan fingerprint = .ok text ∧ Report.ShowsGraph plan.graph (Report.linesOf text)) ∧
      (65535 < Report.stateWidth plan.graph → Report.planText plan fingerprint = .error .columnTooWide) := by
  have hnodeStates : ∀ n ∈ m.graph.nodes, Report.OneLine n.state := fun n hn => hstates _ (Machine.exists_of_mem_nodes hn).1
  have hinitial : Report.OneLine m.graph.initial := by
    rw [Machine.graph]
    exact hstates _ m.initial_mem_mentioned
  -- eighteen edges, or none
  have hedges : ∀ n ∈ m.graph.nodes, n.edges.size < 1000 := by
    intro n hn
    rw [Machine.size_edges hn]
    split
    · decide
    · decide
  -- so few nodes have numbers of their own
  have hnumbered : m.graph.nodes.length ≤ 65536 → ∀ (i : Nat) (n : Node), m.graph.nodes[i]? = some n → n.id = i := by
    intro hnodes
    rw [m.graph_length, Catalog.length_toList] at hnodes
    exact (m.closed_graph (Nat.le_trans hnodes (by decide))).numbered
  obtain ⟨plan, hplan⟩ := m.exists_plan_eq
  rw [← Machine.graph_of_plan hplan] at hnodeStates hinitial hedges hnumbered
  refine ⟨plan, hplan, fun fingerprint hfingerprint => ⟨fun hnodes hwidth => ?_, fun hwidth => ?_⟩⟩
  · exact Report.exists_table hwidth hinitial hnodeStates hfingerprint (hnumbered hnodes) hnodes hedges
  · exact Report.planText_of_lt fingerprint hwidth

/-- The states of this machine are on one line if the state it leads to is. -/
theorem Report.oneLine_mentioned_leadingTo {state : String} (hstate : OneLine state) :
    ∀ s ∈ (Machine.leadingTo state).mentioned, OneLine s := by
  intro s hs
  rcases Machine.mem_mentioned_leadingTo hs with rfl | rfl | rfl
  · decide
  · decide
  · exact hstate

theorem Report.oneLine_longState (n : Nat) : OneLine (longState n) := by
  rw [OneLine, toList_longState]
  exact fun hmem => absurd (List.eq_of_mem_replicate hmem) (by decide)

/-- The table for a machine that leads to a state with an umlaut, which has a byte more than characters. -/
theorem plan_table_reads_back_umlaut :
    (∀ state ∈ (Machine.leadingTo "größer").mentioned, Report.OneLine state) ∧
      ∃ plan, (Machine.leadingTo "größer").plan = .ok plan ∧ (∃ n ∈ plan.graph.nodes, n.state = "größer") ∧
        ∃ fingerprint, plan.graph.fingerprint .standard = .ok fingerprint ∧ Report.OneLine fingerprint ∧
          plan.graph.nodes.length ≤ 65536 ∧ Report.stateWidth plan.graph ≤ 65535 ∧
          ∃ text, Report.planText plan fingerprint = .ok text ∧ Report.ShowsGraph plan.graph (Report.linesOf text) := by
  have hstates := Report.oneLine_mentioned_leadingTo (show Report.OneLine "größer" by decide)
  obtain ⟨plan, hplan, htable⟩ := plan_table_reads_back (Machine.leadingTo "größer") hstates
  obtain rfl : _ = plan := Except.ok.inj ((Machine.plan_eq _).symm.trans hplan)
  obtain ⟨fingerprint, hfingerprint⟩ := Graph.exists_fingerprint (d := .standard) (by decide) (Machine.leadingTo "größer").graph
  have hline := Report.oneLine_fingerprint hfingerprint
  have hnodes : (Machine.leadingTo "größer").graph.nodes.length ≤ 65536 := (Machine.length_nodes_leadingTo_le _).trans (by omega)
  have hwidth : Report.stateWidth (Machine.leadingTo "größer").graph ≤ 65535 :=
    Machine.stateWidth_addRules_le (fun _ _ => by simp [Machine.action?, Machine.row, Machine.new]) (by decide) (by decide) (by decide)
  exact ⟨hstates, _, hplan, Machine.exists_node_leadingTo _, fingerprint, hfingerprint, hline, hnodes, hwidth,
    (htable fingerprint hline).1 hnodes hwidth⟩

/-- Two nodes are enough for a plan without a table: the name of a state may be too long. -/
theorem long_state_has_no_table :
    (∀ state ∈ (Machine.leadingTo (longState 65536)).mentioned, Report.OneLine state) ∧
      ∃ plan, (Machine.leadingTo (longState 65536)).plan = .ok plan ∧ plan.graph.nodes.length ≤ 65536 ∧
        ∀ fingerprint, Report.planText plan fingerprint = .error .columnTooWide := by
  have hnodes : (Machine.leadingTo (longState 65536)).graph.nodes.length ≤ 65536 :=
    (Machine.length_nodes_leadingTo_le _).trans (by omega)
  have hwidth := Report.maxWidth_lt_longState (show 65535 < 65536 by omega)
  exact ⟨Report.oneLine_mentioned_leadingTo (Report.oneLine_longState 65536), _, Machine.plan_eq _, hnodes,
    fun fingerprint => Report.planText_of_lt fingerprint hwidth⟩

end DispatchTree
