import DispatchTree.Proofs.Primality.Division

/-!
# Trial division by the tester

Before each trial the divisor is incremented while the second head runs ahead at twice the speed, and the heads are then carried
to the first digits (`reaches_increment`). If the second head reaches the end of the number first, the divisor is past the square
root and the tester accepts; else the number is divided by it, and if that leaves a remainder the number is restored for the next
trial (`reaches_restored`). `reaches_trial` puts the three together.
-/

namespace DispatchTree.Primality

open Strips

/-! ## The next divisor -/

/-- The second head runs on to the end of the number, and both heads turn back. -/
theorem reaches_align (us : List Bool) : ∀ (l1 l2 r1 r2 : List Symbol), l1 ≠ [] → l2 ≠ [] →
    Reaches machine ⟨"align", ⟨l1, .blank :: r1⟩, ⟨l2, digits us ++ .blank :: r2⟩⟩
      ⟨"dleq", .back l1 (.blank :: r1), .back (digits us.reverse ++ l2) (.blank :: r2)⟩ := by
  induction us with
  | nil =>
    intro l1 l2 r1 r2 h1 h2
    have hrule : ("align", (⟨.blank, .blank⟩ : SymbolPair), (⟨"dleq", ⟨.blank, .left⟩, ⟨.blank, .left⟩⟩ : Action)) ∈ rules := by
      decide
    exact reaches_rule hrule (Strip.act_left h1 r1 _ _) (Strip.act_left h2 r2 _ _)
  | cons u us ih =>
    intro l1 l2 r1 r2 h1 h2
    have hrule : ("align", (⟨.blank, digit u⟩ : SymbolPair), (⟨"align", ⟨.blank, .stay⟩, ⟨digit u, .right⟩⟩ : Action)) ∈ rules := by
      cases u <;> decide
    have hstep := reaches_rule hrule (Strip.act_stay l1 r1 _ _) (Strip.act_right l2 (digits us ++ .blank :: r2) _ _)
    simpa using hstep.trans (ih l1 (digit u :: l2) r1 r2 h1 (by simp))

/-- The state in which the first head passes the divisor; it moves in every other step. -/
def aligning : Bool → String
  | false => "al0"
  | true => "al1"

/-- Where the second head is at the end of the number and the first one still on the divisor, the tester accepts. -/
theorem accepts_aligning (wait d : Bool) (l1 r1 l2 r2 : List Symbol) :
    ∃ one two, Reaches machine ⟨aligning wait, ⟨l1, digit d :: r1⟩, ⟨l2, .blank :: r2⟩⟩ ⟨"prime", one, two⟩ := by
  have hrule : (aligning wait, (⟨digit d, .blank⟩ : SymbolPair), (⟨"prime", ⟨digit d, .stay⟩, ⟨.blank, .stay⟩⟩ : Action)) ∈
      rules := by
    cases wait <;> cases d <;> decide
  exact ⟨_, _, reaches_rule hrule (Strip.act_stay l1 r1 _ _) (Strip.act_stay l2 r2 _ _)⟩

/-- The rest of the divisor is passed at half the speed of the second head. -/
theorem reaches_aligned (ds : List Bool) : ∀ (us : List Bool) (l1 l2 r1 r2 : List Symbol), l1 ≠ [] → l2 ≠ [] →
    (2 * ds.length ≤ us.length → Reaches machine ⟨"al1", ⟨l1, digits ds ++ .blank :: r1⟩, ⟨l2, digits us ++ .blank :: r2⟩⟩
      ⟨"dleq", .back (digits ds.reverse ++ l1) (.blank :: r1), .back (digits us.reverse ++ l2) (.blank :: r2)⟩) ∧
    (us.length < 2 * ds.length → ∃ one two, Reaches machine
      ⟨"al1", ⟨l1, digits ds ++ .blank :: r1⟩, ⟨l2, digits us ++ .blank :: r2⟩⟩ ⟨"prime", one, two⟩) := by
  induction ds with
  | nil =>
    intro us l1 l2 r1 r2 h1 h2
    refine ⟨fun _ => ?_, fun hlt => absurd hlt (Nat.not_lt_zero _)⟩
    cases us with
    | nil =>
      have hrule : ("al1", (⟨.blank, .blank⟩ : SymbolPair), (⟨"dleq", ⟨.blank, .left⟩, ⟨.blank, .left⟩⟩ : Action)) ∈ rules := by
        decide
      exact reaches_rule hrule (Strip.act_left h1 r1 _ _) (Strip.act_left h2 r2 _ _)
    | cons u us =>
      have hrule : ("al1", (⟨.blank, digit u⟩ : SymbolPair), (⟨"align", ⟨.blank, .stay⟩, ⟨digit u, .right⟩⟩ : Action)) ∈ rules := by
        cases u <;> decide
      have hstep := reaches_rule hrule (Strip.act_stay l1 r1 _ _) (Strip.act_right l2 (digits us ++ .blank :: r2) _ _)
      simpa using hstep.trans (reaches_align us l1 (digit u :: l2) r1 r2 h1 (by simp))
  | cons d ds ih =>
    intro us l1 l2 r1 r2 h1 h2
    have hwait : ∀ u, ("al1", (⟨digit d, digit u⟩ : SymbolPair), (⟨"al0", ⟨digit d, .stay⟩, ⟨digit u, .right⟩⟩ : Action)) ∈
        rules := by
      cases d <;> decide
    have hmove : ∀ u, ("al0", (⟨digit d, digit u⟩ : SymbolPair), (⟨"al1", ⟨digit d, .right⟩, ⟨digit u, .right⟩⟩ : Action)) ∈
        rules := by
      cases d <;> decide
    match us with
    | [] => exact ⟨fun hle => absurd hle (by simp), fun _ => accepts_aligning true d l1 _ l2 r2⟩
    | [u] =>
      refine ⟨fun hle => absurd hle (by simp; omega), fun _ => ?_⟩
      obtain ⟨one, two, haccept⟩ := accepts_aligning false d l1 (digits ds ++ .blank :: r1) (digit u :: l2) r2
      exact ⟨one, two, (reaches_rule (hwait u) (Strip.act_stay l1 _ _ _) (Strip.act_right l2 _ _ _)).trans haccept⟩
    | u :: v :: us =>
      have hstep := (reaches_rule (hwait u) (Strip.act_stay l1 (digits ds ++ .blank :: r1) _ _)
        (Strip.act_right l2 (digits (v :: us) ++ .blank :: r2) _ _)).trans
        (reaches_rule (hmove v) (Strip.act_right l1 (digits ds ++ .blank :: r1) _ _)
          (Strip.act_right (digit u :: l2) (digits us ++ .blank :: r2) _ _))
      obtain ⟨hyes, hno⟩ := ih us (digit d :: l1) (digit v :: digit u :: l2) r1 r2 (by simp) (by simp)
      refine ⟨fun hle => ?_, fun hlt => ?_⟩
      · simpa using hstep.trans (hyes (by simp at hle; omega))
      · obtain ⟨one, two, haccept⟩ := hno (by simp at hlt; omega)
        exact ⟨one, two, hstep.trans haccept⟩

/-- The state in which the divisor is incremented; the first head moves in every other step. -/
def counting : Bool → String
  | false => "inc0"
  | true => "inc1"

/-- Where the second head is at the end of the number during the increment, the tester accepts. -/
theorem accepts_counting (wait : Bool) (x : Symbol) (l1 r1 l2 r2 : List Symbol) :
    ∃ one two, Reaches machine ⟨counting wait, ⟨l1, x :: r1⟩, ⟨l2, .blank :: r2⟩⟩ ⟨"prime", one, two⟩ := by
  have hcount : ∃ one two, Reaches machine ⟨"inc0", ⟨l1, x :: r1⟩, ⟨l2, .blank :: r2⟩⟩ ⟨"prime", one, two⟩ := by
    have hrule : ("inc0", (⟨x, .blank⟩ : SymbolPair),
        (⟨"prime", ⟨if x = .blank then .one else x, .stay⟩, ⟨.blank, .stay⟩⟩ : Action)) ∈ rules := by
      cases x <;> decide
    exact ⟨_, _, reaches_rule hrule (Strip.act_stay l1 r1 _ _) (Strip.act_stay l2 r2 _ _)⟩
  cases wait with
  | false => exact hcount
  | true =>
    -- on two blanks the tester counts on, and accepts in the next step
    have hrule : ("inc1", (⟨x, .blank⟩ : SymbolPair),
        (⟨if x = .blank then "inc0" else "prime", ⟨x, .stay⟩, ⟨.blank, .stay⟩⟩ : Action)) ∈ rules := by
      cases x <;> decide
    have hstep := reaches_rule hrule (Strip.act_stay l1 r1 _ _) (Strip.act_stay l2 r2 _ _)
    by_cases hx : x = .blank
    · obtain ⟨one, two, haccept⟩ := hcount
      simp only [hx, if_true] at hstep haccept ⊢
      exact ⟨one, two, hstep.trans haccept⟩
    · simp only [hx, if_false] at hstep
      exact ⟨_, _, hstep⟩

/-- The increment. If the digits of the next divisor, taken twice, do not outrun the number, the heads come to the first digits of
both; if they do, the tester accepts. There have to be blanks for the digits and one after them. -/
theorem reaches_increment (ds : List Bool) : ∀ (us : List Bool) (l1 l2 r2 : List Symbol) {m k : Nat}, 0 < m →
    (2 * (increment ds).length < us.length + 2 → (increment ds).length + (k + 1) = ds.length + m →
      Reaches machine ⟨"inc0", ⟨l1, digits ds ++ List.replicate m .blank⟩, ⟨l2, digits us ++ .blank :: r2⟩⟩
        ⟨"dleq", .back (digits (increment ds).reverse ++ l1) (.blank :: List.replicate k .blank),
          .back (digits us.reverse ++ l2) (.blank :: r2)⟩) ∧
    (us.length + 2 ≤ 2 * (increment ds).length → ∃ one two,
      Reaches machine ⟨"inc0", ⟨l1, digits ds ++ List.replicate m .blank⟩, ⟨l2, digits us ++ .blank :: r2⟩⟩ ⟨"prime", one, two⟩) := by
  induction ds with
  | nil =>
    intro us l1 l2 r2 m k hm
    obtain ⟨m, rfl⟩ : ∃ n, m = n + 1 := ⟨m - 1, by omega⟩
    cases us with
    | nil => exact ⟨fun hlt => absurd hlt (by simp [increment]), fun _ => accepts_counting false .blank l1 _ l2 r2⟩
    | cons u us =>
      refine ⟨fun _ hk => ?_, fun hle => absurd hle (by simp [increment])⟩
      obtain rfl : m = k + 1 := by simp [increment] at hk; omega
      have hrule : ("inc0", (⟨.blank, digit u⟩ : SymbolPair), (⟨"align", ⟨.one, .right⟩, ⟨digit u, .right⟩⟩ : Action)) ∈ rules := by
        cases u <;> decide
      have hstep := reaches_rule hrule (Strip.act_right l1 (.blank :: List.replicate k .blank) _ _)
        (Strip.act_right l2 (digits us ++ .blank :: r2) _ _)
      simpa [increment, digit, List.replicate_succ] using hstep.trans
        (reaches_align us (.one :: l1) (digit u :: l2) (List.replicate k .blank) r2 (by simp) (by simp))
  | cons d ds ih =>
    intro us l1 l2 r2 m k hm
    cases us with
    | nil =>
      have hpos := List.length_pos_iff.2 (increment_ne_nil (d :: ds))
      exact ⟨fun hlt => absurd hlt (by rw [List.length_nil]; omega), fun _ => accepts_counting false (digit d) l1 _ l2 r2⟩
    | cons u us =>
      cases d with
      | false =>
        obtain ⟨m, rfl⟩ : ∃ n, m = n + 1 := ⟨m - 1, by omega⟩
        have hrule : ("inc0", (⟨.zero, digit u⟩ : SymbolPair), (⟨"al1", ⟨.one, .right⟩, ⟨digit u, .right⟩⟩ : Action)) ∈ rules := by
          cases u <;> decide
        have hstep := reaches_rule hrule (Strip.act_right l1 (digits ds ++ List.replicate (m + 1) .blank) _ _)
          (Strip.act_right l2 (digits us ++ .blank :: r2) _ _)
        obtain ⟨hyes, hno⟩ := reaches_aligned ds us (.one :: l1) (digit u :: l2) (List.replicate m .blank) r2 (by simp) (by simp)
        refine ⟨fun hlt hk => ?_, fun hle => ?_⟩
        · obtain rfl : m = k := by simp [increment] at hk; omega
          simpa [increment, digit, List.replicate_succ] using hstep.trans (hyes (by simp [increment] at hlt; omega))
        · obtain ⟨one, two, haccept⟩ := hno (by simp [increment] at hle; omega)
          exact ⟨one, two, hstep.trans haccept⟩
      | true =>
        have hrule : ("inc0", (⟨.one, digit u⟩ : SymbolPair), (⟨"inc1", ⟨.zero, .right⟩, ⟨digit u, .right⟩⟩ : Action)) ∈ rules := by
          cases u <;> decide
        have hstep := reaches_rule hrule (Strip.act_right l1 (digits ds ++ List.replicate m .blank) _ _)
          (Strip.act_right l2 (digits us ++ .blank :: r2) _ _)
        obtain ⟨x, rest, hx⟩ : ∃ x rest, digits ds ++ List.replicate m .blank = x :: rest :=
          List.exists_cons_of_ne_nil (by simp; omega)
        have hpos := List.length_pos_iff.2 (increment_ne_nil ds)
        cases us with
        | nil =>
          refine ⟨fun hlt => absurd hlt (by simp [increment]; omega), fun _ => ?_⟩
          obtain ⟨one, two, haccept⟩ := accepts_counting true x (.zero :: l1) rest (digit u :: l2) r2
          rw [hx] at hstep
          exact ⟨one, two, by simpa [hx, digit] using hstep.trans haccept⟩
        | cons v us =>
          have hwait : ("inc1", (⟨x, digit v⟩ : SymbolPair), (⟨"inc0", ⟨x, .stay⟩, ⟨digit v, .right⟩⟩ : Action)) ∈ rules := by
            cases x <;> cases v <;> decide
          have hnext := reaches_rule hwait (Strip.act_stay (.zero :: l1) rest _ _)
            (Strip.act_right (digit u :: l2) (digits us ++ .blank :: r2) _ _)
          rw [← hx] at hnext
          obtain ⟨hyes, hno⟩ := ih us (.zero :: l1) (digit v :: digit u :: l2) r2 (k := k) hm
          refine ⟨fun hlt hk => ?_, fun hle => ?_⟩
          · have hrest := hyes (by simp [increment] at hlt; omega) (by simp [increment] at hk; omega)
            simpa [increment, digit] using hstep.trans (hnext.trans hrest)
          · obtain ⟨one, two, haccept⟩ := hno (by simp [increment] at hle; omega)
            exact ⟨one, two, hstep.trans (hnext.trans haccept)⟩

/-! ## The next trial -/

/-- The tracks before a trial: the number on both of them, and the divisor behind it on the first one. -/
def trying (xs ds : List Bool) (m : Nat) (l1 l2 r2 : List Symbol) : Strips :=
  ⟨"inc0", ⟨.blank :: (digits xs ++ .blank :: l1), digits ds ++ List.replicate m .blank⟩,
    ⟨.blank :: l2, digits xs ++ .blank :: r2⟩⟩

/-- The number is copied from the first track over what is left of it on the second. -/
theorem reaches_restored {xs ys : List Bool} (h : xs.length = ys.length) (l1 r1 l2 r2 : List Symbol) :
    Reaches machine ⟨"copy0", .back (digits xs ++ .blank :: l1) (.blank :: r1), ⟨.blank :: l2, digits ys ++ .blank :: r2⟩⟩
      ⟨"inc0", ⟨.blank :: (digits xs ++ .blank :: l1), r1⟩, ⟨.blank :: l2, digits xs ++ .blank :: r2⟩⟩ := by
  have herased := reaches_erasing xs ys (.blank :: l1) (.blank :: r1) (.blank :: l2) (.blank :: r2) h (by simp)
  have hturn : ("copy0", (⟨.blank, .blank⟩ : SymbolPair), (⟨"copy1", ⟨.blank, .right⟩, ⟨.blank, .left⟩⟩ : Action)) ∈ rules := by
    decide
  have hcopy : ∀ _ d : Bool, ("copy1", (⟨digit d, .blank⟩ : SymbolPair),
      (⟨"copy1", ⟨digit d, .right⟩, ⟨digit d, .left⟩⟩ : Action)) ∈ rules := by decide
  have hend : ("copy1", (⟨.blank, .blank⟩ : SymbolPair), (⟨"inc0", ⟨.blank, .right⟩, ⟨.blank, .right⟩⟩ : Action)) ∈ rules := by
    decide
  have hcopied := reaches_copying (fun _ => "copy1") hcopy xs.reverse false (.blank :: l1) (.blank :: r1) (.blank :: l2)
    (.blank :: r2) (by simp)
  rw [List.reverse_reverse, List.length_reverse] at hcopied
  exact herased.trans ((reaches_rule hturn (Strip.act_right l1 _ _ _) (Strip.act_left (by simp) r2 _ _)).trans
    (hcopied.trans (reaches_rule hend (Strip.act_right _ r1 _ _) (Strip.act_right l2 _ _ _))))

/-- One trial. If the next divisor is past the square root, the tester accepts; if it divides the number, the tester rejects; else
the tracks are as before the next trial. -/
theorem reaches_trial {xs : List Bool} (ds : List Bool) (hodd : value xs % 2 = 1) {m k : Nat} (hm : 0 < m)
    (l1 l2 r2 : List Symbol) :
    (xs.length + 2 ≤ 2 * (increment (ds ++ [true])).length →
      ∃ one two, Reaches machine (trying xs (ds ++ [true]) m l1 l2 r2) ⟨"prime", one, two⟩) ∧
    (2 * (increment (ds ++ [true])).length < xs.length + 2 →
      (increment (ds ++ [true])).length + (k + 1) = (ds ++ [true]).length + m →
      (value (ds ++ [true]) + 1 ∣ value xs → ∃ one two, Reaches machine (trying xs (ds ++ [true]) m l1 l2 r2) ⟨"notprime", one, two⟩) ∧
      (¬ value (ds ++ [true]) + 1 ∣ value xs →
        Reaches machine (trying xs (ds ++ [true]) m l1 l2 r2) (trying xs (increment (ds ++ [true])) (k + 1) l1 l2 r2))) := by
  obtain ⟨hyes, hno⟩ := reaches_increment (ds ++ [true]) xs (.blank :: (digits xs ++ .blank :: l1)) (.blank :: l2) r2 (k := k) hm
  refine ⟨hno, fun hlen hk => ?_⟩
  obtain ⟨es, hes⟩ := increment_append_true ds
  have hvalue := value_increment (ds ++ [true])
  have haligned := hyes hlen hk
  rw [← hvalue]
  rw [hes] at hlen haligned ⊢
  -- the window is made of as many digits as the divisor has
  have hle : (es ++ [true]).length ≤ xs.reverse.length := by
    simp only [List.length_append, List.length_singleton, List.length_reverse] at hlen ⊢
    omega
  obtain ⟨ws, low, hxs, hws⟩ : ∃ ws low, xs.reverse = ws ++ low ∧ ws.length = (es ++ [true]).length :=
    ⟨_, _, (List.take_append_drop (es ++ [true]).length xs.reverse).symm, by rw [List.length_take]; omega⟩
  have hnumber : windowValue ws [] * 2 ^ low.length + numeral low = value xs := by
    have hwindow : windowValue ws [] = numeral ws := by simp [windowValue]
    rw [hwindow, ← numeral_append, ← hxs, numeral_eq, List.reverse_reverse]
  have hlt : windowValue ws [] < 2 * numeral (es ++ [true]).reverse := by
    have htop := le_value_append_true es
    have hwindow := numeral_lt ws
    rw [hws, List.length_append, List.length_singleton, Nat.pow_succ] at hwindow
    rw [numeral_eq, List.reverse_reverse]
    simp only [windowValue, List.headD_nil, Bool.toNat_false, Nat.zero_mul, Nat.zero_add]
    omega
  obtain ⟨hdvd, hrest⟩ := reaches_division low ws [] (List.replicate k .blank) l2 r2
    (show digits xs ++ .blank :: l1 ≠ [] by simp) (by rw [List.length_reverse, hws]) hlt (by rw [hnumber, hodd])
  rw [hnumber, numeral_eq, List.reverse_reverse] at hdvd hrest
  have hdividing : Reaches machine (trying xs (ds ++ [true]) m l1 l2 r2)
      (dividing (es ++ [true]).reverse ws low [] (digits xs ++ .blank :: l1) (List.replicate k .blank) l2 r2) := by
    rw [hxs, digits_append ws low, List.append_assoc (digits ws)] at haligned
    exact haligned
  refine ⟨fun h => ?_, fun h => ?_⟩
  · obtain ⟨one, two, hreject⟩ := hdvd h
    exact ⟨one, two, hdividing.trans hreject⟩
  · obtain ⟨ys, hys, hcopy⟩ := hrest h
    have hlength : xs.length = ys.length := by
      rw [hys, ← List.length_append, ← hxs, List.length_reverse]
      rfl
    exact hdividing.trans (hcopy.trans (reaches_restored hlength l1 _ l2 r2))

end DispatchTree.Primality
