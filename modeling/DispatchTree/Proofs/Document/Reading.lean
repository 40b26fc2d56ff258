import DispatchTree.Proofs.Document.Tokens
import DispatchTree.Proofs.Number.Digits

/-!
# Reading tokens

The reader gives back the document whose tokens a text consists of, whatever blanks stand between them (`read_of_spaced`). What it has
read does not depend on the blanks (`outcome_blanks`), and a token takes it from one state to the next. Only a number does not end by
itself: it ends where the text does, or at the character behind it, which is never one that a number goes on with.
-/

namespace DispatchTree

mutual

/-- A document that can be read from its JSON text as it is: whole numbers have at most 64 bits, and there are no other numbers and no
dates. -/
def Document.Exact : Document → Prop
  | .integer n => -(1 <<< 63) ≤ n ∧ n ≤ Json.maxSignificand
  | .float _ => False
  | .date _ => False
  | .list items => Document.ItemsExact items
  | .table entries => Document.EntriesExact entries
  | _ => True

/-- All items are exact. -/
def Document.ItemsExact : List Document → Prop
  | [] => True
  | d :: ds => d.Exact ∧ Document.ItemsExact ds

/-- All values of entries are exact. -/
def Document.EntriesExact : List (String × Document) → Prop
  | [] => True
  | (_, d) :: es => d.Exact ∧ Document.EntriesExact es

end

/-- Items are exact if each of them is. -/
theorem Document.itemsExact_iff (items : List Document) : ItemsExact items ↔ ∀ d ∈ items, d.Exact := by
  induction items with
  | nil => simp [ItemsExact]
  | cons d ds ih => simp [ItemsExact, ih]

/-- Entries are exact if the value of each of them is. -/
theorem Document.entriesExact_iff (entries : List (String × Document)) : EntriesExact entries ↔ ∀ e ∈ entries, e.2.Exact := by
  induction entries with
  | nil => simp [EntriesExact]
  | cons e es ih => simp [EntriesExact, ih]

namespace Json

open Reader

/-- What comes of a text that is read from a state of the reader on. -/
def outcome (r : Reader) (text : List Char) : Draft × Bool := (text.foldl step r).finish

/-- The front of a text takes the reader to a state, and the rest is read from there on. -/
theorem outcome_append (r : Reader) (before text : List Char) : outcome r (before ++ text) = outcome (before.foldl step r) text := by
  rw [outcome, List.foldl_append, outcome]

/-! ## Blanks -/

/-- A reader that takes no notice of blanks. -/
def Rests (r : Reader) : Prop := ∀ c, isJsonBlank c = true → r.step c = r

/-- Blanks before a value are skipped. -/
theorem rests_reading (stack : List Frame) (place : Place) : Rests (.reading stack place .none) := by
  intro c hc
  show between stack place c = _
  unfold between
  rw [if_pos hc]

/-- Blanks behind a value are skipped, whether it is the whole document or part of a list or a table. -/
theorem rests_complete (stack : List Frame) (d : Draft) : Rests (complete stack d) := by
  unfold complete
  split
  · intro c hc
    rw [step, outside, if_pos hc]
  · exact rests_reading stack _

/-- Blanks do not change what is read. -/
theorem outcome_blanks {r : Reader} (hr : Rests r) {w : List Char} (hw : AllBlank w) (text : List Char) :
    outcome r (w ++ text) = outcome r text := by
  induction w with
  | nil => rfl
  | cons c w ih =>
    obtain ⟨hc, hw⟩ := List.forall_mem_cons.1 hw
    rw [List.cons_append, outcome, List.foldl_cons, hr c hc]
    exact ih hw

/-- A token that takes a reader from one state to another, at the front of a text. -/
theorem exists_of_token {r r' : Reader} {t text : List Char} {ts : List (List Char)} (hr : Rests r) (ht : t.foldl step r = r')
    (h : Spaced (t :: ts) text) : ∃ text', Spaced ts text' ∧ outcome r text = outcome r' text' := by
  cases h with
  | @cons w _ _ text blank rest => exact ⟨text, rest, by rw [outcome_blanks hr blank, outcome_append, ht]⟩

/-! ## Strings -/

/-- A hexadecimal digit is read as the number that it was written for. -/
theorem digitIn?_hexDigit : ∀ n < 16, digitIn? 16 (hexDigit n) = some n := by decide

/-- How a character stands in a string: with an escape of one letter, with one of four hexadecimal digits, or as it is. -/
inductive Escapes (c : Char) : List Char → Prop
  | letter {e : Char} (hne : e ≠ 'u') (hunit : escapeUnit? e = some c.toNat) : Escapes c ['\\', e]
  | digits {high low : Char} (hhigh : digitIn? 16 high = some (c.toNat / 16)) (hlow : digitIn? 16 low = some (c.toNat % 16)) :
      Escapes c ['\\', 'u', '0', '0', high, low]
  | plain (hquote : c ≠ '"') (hbackslash : c ≠ '\\') (hcontrol : ¬c.toNat < 0x20) : Escapes c [c]

/-- Every character is written in one of these three ways. -/
theorem escapes_escapeChar (c : Char) : Escapes c (escapeChar c) := by
  unfold escapeChar
  refine iteInduction (motive := Escapes c) (fun hc => .letter (by decide) (by rw [hc]; rfl)) fun hquote => ?_
  refine iteInduction (motive := Escapes c) (fun hc => .letter (by decide) (by rw [hc]; rfl)) fun hbackslash => ?_
  iterate 5 refine iteInduction (motive := Escapes c) (fun hc => .letter (by decide) (by rw [hc]; rfl)) fun _ => ?_
  refine iteInduction (motive := Escapes c) (fun hcontrol => ?_) fun hcontrol => .plain hquote hbackslash hcontrol
  exact .digits (digitIn?_hexDigit _ (by omega)) (digitIn?_hexDigit _ (by omega))

/-- A digit of an escape, with more digits to come. -/
theorem step_hex (stack : List Frame) (place : Place) (units : List Nat) (value left : Nat) {c : Char} {d : Nat}
    (h : digitIn? 16 c = some d) :
    step (.reading stack place (.hex units value (left + 2))) c = .reading stack place (.hex units (16 * value + d) (left + 1)) := by
  have hleft : ¬left + 2 ≤ 1 := by omega
  simp only [step, h, if_neg hleft]
  rfl

/-- The last digit of an escape makes it a code unit of the string. -/
theorem step_hex_last (stack : List Frame) (place : Place) (units : List Nat) (value : Nat) {c : Char} {d : Nat}
    (h : digitIn? 16 c = some d) :
    step (.reading stack place (.hex units value 1)) c = .reading stack place (.string ((16 * value + d) :: units)) := by
  simp only [step, h, Nat.le_refl, if_true]

/-- A character of a string is read as one code unit, whether it is escaped or not. -/
theorem foldl_escapeChar (stack : List Frame) (place : Place) (units : List Nat) (c : Char) :
    (escapeChar c).foldl step (.reading stack place (.string units)) = .reading stack place (.string (c.toNat :: units)) := by
  have hbackslash : step (.reading stack place (.string units)) '\\' = .reading stack place (.escape units) := rfl
  have hescapes := escapes_escapeChar c
  generalize escapeChar c = l at hescapes ⊢
  cases hescapes with
  | letter hne hunit =>
    rw [List.foldl_cons, List.foldl_cons, List.foldl_nil, hbackslash]
    simp only [step, if_neg hne, hunit]
  | digits hhigh hlow =>
    have hu : step (.reading stack place (.escape units)) 'u' = .reading stack place (.hex units 0 4) := rfl
    have hzero : digitIn? 16 '0' = some 0 := by decide
    have hvalue : 16 * (16 * (16 * (16 * 0 + 0) + 0) + c.toNat / 16) + c.toNat % 16 = c.toNat := by omega
    simp only [List.foldl_cons, List.foldl_nil]
    rw [hbackslash, hu, step_hex _ _ _ _ 2 hzero, step_hex _ _ _ _ 1 hzero, step_hex _ _ _ _ 0 hhigh, step_hex_last _ _ _ _ hlow, hvalue]
  | plain hquote hescape hcontrol =>
    rw [List.foldl_cons, List.foldl_nil]
    simp only [step, if_neg hquote, if_neg hescape, if_neg hcontrol]

/-- The characters of a string are read as their code units, the last one in front. -/
theorem foldl_escaped (stack : List Frame) (place : Place) (cs : List Char) (units : List Nat) :
    (cs.flatMap escapeChar).foldl step (.reading stack place (.string units)) =
      .reading stack place (.string ((cs.map Char.toNat).reverse ++ units)) := by
  induction cs generalizing units with
  | nil => rfl
  | cons c cs ih =>
    rw [List.flatMap_cons, List.foldl_append, foldl_escapeChar, ih, List.map_cons, List.reverse_cons, List.append_assoc]
    rfl

/-- Characters are never halves of a pair of code units. -/
theorem charsOfUnits?_map (cs : List Char) : charsOfUnits? (cs.map Char.toNat) = some cs := by
  induction cs with
  | nil => rfl
  | cons c cs ih =>
    have hvalid : c.toNat < 0xd800 ∨ 0xdfff < c.toNat ∧ c.toNat < 0x110000 := c.valid
    have hhigh : isHighSurrogate c.toNat = false := by
      simp [isHighSurrogate]
      omega
    have hlow : isLowSurrogate c.toNat = false := by
      simp [isLowSurrogate]
      omega
    rw [List.map_cons, charsOfUnits?.eq_def]
    simp only [hhigh, hlow, ih, Bool.false_eq_true, if_false, Option.map_some, Char.ofNat_toNat]

/-- The code units of a string in that order are the string. -/
theorem textOfUnits?_reverse (s : String) : textOfUnits? (s.toList.map Char.toNat).reverse = some s := by
  rw [textOfUnits?, List.reverse_reverse, charsOfUnits?_map, Option.map_some, String.ofList_toList]

/-- A string in its text: the escaped characters between quotation marks. -/
theorem toList_quote (s : String) : (quote s).toList = '"' :: (s.toList.flatMap escapeChar ++ ['"']) := by
  simp [quote]

/-- A text in quotes is read up to its end, once its first quote has been read. -/
theorem foldl_quoted (stack : List Frame) (place : Place) (s : String) :
    (s.toList.flatMap escapeChar ++ ['"']).foldl step (.reading stack place (.string [])) =
      completeString stack place (s.toList.map Char.toNat).reverse := by
  rw [List.foldl_append, foldl_escaped, List.append_nil]
  rfl

/-! ## Numbers -/

/-- A place where a value may begin. -/
def Place.IsOpen : Place → Prop
  | .value => True
  | .firstItem => True
  | _ => False

theorem Place.isOpen_value : Place.value.IsOpen := trivial

theorem Place.isOpen_firstItem : Place.firstItem.IsOpen := trivial

/-- A character that is neither a blank nor the end of a list begins a value. -/
theorem foldl_open (stack : List Frame) {place : Place} (hplace : place.IsOpen) {c : Char} (hblank : isJsonBlank c = false) (hc : c ≠ ']')
    (cs : List Char) : (c :: cs).foldl step (.reading stack place .none) = cs.foldl step (beginValue stack place c) := by
  rw [List.foldl_cons]
  cases place with
  | value => simp [step, between, hblank]
  | firstItem => simp [step, between, hblank, hc]
  | key entries first => exact hplace.elim
  | colon entries key => exact hplace.elim
  | after d => exact hplace.elim

/-- The characters that may stand behind a value. -/
def closers : List Char := [' ', '\t', '\n', '\r', ',', ']', '\x7d']

/-- The tokens that may stand behind a value. -/
def closingTokens : List (List Char) := [[','], [']'], ['\x7d']]

/-- A text that does not go on with a value: it is at its end, or another token or a blank follows. -/
def Closes (text : List Char) : Prop := ∀ c ∈ text.head?, c ∈ closers

/-- A number ends at a blank. -/
theorem mem_closers_of_blank {c : Char} (h : isJsonBlank c = true) : c ∈ closers := by
  simp only [isJsonBlank, Bool.or_eq_true, beq_iff_eq] at h
  rcases h with ((rfl | rfl) | rfl) | rfl <;> decide

/-- No number goes on with a closer. -/
theorem ends_of_mem_closers {c : Char} (h : c ∈ closers) : c.isDigit = false ∧ c ≠ '.' ∧ c ≠ 'e' ∧ c ≠ 'E' := by
  simp only [closers, List.mem_cons, List.not_mem_nil, or_false] at h
  rcases h with rfl | rfl | rfl | rfl | rfl | rfl | rfl <;> decide

/-- A number ends before the tokens that can follow a value. -/
theorem closes_of_spaced {ts : List (List Char)} {text : List Char} (h : Spaced ts text)
    (hts : ∀ t ∈ ts.head?, t ∈ closingTokens) : Closes text := by
  cases h with
  | nil blank =>
    intro c hc
    exact mem_closers_of_blank (blank c (List.mem_of_mem_head? hc))
  | @cons w t ts text blank rest =>
    cases w with
    | nil =>
      have ht := hts t rfl
      simp only [closingTokens, List.mem_cons, List.not_mem_nil, or_false] at ht
      intro c hc
      rcases ht with rfl | rfl | rfl
      · cases hc
        decide
      · cases hc
        decide
      · cases hc
        decide
    | cons b w =>
      intro c hc
      cases hc
      exact mem_closers_of_blank (blank b List.mem_cons_self)

/-- The digits of a whole number are collected, the last one in front. -/
theorem foldl_digits (stack : List Frame) (place : Place) (negative : Bool) {ds : List Char} (hds : ∀ c ∈ ds, c.isDigit = true)
    (whole : List Char) : ds.foldl step (.reading stack place (.number ⟨negative, whole, [], none⟩ .whole)) =
      .reading stack place (.number ⟨negative, ds.reverse ++ whole, [], none⟩ .whole) := by
  induction ds generalizing whole with
  | nil => rfl
  | cons c ds ih =>
    obtain ⟨hc, hds⟩ := List.forall_mem_cons.1 hds
    have hstep : step (.reading stack place (.number ⟨negative, whole, [], none⟩ .whole)) c =
        .reading stack place (.number ⟨negative, c :: whole, [], none⟩ .whole) := by
      simp [step, inNumber, hc, addDigit]
    rw [List.foldl_cons, hstep, ih hds, List.reverse_cons, List.append_assoc]
    rfl

/-- Behind a complete value the reader is outside of all values, in whatever list or table it is. -/
theorem step_complete (stack : List Frame) (d : Draft) (c : Char) : (complete stack d).step c = outside (complete stack d) c := by
  unfold complete
  split
  · rfl
  · rfl

/-- A number that may end does so where no digit, point or exponent follows. -/
theorem outcome_number (stack : List Frame) (place : Place) (t : NumberText) {phase : Phase} (hphase : phase = .zero ∨ phase = .whole)
    {text : List Char} (h : Closes text) :
    outcome (.reading stack place (.number t phase)) text = outcome (complete stack (inOrder t).value) text := by
  have hend : mayEnd phase = true := by
    rcases hphase with rfl | rfl
    · rfl
    · rfl
  cases text with
  | nil =>
    show finish _ = finish _
    cases stack with
    | nil => simp [finish, hend, complete]
    | cons frame stack =>
      simp [finish, hend, complete, fail]
  | cons c text =>
    obtain ⟨hdigit, hpoint, hlower, hupper⟩ := ends_of_mem_closers (h c rfl)
    have hmark : addMark t c phase = none := by
      rcases hphase with rfl | rfl
      · simp [addMark, hpoint, hlower, hupper]
      · simp [addMark, hpoint, hlower, hupper]
    have hstep : step (.reading stack place (.number t phase)) c = (complete stack (inOrder t).value).step c := by
      rw [step_complete]
      simp [step, inNumber, hdigit, hmark, hend]
    rw [outcome, outcome, List.foldl_cons, List.foldl_cons, hstep]

/-- Numbers are written with digits. -/
theorem isDigit_of_toDigits {n : Nat} {c : Char} (h : c ∈ Nat.toDigits 10 n) : c.isDigit = true :=
  Nat.isDigit_of_mem_toDigits (by decide) (by decide) h

/-- A digit other than zero begins a number. -/
theorem foldl_digit (stack : List Frame) {place : Place} (hplace : place.IsOpen) {c : Char} (hc : c.isDigit = true) (hzero : c ≠ '0')
    (cs : List Char) : (c :: cs).foldl step (.reading stack place .none) =
      cs.foldl step (.reading (pushed stack place) .value (.number ⟨false, [c], [], none⟩ .whole)) := by
  have hother : ∀ x : Char, x.isDigit = false → c ≠ x := by
    rintro x hx rfl
    rw [hc] at hx
    cases hx
  have hblank : isJsonBlank c = false := by
    simp [isJsonBlank, hother ' ' (by decide), hother '\t' (by decide), hother '\n' (by decide), hother '\r' (by decide)]
  rw [foldl_open stack hplace hblank (hother ']' (by decide))]
  simp [beginValue, hother '[' (by decide), hother '\x7b' (by decide), hother '"' (by decide), hother '-' (by decide), hzero, hc]

/-- A whole number in its text: a sign if it is negative, and the digits of its amount. -/
theorem toList_integerText (n : Int) :
    (integerText n).toList = if n < 0 then '-' :: Nat.toDigits 10 n.natAbs else Nat.toDigits 10 n.natAbs := by
  unfold integerText
  split
  · rw [String.toList_append, Nat.toList_repr]
    rfl
  · rw [Nat.toList_repr]

/-- The digits of a number, behind a sign if it has one, are read up to the last one. -/
theorem foldl_integer (stack : List Frame) {place : Place} (hplace : place.IsOpen) (n : Int) :
    ∃ phase, (phase = .zero ∨ phase = .whole) ∧ (integerText n).toList.foldl step (.reading stack place .none) =
      .reading (pushed stack place) .value (.number ⟨decide (n < 0), (Nat.toDigits 10 n.natAbs).reverse, [], none⟩ phase) := by
  have hall : ∀ c ∈ Nat.toDigits 10 n.natAbs, c.isDigit = true := fun c => isDigit_of_toDigits
  have hplain := isPlainDigits_toDigits n.natAbs
  rw [toList_integerText]
  obtain ⟨c, ds, hdigits⟩ := List.exists_cons_of_ne_nil (Nat.toDigits_ne_nil (b := 10) (n := n.natAbs))
  rw [hdigits] at hall hplain ⊢
  obtain ⟨hc, hds⟩ := List.forall_mem_cons.1 hall
  have hfirst : c = '0' ∧ ds = [] ∨ c ≠ '0' := by simpa [isPlainDigits] using hplain
  by_cases hn : n < 0
  · have hminus : beginValue stack place '-' = .reading (pushed stack place) .value (.number ⟨true, [], [], none⟩ .minus) := rfl
    rw [if_pos hn, decide_eq_true hn, foldl_open stack hplace rfl (by decide), hminus]
    rcases hfirst with ⟨rfl, rfl⟩ | hzero
    · exact ⟨.zero, .inl rfl, rfl⟩
    · have hstep : step (.reading (pushed stack place) .value (.number ⟨true, [], [], none⟩ .minus)) c =
          .reading (pushed stack place) .value (.number ⟨true, [c], [], none⟩ .whole) := by
        simp [step, inNumber, hc, addDigit, hzero]
      refine ⟨.whole, .inr rfl, ?_⟩
      rw [List.foldl_cons, hstep, foldl_digits _ _ _ hds, List.reverse_cons]
  · rw [if_neg hn, decide_eq_false hn]
    rcases hfirst with ⟨rfl, rfl⟩ | hzero
    · exact ⟨.zero, .inl rfl, foldl_open stack hplace rfl (by decide) []⟩
    · refine ⟨.whole, .inr rfl, ?_⟩
      rw [foldl_digit stack hplace hc hzero, foldl_digits _ _ _ hds, List.reverse_cons]

/-- A whole number of at most 64 bits is read as it is. -/
theorem value_integer {n : Int} (hlow : -(1 <<< 63) ≤ n) (hhigh : n ≤ maxSignificand) :
    NumberText.value ⟨decide (n < 0), Nat.toDigits 10 n.natAbs, [], none⟩ = .integer n := by
  have hmax : maxSignificand = 18446744073709551615 := by decide
  have hmin : (1 <<< 63 : Int) = 9223372036854775808 := by decide
  have hfits : n.natAbs ≤ maxSignificand := by omega
  simp only [NumberText.value, digitsValue_toDigits]
  by_cases hn : n < 0
  · have hne : n.natAbs ≠ 0 := by omega
    have hle : n.natAbs ≤ 9223372036854775808 := by omega
    have hneg : -(n.natAbs : Int) = n := by omega
    rw [if_pos (by simp [hfits]), if_neg (by simp [hn]), if_pos ⟨hne, hle⟩, hneg]
  · have hpos : (n.natAbs : Int) = n := by omega
    rw [if_pos (by simp [hfits]), if_pos (by simp [hn]), hpos]

/-! ## Values -/

theorem closing_nil : ∀ t ∈ ([] : List (List Char)).head?, t ∈ closingTokens := nofun

/-- What follows a value begins with a token that closes it. -/
theorem closing_cons {c : Char} (hc : [c] ∈ closingTokens) (rest : List (List Char)) : ∀ t ∈ ([c] :: rest).head?, t ∈ closingTokens := by
  intro t ht
  cases ht
  exact hc

/-- The token of a string is read as the string. -/
theorem foldl_string (stack : List Frame) {place : Place} (hplace : place.IsOpen) (s : String) :
    (quote s).toList.foldl step (.reading stack place .none) = complete (pushed stack place) (.string s) := by
  have hquote : beginValue stack place '"' = .reading (pushed stack place) .value (.string []) := rfl
  rw [toList_quote, foldl_open stack hplace rfl (by decide), hquote, foldl_quoted]
  simp only [completeString, textOfUnits?_reverse]

/-- The key of an entry and the colon behind it. -/
theorem exists_of_key (stack : List Frame) (entries : List (Option String × Draft)) (first : Bool) (k : String) {rest : List (List Char)}
    {text : List Char} (h : Spaced ((quote k).toList :: [':'] :: rest) text) :
    ∃ text', Spaced rest text' ∧ outcome (.reading stack (.key entries first) .none) text =
      outcome (.reading (.table entries (some k) :: stack) .value .none) text' := by
  have hquote : step (.reading stack (.key entries first) .none) '"' = .reading stack (.key entries first) (.string []) := rfl
  have hkey : (quote k).toList.foldl step (.reading stack (.key entries first) .none) = .reading stack (.colon entries (some k)) .none := by
    rw [toList_quote, List.foldl_cons, hquote, foldl_quoted]
    simp only [completeString, textOfUnits?_reverse]
  have hcolon : [':'].foldl step (.reading stack (.colon entries (some k)) .none) =
      .reading (.table entries (some k) :: stack) .value .none := rfl
  obtain ⟨text₁, h₁, heq₁⟩ := exists_of_token (rests_reading _ _) hkey h
  obtain ⟨text₂, h₂, heq₂⟩ := exists_of_token (rests_reading _ _) hcolon h₁
  exact ⟨text₂, h₂, heq₁.trans heq₂⟩

/-- A whole number ends at what follows it. -/
theorem exists_of_integer (stack : List Frame) {place : Place} (hplace : place.IsOpen) {rest : List (List Char)}
    (hrest : ∀ t ∈ rest.head?, t ∈ closingTokens) {n : Int} (hn : (Document.integer n).Exact) {text : List Char}
    (h : Spaced ((integerText n).toList :: rest) text) :
    ∃ text', Spaced rest text' ∧ outcome (.reading stack place .none) text = outcome (complete (pushed stack place) (.integer n)) text' := by
  cases h with
  | @cons w _ _ text blank after =>
    obtain ⟨phase, hphase, hdigits⟩ := foldl_integer stack hplace n
    refine ⟨text, after, ?_⟩
    rw [outcome_blanks (rests_reading _ _) blank, outcome_append, hdigits, outcome_number _ _ _ hphase (closes_of_spaced after hrest),
      inOrder, List.reverse_reverse]
    exact congrArg (fun d => outcome (complete _ d) text) (value_integer hn.1 hn.2)

mutual

/-- The tokens of a document are read as the document, if nothing follows with which a value goes on. -/
theorem exists_of_value (stack : List Frame) {place : Place} (hplace : place.IsOpen) {rest : List (List Char)}
    (hrest : ∀ t ∈ rest.head?, t ∈ closingTokens) : ∀ (d : Document) {text : List Char}, d.Exact → Spaced (tokens d ++ rest) text →
      ∃ text', Spaced rest text' ∧
        outcome (.reading stack place .none) text = outcome (complete (pushed stack place) d.toDraft) text'
  | .null, text, _, h => exists_of_token (rests_reading _ _) (foldl_open stack hplace rfl (by decide) ['u', 'l', 'l']) h
  | .boolean true, text, _, h => exists_of_token (rests_reading _ _) (foldl_open stack hplace rfl (by decide) ['r', 'u', 'e']) h
  | .boolean false, text, _, h => exists_of_token (rests_reading _ _) (foldl_open stack hplace rfl (by decide) ['a', 'l', 's', 'e']) h
  | .integer n, text, hd, h => exists_of_integer stack hplace hrest hd h
  | .float _, _, hd, _ => hd.elim
  | .date _, _, hd, _ => hd.elim
  | .string s, text, _, h => exists_of_token (rests_reading _ _) (foldl_string stack hplace s) h
  | .list items, text, hd, h => by
    have hopen : ['['].foldl step (.reading stack place .none) = .reading (pushed stack place) .firstItem .none :=
      foldl_open stack hplace rfl (by decide) []
    rw [tokens, List.cons_append, List.append_assoc] at h
    obtain ⟨text₁, h₁, heq₁⟩ := exists_of_token (rests_reading _ _) hopen h
    by_cases hne : items = []
    · subst hne
      have hclose : [']'].foldl step (.reading (pushed stack place) .firstItem .none) =
          complete (pushed stack place) (Document.list []).toDraft := rfl
      obtain ⟨text₂, h₂, heq₂⟩ := exists_of_token (rests_reading _ _) hclose h₁
      exact ⟨text₂, h₂, heq₁.trans heq₂⟩
    · obtain ⟨text₂, h₂, heq₂⟩ := exists_of_items (pushed stack place) Place.isOpen_firstItem [] rfl items hne hd h₁
      exact ⟨text₂, h₂, heq₁.trans heq₂⟩
  | .table entries, text, hd, h => by
    have hopen : ['\x7b'].foldl step (.reading stack place .none) = .reading (pushed stack place) (.key [] true) .none :=
      foldl_open stack hplace rfl (by decide) []
    rw [tokens, List.cons_append, List.append_assoc] at h
    obtain ⟨text₁, h₁, heq₁⟩ := exists_of_token (rests_reading _ _) hopen h
    by_cases hne : entries = []
    · subst hne
      have hclose : ['\x7d'].foldl step (.reading (pushed stack place) (.key [] true) .none) =
          complete (pushed stack place) (Document.table []).toDraft := rfl
      obtain ⟨text₂, h₂, heq₂⟩ := exists_of_token (rests_reading _ _) hclose h₁
      exact ⟨text₂, h₂, heq₁.trans heq₂⟩
    · obtain ⟨text₂, h₂, heq₂⟩ := exists_of_entries (pushed stack place) [] true entries hne hd h₁
      exact ⟨text₂, h₂, heq₁.trans heq₂⟩

/-- The tokens of items and of the end of their list. -/
theorem exists_of_items (stack : List Frame) {place : Place} (hplace : place.IsOpen) (done : List Draft) {under : List Frame}
    (hstack : pushed stack place = .list done :: under) {rest : List (List Char)} : ∀ (items : List Document) {text : List Char},
      items ≠ [] → Document.ItemsExact items → Spaced (itemTokens items ++ [']'] :: rest) text →
      ∃ text', Spaced rest text' ∧ outcome (.reading stack place .none) text =
        outcome (complete under (.list (done.reverse ++ Document.itemsToDraft items) true)) text'
  | [], _, hne, _, _ => (hne rfl).elim
  | [d], text, _, hds, h => by
    rw [itemTokens] at h
    obtain ⟨text₁, h₁, heq₁⟩ := exists_of_value stack hplace (closing_cons (by decide) rest) d hds.1 h
    rw [hstack] at heq₁
    have hclose : [']'].foldl step (complete (.list done :: under) d.toDraft) =
        complete under (.list (done.reverse ++ Document.itemsToDraft [d]) true) := by
      rw [Document.itemsToDraft, Document.itemsToDraft, ← List.reverse_cons]
      rfl
    obtain ⟨text₂, h₂, heq₂⟩ := exists_of_token (rests_complete _ _) hclose h₁
    exact ⟨text₂, h₂, heq₁.trans heq₂⟩
  | d :: e :: ds, text, _, hds, h => by
    rw [itemTokens_cons_cons, List.append_assoc] at h
    obtain ⟨text₁, h₁, heq₁⟩ := exists_of_value stack hplace (closing_cons (by decide) _) d hds.1 h
    rw [hstack] at heq₁
    -- the frame has the items that were read, the last one first, and behind the comma another one begins
    have hcomma : [','].foldl step (complete (.list done :: under) d.toDraft) =
        .reading (.list (d.toDraft :: done) :: under) .value .none := rfl
    obtain ⟨text₂, h₂, heq₂⟩ := exists_of_token (rests_complete _ _) hcomma h₁
    obtain ⟨text₃, h₃, heq₃⟩ :=
      exists_of_items (.list (d.toDraft :: done) :: under) Place.isOpen_value _ rfl (e :: ds) (List.cons_ne_nil _ _) hds.2 h₂
    rw [List.reverse_cons, List.append_assoc] at heq₃
    exact ⟨text₃, h₃, (heq₁.trans heq₂).trans heq₃⟩

/-- The tokens of entries and of the end of their table. -/
theorem exists_of_entries (stack : List Frame) (done : List (Option String × Draft)) (first : Bool) {rest : List (List Char)} :
    ∀ (entries : List (String × Document)) {text : List Char},
      entries ≠ [] → Document.EntriesExact entries → Spaced (entryTokens entries ++ ['\x7d'] :: rest) text →
      ∃ text', Spaced rest text' ∧ outcome (.reading stack (.key done first) .none) text =
        outcome (complete stack (.table (done.reverse ++ Document.entriesToDraft entries) true)) text'
  | [], _, hne, _, _ => (hne rfl).elim
  | [(k, d)], text, _, hes, h => by
    rw [entryTokens] at h
    obtain ⟨text₁, h₁, heq₁⟩ := exists_of_key stack done first k h
    obtain ⟨text₂, h₂, heq₂⟩ :=
      exists_of_value (.table done (some k) :: stack) Place.isOpen_value (closing_cons (by decide) rest) d hes.1 h₁
    have hclose : ['\x7d'].foldl step (complete (.table done (some k) :: stack) d.toDraft) =
        complete stack (.table (done.reverse ++ Document.entriesToDraft [(k, d)]) true) := by
      rw [Document.entriesToDraft, Document.entriesToDraft, ← List.reverse_cons]
      rfl
    obtain ⟨text₃, h₃, heq₃⟩ := exists_of_token (rests_complete _ _) hclose h₂
    exact ⟨text₃, h₃, (heq₁.trans heq₂).trans heq₃⟩
  | (k, d) :: e :: es, text, _, hes, h => by
    rw [entryTokens_cons_cons, List.cons_append, List.cons_append, List.append_assoc] at h
    obtain ⟨text₁, h₁, heq₁⟩ := exists_of_key stack done first k h
    obtain ⟨text₂, h₂, heq₂⟩ :=
      exists_of_value (.table done (some k) :: stack) Place.isOpen_value (closing_cons (by decide) _) d hes.1 h₁
    have hcomma : [','].foldl step (complete (.table done (some k) :: stack) d.toDraft) =
        .reading stack (.key ((some k, d.toDraft) :: done) false) .none := rfl
    obtain ⟨text₃, h₃, heq₃⟩ := exists_of_token (rests_complete _ _) hcomma h₂
    obtain ⟨text₄, h₄, heq₄⟩ := exists_of_entries stack _ false (e :: es) (List.cons_ne_nil _ _) hes.2 h₃
    rw [List.reverse_cons, List.append_assoc] at heq₄
    exact ⟨text₄, h₄, ((heq₁.trans heq₂).trans heq₃).trans heq₄⟩

end

/-- A text that consists of the tokens of a document is read as the document. -/
theorem read_of_spaced {d : Document} (hd : d.Exact) {text : String} (h : Spaced (tokens d) text.toList) :
    read text = (d.toDraft, true) := by
  rw [← List.append_nil (tokens d)] at h
  obtain ⟨text', h', heq⟩ := exists_of_value [] Place.isOpen_value closing_nil d hd h
  cases h' with
  | nil blank =>
    rw [← List.append_nil text', outcome_blanks (rests_complete _ _) blank] at heq
    exact heq

end Json

/-! ## Complete values -/

mutual

/-- How many lists and tables lie within each other. -/
def Document.depth : Document → Nat
  | .list items => Document.itemsDepth items + 1
  | .table entries => Document.entriesDepth entries + 1
  | _ => 0

/-- The greatest depth of an item. -/
def Document.itemsDepth : List Document → Nat
  | [] => 0
  | d :: ds => max d.depth (Document.itemsDepth ds)

/-- The greatest depth of a value. -/
def Document.entriesDepth : List (String × Document) → Nat
  | [] => 0
  | (_, d) :: es => max d.depth (Document.entriesDepth es)

end

/-- A list is as deep as its deepest item. -/
theorem Document.itemsDepth_le {items : List Document} {depth : Nat} (h : ∀ d ∈ items, d.depth ≤ depth) : itemsDepth items ≤ depth := by
  induction items with
  | nil => exact Nat.zero_le depth
  | cons d ds ih => exact Nat.max_le.2 ⟨h d List.mem_cons_self, ih fun d' hd' => h d' (List.mem_cons_of_mem d hd')⟩

namespace Draft

mutual

/-- The draft of a document is complete. -/
theorem complete?_toDraft : ∀ (d : Document) {depth : Nat}, d.Exact → d.depth ≤ depth → complete? depth d.toDraft = some d
  | .null, _, _, _ => by rw [Document.toDraft, complete?]
  | .boolean b, _, _, _ => by rw [Document.toDraft, complete?]
  | .integer n, _, _, _ => by rw [Document.toDraft, complete?]
  | .float _, _, hd, _ => hd.elim
  | .date _, _, hd, _ => hd.elim
  | .string s, _, _, _ => by rw [Document.toDraft, complete?]
  | .list items, 0, _, hdepth => absurd hdepth (Nat.not_succ_le_zero _)
  | .list items, depth + 1, hd, hdepth => by
    rw [Document.toDraft, complete?, if_pos rfl, completeItems?_toDraft items hd (Nat.le_of_succ_le_succ hdepth), Option.map_some]
  | .table entries, 0, _, hdepth => absurd hdepth (Nat.not_succ_le_zero _)
  | .table entries, depth + 1, hd, hdepth => by
    rw [Document.toDraft, complete?, if_pos rfl, completeEntries?_toDraft entries hd (Nat.le_of_succ_le_succ hdepth), Option.map_some]

/-- Exact items become what they were. -/
theorem completeItems?_toDraft : ∀ (items : List Document) {depth : Nat}, Document.ItemsExact items →
    Document.itemsDepth items ≤ depth → completeItems? depth (Document.itemsToDraft items) = some items
  | [], _, _, _ => by rw [Document.itemsToDraft, completeItems?]
  | d :: ds, depth, hds, hdepth => by
    obtain ⟨hfirst, hrest⟩ := Nat.max_le.1 hdepth
    rw [Document.itemsToDraft, completeItems?, complete?_toDraft d hds.1 hfirst, completeItems?_toDraft ds hds.2 hrest]
    rfl

/-- Exact entries become what they were. -/
theorem completeEntries?_toDraft : ∀ (entries : List (String × Document)) {depth : Nat}, Document.EntriesExact entries →
    Document.entriesDepth entries ≤ depth → completeEntries? depth (Document.entriesToDraft entries) = some entries
  | [], _, _, _ => by rw [Document.entriesToDraft, completeEntries?]
  | (k, d) :: es, depth, hes, hdepth => by
    obtain ⟨hfirst, hrest⟩ := Nat.max_le.1 hdepth
    rw [Document.entriesToDraft, completeEntries?, complete?_toDraft d hes.1 hfirst, completeEntries?_toDraft es hes.2 hrest]
    rfl

end

end Draft

/-- A text that consists of the tokens of a document has the document as its value, if the document is not too deep. -/
theorem Json.parse?_of_spaced {d : Document} (hd : d.Exact) (hdepth : d.depth ≤ maxDepth) {text : String}
    (h : Spaced (tokens d) text.toList) : parse? text = some d := by
  rw [parse?, read_of_spaced hd h]
  exact Draft.complete?_toDraft d hd hdepth

end DispatchTree
