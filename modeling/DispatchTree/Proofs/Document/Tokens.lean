import DispatchTree.Document.Json.Reader
import DispatchTree.Document.Json.Writer
import DispatchTree.Proofs.Screen.Drawing

/-!
# Tokens of JSON texts

A JSON text is a list of tokens with blanks before, between and behind them, and only the tokens count. The text of a document on one
line is the tokens of the document without any blanks (`spaced_compact`), and the text with one member a line has blanks where a line
begins and behind the colons (`spaced_prettyAt`).
-/

namespace DispatchTree.Json

mutual

/-- The tokens of a document in the order of its text. -/
def tokens : Document → List (List Char)
  | .list items => ['['] :: (itemTokens items ++ [[']']])
  | .table entries => ['\x7b'] :: (entryTokens entries ++ [['\x7d']])
  | d => [(scalarText d).toList]

/-- The tokens of items divided by commas. -/
def itemTokens : List Document → List (List Char)
  | [] => []
  | [d] => tokens d
  | d :: ds => tokens d ++ [','] :: itemTokens ds

/-- The tokens of entries divided by commas. -/
def entryTokens : List (String × Document) → List (List Char)
  | [] => []
  | [(k, d)] => (quote k).toList :: [':'] :: tokens d
  | (k, d) :: es => (quote k).toList :: [':'] :: (tokens d ++ [','] :: entryTokens es)

end

/-- Nothing but blanks. -/
def AllBlank (w : List Char) : Prop := ∀ c ∈ w, isJsonBlank c = true

/-- A text that consists of tokens and of blanks around them. -/
inductive Spaced : List (List Char) → List Char → Prop
  | nil {w : List Char} (blank : AllBlank w) : Spaced [] w
  | cons {w t : List Char} {ts : List (List Char)} {text : List Char} (blank : AllBlank w) (rest : Spaced ts text) :
      Spaced (t :: ts) (w ++ (t ++ text))

theorem AllBlank.nil : AllBlank [] := nofun

theorem AllBlank.append {w w' : List Char} (h : AllBlank w) (h' : AllBlank w') : AllBlank (w ++ w') := by
  intro c hc
  rcases List.mem_append.1 hc with hc | hc
  · exact h c hc
  · exact h' c hc

namespace Spaced

variable {ts ts' : List (List Char)} {text text' w : List Char}

/-- Blanks may stand in front. -/
theorem blank_append (hw : AllBlank w) (h : Spaced ts text) : Spaced ts (w ++ text) := by
  cases h with
  | nil blank => exact .nil (hw.append blank)
  | cons blank rest =>
    rw [← List.append_assoc]
    exact .cons (hw.append blank) rest

/-- The tokens of two texts are the tokens of both together. -/
theorem append (h : Spaced ts text) (h' : Spaced ts' text') : Spaced (ts ++ ts') (text ++ text') := by
  induction h with
  | nil blank => exact h'.blank_append blank
  | cons blank rest ih =>
    rw [List.append_assoc, List.append_assoc]
    exact .cons blank ih

/-- A token without blanks around it. -/
theorem token (t : List Char) : Spaced [t] t := by
  simpa using Spaced.cons (t := t) AllBlank.nil (.nil .nil)

/-- A token may stand in front. -/
theorem token_append (t : List Char) (h : Spaced ts text) : Spaced (t :: ts) (t ++ text) := (token t).append h

end Spaced

/-! ## On one line -/

/-- Between two items there is a comma. -/
theorem itemTokens_cons_cons (d e : Document) (ds : List Document) :
    itemTokens (d :: e :: ds) = tokens d ++ [','] :: itemTokens (e :: ds) := by
  rw [itemTokens]
  intro h
  cases h

/-- A key, a colon and a value, and between two entries a comma. -/
theorem entryTokens_cons_cons (k : String) (d : Document) (e : String × Document) (es : List (String × Document)) :
    entryTokens ((k, d) :: e :: es) = (quote k).toList :: [':'] :: (tokens d ++ [','] :: entryTokens (e :: es)) := by
  rw [entryTokens]
  intro h
  cases h

/-- Items on one line, with a comma after each but the last. -/
theorem compactItems_cons_cons (d e : Document) (ds : List Document) :
    compactItems (d :: e :: ds) = compact d ++ "," ++ compactItems (e :: ds) := by
  rw [compactItems]
  intro h
  cases h

/-- Entries on one line, with a comma after each but the last. -/
theorem compactEntries_cons_cons (k : String) (d : Document) (e : String × Document) (es : List (String × Document)) :
    compactEntries ((k, d) :: e :: es) = quote k ++ ":" ++ compact d ++ "," ++ compactEntries (e :: es) := by
  rw [compactEntries]
  intro h
  cases h

mutual

/-- A document on one line is its tokens. -/
theorem spaced_compact : ∀ d : Document, Spaced (tokens d) (compact d).toList
  | .list items => by
    rw [compact, tokens, String.toList_append, String.toList_append, List.append_assoc]
    exact .token_append _ ((spaced_compactItems items).append (.token _))
  | .table entries => by
    rw [compact, tokens, String.toList_append, String.toList_append, List.append_assoc]
    exact .token_append _ ((spaced_compactEntries entries).append (.token _))
  | .null => .token _
  | .boolean _ => .token _
  | .integer _ => .token _
  | .float _ => .token _
  | .string _ => .token _
  | .date _ => .token _

/-- Items on one line are their tokens. -/
theorem spaced_compactItems : ∀ items : List Document, Spaced (itemTokens items) (compactItems items).toList
  | [] => .nil .nil
  | [d] => by
    rw [compactItems, itemTokens]
    exact spaced_compact d
  | d :: e :: ds => by
    rw [compactItems_cons_cons, itemTokens_cons_cons, String.toList_append, String.toList_append, List.append_assoc]
    exact (spaced_compact d).append (.token_append _ (spaced_compactItems (e :: ds)))

/-- Entries on one line are their tokens. -/
theorem spaced_compactEntries : ∀ entries : List (String × Document), Spaced (entryTokens entries) (compactEntries entries).toList
  | [] => .nil .nil
  | [(k, d)] => by
    rw [compactEntries, entryTokens, String.toList_append, String.toList_append, List.append_assoc]
    exact .token_append _ (.token_append _ (spaced_compact d))
  | (k, d) :: e :: es => by
    rw [compactEntries_cons_cons, entryTokens_cons_cons]
    simp only [String.toList_append, List.append_assoc]
    exact .token_append _ (.token_append _ ((spaced_compact d).append (.token_append _ (spaced_compactEntries (e :: es)))))

end

/-! ## One member a line -/

/-- A new line and its indentation are blank. -/
theorem allBlank_newLine (level : Nat) : AllBlank (newLine level).toList := by
  intro c hc
  rw [newLine, toList_pushn, List.mem_append] at hc
  rcases hc with hc | hc
  · rw [List.mem_singleton.1 hc]
    rfl
  · rw [List.eq_of_mem_replicate hc]
    rfl

theorem allBlank_space : AllBlank [' '] := by
  intro c hc
  rw [List.mem_singleton.1 hc]
  rfl

/-- Items with a line for each of them, and a comma after each but the last. -/
theorem prettyItems_cons_cons (level : Nat) (d e : Document) (ds : List Document) :
    prettyItems level (d :: e :: ds) = newLine level ++ prettyAt level d ++ "," ++ prettyItems level (e :: ds) := by
  rw [prettyItems]
  intro h
  cases h

/-- Entries with a line for each of them, and a comma after each but the last. -/
theorem prettyEntries_cons_cons (level : Nat) (k : String) (d : Document) (e : String × Document) (es : List (String × Document)) :
    prettyEntries level ((k, d) :: e :: es) =
      newLine level ++ quote k ++ ": " ++ prettyAt level d ++ "," ++ prettyEntries level (e :: es) := by
  rw [prettyEntries]
  intro h
  cases h

/-- The colon of an entry has a blank behind it. -/
theorem spaced_colon {ts : List (List Char)} {text : List Char} (h : Spaced ts text) :
    Spaced ([':'] :: ts) (": ".toList ++ text) :=
  .token_append [':'] (h.blank_append allBlank_space)

mutual

/-- A document with one member a line is its tokens with blanks between them. -/
theorem spaced_prettyAt : ∀ (level : Nat) (d : Document), Spaced (tokens d) (prettyAt level d).toList
  | _, .list [] => by
    rw [prettyAt, tokens, itemTokens]
    exact .token_append ['['] (.token [']'])
  | level, .list (d :: ds) => by
    rw [prettyAt, tokens, String.toList_append, String.toList_append, String.toList_append, List.append_assoc, List.append_assoc]
    exact .token_append _
      ((spaced_prettyItems (level + 1) (d :: ds)).append ((Spaced.token _).blank_append (allBlank_newLine level)))
  | _, .table [] => by
    rw [prettyAt, tokens, entryTokens]
    exact .token_append ['\x7b'] (.token ['\x7d'])
  | level, .table (e :: es) => by
    rw [prettyAt, tokens, String.toList_append, String.toList_append, String.toList_append, List.append_assoc, List.append_assoc]
    exact .token_append _
      ((spaced_prettyEntries (level + 1) (e :: es)).append ((Spaced.token _).blank_append (allBlank_newLine level)))
  | _, .null => .token _
  | _, .boolean _ => .token _
  | _, .integer _ => .token _
  | _, .float _ => .token _
  | _, .string _ => .token _
  | _, .date _ => .token _

/-- Items line by line are their tokens with blanks between them. -/
theorem spaced_prettyItems : ∀ (level : Nat) (items : List Document), Spaced (itemTokens items) (prettyItems level items).toList
  | _, [] => .nil .nil
  | level, [d] => by
    rw [prettyItems, itemTokens, String.toList_append]
    exact (spaced_prettyAt level d).blank_append (allBlank_newLine level)
  | level, d :: e :: ds => by
    rw [prettyItems_cons_cons, itemTokens_cons_cons]
    simp only [String.toList_append, List.append_assoc]
    have hrest := Spaced.token_append [','] (spaced_prettyItems level (e :: ds))
    exact ((spaced_prettyAt level d).append hrest).blank_append (allBlank_newLine level)

/-- Entries line by line are their tokens with blanks between them. -/
theorem spaced_prettyEntries : ∀ (level : Nat) (entries : List (String × Document)),
    Spaced (entryTokens entries) (prettyEntries level entries).toList
  | _, [] => .nil .nil
  | level, [(k, d)] => by
    rw [prettyEntries, entryTokens]
    simp only [String.toList_append, List.append_assoc]
    exact (Spaced.token_append _ (spaced_colon (spaced_prettyAt level d))).blank_append (allBlank_newLine level)
  | level, (k, d) :: e :: es => by
    rw [prettyEntries_cons_cons, entryTokens_cons_cons]
    simp only [String.toList_append, List.append_assoc]
    have hrest := Spaced.token_append [','] (spaced_prettyEntries level (e :: es))
    exact (Spaced.token_append _ (spaced_colon ((spaced_prettyAt level d).append hrest))).blank_append (allBlank_newLine level)

end

end DispatchTree.Json
