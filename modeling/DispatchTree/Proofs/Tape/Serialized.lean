import Mathlib.Data.List.Permutation
import DispatchTree.Proofs.Document.Reading
import DispatchTree.Tape.Serialized

/-!
# Actions written and read

An action is read back from its text, from any text with other blanks between the tokens, and from any text in which the entries of
a table stand in another order (`action_reads_back`). What a text denotes depends on its tokens only (`read_of_spaced`), and a
record is read entry by entry, each into its own field, so that their order is of no account.
-/

namespace DispatchTree

namespace Document

mutual

/-- A document whose tables, at any depth, have the same entries in some order. -/
inductive Reordered : Document → Document → Prop
  | refl (d : Document) : Reordered d d
  | list {items items' : List Document} (h : ItemsReordered items items') : Reordered (.list items) (.list items')
  | table {entries moved entries' : List (String × Document)} (order : entries.Perm moved) (h : EntriesReordered moved entries') :
      Reordered (.table entries) (.table entries')

/-- Items each of which is reordered. -/
inductive ItemsReordered : List Document → List Document → Prop
  | nil : ItemsReordered [] []
  | cons {d d' : Document} {ds ds' : List Document} (h : Reordered d d') (rest : ItemsReordered ds ds') :
      ItemsReordered (d :: ds) (d' :: ds')

/-- Entries each of which is reordered. -/
inductive EntriesReordered : List (String × Document) → List (String × Document) → Prop
  | nil : EntriesReordered [] []
  | cons {k : String} {d d' : Document} {es es' : List (String × Document)} (h : Reordered d d') (rest : EntriesReordered es es') :
      EntriesReordered ((k, d) :: es) ((k, d') :: es')

end

mutual

/-- Order has nothing to do with whether a document can be read as it is. -/
theorem Reordered.exact {d d' : Document} : Reordered d d' → d.Exact → d'.Exact
  | .refl _, hd => hd
  | .list h, hd => h.exact hd
  | .table order h, hd =>
    h.exact ((entriesExact_iff _).2 fun e he => (entriesExact_iff _).1 hd e (order.mem_iff.2 he))

/-- Items stay exact when what is inside them is reordered. -/
theorem ItemsReordered.exact {ds ds' : List Document} : ItemsReordered ds ds' → ItemsExact ds → ItemsExact ds'
  | .nil, h => h
  | .cons first rest, h => ⟨first.exact h.1, rest.exact h.2⟩

/-- Entries stay exact when what is inside them is reordered. -/
theorem EntriesReordered.exact {es es' : List (String × Document)} : EntriesReordered es es' → EntriesExact es → EntriesExact es'
  | .nil, h => h
  | .cons first rest, h => ⟨first.exact h.1, rest.exact h.2⟩

end

/-- A table with two entries has them in one of two orders. -/
theorem Reordered.two {k l : String} {x y d : Document} (h : Reordered (.table [(k, x), (l, y)]) d) :
    ∃ x' y', Reordered x x' ∧ Reordered y y' ∧ (d = .table [(k, x'), (l, y')] ∨ d = .table [(l, y'), (k, x')]) := by
  cases h with
  | refl => exact ⟨x, y, .refl x, .refl y, .inl rfl⟩
  | table order h =>
    rcases List.pair_perm.1 order with rfl | rfl
    · obtain _ | ⟨hx, _ | ⟨hy, _ | _⟩⟩ := h
      exact ⟨_, _, hx, hy, .inl rfl⟩
    · obtain _ | ⟨hy, _ | ⟨hx, _ | _⟩⟩ := h
      exact ⟨_, _, hx, hy, .inr rfl⟩

/-- The items of a list stay in their order, whatever is reordered inside them. -/
theorem Reordered.list_two {x y d : Document} (h : Reordered (.list [x, y]) d) :
    ∃ x' y', Reordered x x' ∧ Reordered y y' ∧ d = .list [x', y'] := by
  cases h with
  | refl => exact ⟨x, y, .refl x, .refl y, rfl⟩
  | list h =>
    obtain _ | ⟨hx, _ | ⟨hy, _ | _⟩⟩ := h
    exact ⟨_, _, hx, hy, rfl⟩

/-- A text has nothing to reorder. -/
theorem Reordered.string {s : String} {d : Document} (h : Reordered (.string s) d) : d = .string s := by
  cases h
  rfl

end Document

/-! ## Records -/

/-- A record with entries for two of its fields is read one entry after the other. -/
theorem RecordShape.read_two {σ : Type} {shape : RecordShape σ} (first second : String) {f g : Field σ}
    (hf : shape.find? first = some f) (hg : shape.find? second = some g) (hne : second ≠ first)
    (hmissing : shape.missing? [second, first] = none) {x y : Draft} {v v₁ v₂ : σ} (hx : f.read x v = .ok v₁)
    (hy : g.read y v₁ = .ok v₂) (format : Format) :
    shape.read format v (.table [(some first, x), (some second, y)] true) = .ok v₂ := by
  have hfirst : shape.readEntry [] v (some first, x) = .ok ([first], v₁) := by
    simp [readEntry, hf, hx, Except.map]
  have hsecond : shape.readEntry [first] v₁ (some second, y) = .ok ([second, first], v₂) := by
    simp [readEntry, hg, hy, hne, Except.map]
  simp only [read, readEntries, hfirst, hsecond, bind, Except.bind, Draft.whenClosed, if_true, hmissing]

/-- A symbol is read back from its name. -/
theorem Symbol.read_name (s : Symbol) : Symbol.read (.string s.name) = .ok s := by
  cases s <;> rfl

/-- A move is read back from its name. -/
theorem Move.read_name (m : Move) : Move.read (.string m.name) = .ok m := by
  cases m <;> rfl

/-- A track operation is read from its two entries in either order. -/
theorem TrackOp.read_of_reordered {op : TrackOp} {d : Document} (h : op.toDocument.Reordered d) :
    TrackOp.shape.read .json .idle d.toDraft = .ok op := by
  obtain ⟨w, m, hw, hm, hd⟩ := h.two
  cases hw.string
  cases hm.string
  rcases hd with rfl | rfl
  · exact RecordShape.read_two "write" "shift" rfl rfl (by decide) rfl
      (congrArg (Except.map fun s => { TrackOp.idle with write := s }) op.write.read_name)
      (congrArg (Except.map fun m => { op with shift := m }) op.shift.read_name) .json
  · exact RecordShape.read_two "shift" "write" rfl rfl (by decide) rfl
      (congrArg (Except.map fun m => { TrackOp.idle with shift := m }) op.shift.read_name)
      (congrArg (Except.map fun s => { op with write := s }) op.write.read_name) .json

/-- The two operations of an action are read back, whatever the order of their fields. -/
theorem TrackOp.readTwo_of_reordered {one two : TrackOp} {d d' : Document} (h : one.toDocument.Reordered d)
    (h' : two.toDocument.Reordered d') :
    Draft.readTwo (TrackOp.shape.read .json .idle) (Document.list [d, d']).toDraft = .ok (one, two) := by
  simp only [Document.toDraft, Document.itemsToDraft, Draft.readTwo, TrackOp.read_of_reordered h, TrackOp.read_of_reordered h', bind,
    Except.bind, List.isEmpty_nil, if_true, Draft.whenClosed]

/-- An action is read from its two entries in either order. -/
theorem Action.read_of_reordered {a : Action} {d : Document} (h : a.toDocument.Reordered d) :
    Action.shape.read .json .invalid d.toDraft = .ok a := by
  obtain ⟨next, tracks, hnext, htracks, hd⟩ := h.two
  cases hnext.string
  obtain ⟨one, two, hone, htwo, rfl⟩ := htracks.list_two
  have htwo := TrackOp.readTwo_of_reordered hone htwo
  rcases hd with rfl | rfl
  · refine RecordShape.read_two "next" "tracks" rfl rfl (by decide) rfl rfl (?_ : Except.map _ (Draft.readTwo _ _) = _) .json
    rw [htwo]
    rfl
  · refine RecordShape.read_two "tracks" "next" rfl rfl (by decide) rfl
      (?_ : Except.map _ (Draft.readTwo _ _) = .ok { Action.invalid with first := a.first, second := a.second }) rfl .json
    rw [htwo]
    rfl

/-! ## Texts -/

/-- The document of an action has no numbers. -/
theorem Action.exact_toDocument (a : Action) : a.toDocument.Exact := by
  simp [Action.toDocument, TrackOp.toDocument, Symbol.toDocument, Document.Exact, Document.EntriesExact, Document.ItemsExact]

/-- A text that consists of the tokens of an action, with the entries of its tables in some order, is read as the action. -/
theorem Action.ofJson_of_spaced {a : Action} {d : Document} (hd : a.toDocument.Reordered d) {text : String}
    (h : Json.Spaced (Json.tokens d) text.toList) : Action.ofJson text = .ok a := by
  rw [Action.ofJson, Json.read_of_spaced (hd.exact a.exact_toDocument) h]
  simp only [Action.read_of_reordered hd, bind, Except.bind, Draft.whenClosed, if_true]

/-- An action is read back from its text. -/
theorem Action.ofJson_toJson (a : Action) : Action.ofJson a.toJson = .ok a :=
  Action.ofJson_of_spaced (.refl _) (Json.spaced_compact _)

/-- An action is read back from its text, and from every text that differs from it in the order of entries or in blanks between tokens
only. Different actions have different texts. -/
theorem action_reads_back (a : Action) :
    Action.ofJson a.toJson = .ok a ∧
      (∀ (d : Document) (text : String), a.toDocument.Reordered d → Json.Spaced (Json.tokens d) text.toList →
        Action.ofJson text = .ok a) ∧
      ∀ b : Action, b ≠ a → b.toJson ≠ a.toJson := by
  refine ⟨a.ofJson_toJson, fun d text hd h => Action.ofJson_of_spaced hd h, fun b hne heq => hne ?_⟩
  have hb := b.ofJson_toJson
  rw [heq, a.ofJson_toJson] at hb
  exact (Except.ok.inj hb).symm

/-- An action whose next state needs escapes, read from a text on several lines with the entries of one table exchanged. -/
theorem action_reads_back_exchanged :
    let a : Action := ⟨"a \"b\"\n\x01", ⟨.one, .left⟩, ⟨.blank, .stay⟩⟩
    let exchanged : Document := .table [("tracks", .list [a.first.toDocument, a.second.toDocument]), ("next", .string a.next)]
    a.toDocument.Reordered exchanged ∧ Json.Spaced (Json.tokens exchanged) (Json.pretty exchanged).toList ∧
      a.toJson ≠ Json.pretty exchanged ∧ Action.ofJson (Json.pretty exchanged) = .ok a := by
  intro a exchanged
  have hd : a.toDocument.Reordered exchanged := .table (.swap _ _ _) (.cons (.refl _) (.cons (.refl _) .nil))
  have h : Json.Spaced (Json.tokens exchanged) (Json.pretty exchanged).toList := Json.spaced_prettyAt 0 exchanged
  exact ⟨hd, h, by decide, (action_reads_back a).2.1 exchanged _ hd h⟩

end DispatchTree
