import DispatchTree.Table

/-!
# Catalogs of actions

A catalog lists actions in the order in which they are first seen. The number of an action is its place in the list, counted from
zero, in a word of 32 bits: up to `capacity` actions have numbers of their own, and from there on numbers are given out again. The
number of an action, written in hexadecimal, is its tag.
-/

namespace DispatchTree

/-- The tag of a number: its hexadecimal digits in lower case. -/
def tag (id : Nat) : String := String.ofList (Nat.toDigits 16 id)

/-- Numbered actions. -/
structure Catalog where
  /-- The actions by place. -/
  actions : Array Action
  /-- The place of every action. -/
  places : Std.ExtTreeMap Action Nat
  /-- The two views agree. -/
  agree : ∀ (a : Action) (i : Nat), places[a]? = some i ↔ actions[i]? = some a

namespace Catalog

/-- How many numbers there are: a number is a word of 32 bits. -/
def capacity : Nat := 1 <<< 32

/-- The number of a place: as much of it as a word holds. -/
def number (place : Nat) : Nat := place % capacity

/-- The catalog without actions. -/
def empty : Catalog := ⟨#[], ∅, by simp⟩

instance : Inhabited Catalog := ⟨empty⟩

/-- How many actions have a number. -/
def size (c : Catalog) : Nat := c.actions.size

/-- The place of an action. -/
def place? (c : Catalog) (a : Action) : Option Nat := c.places[a]?

/-- The number of an action. -/
def get? (c : Catalog) (a : Action) : Option Nat := (c.place? a).map number

/-- The action of a number. -/
def action? (c : Catalog) (id : Nat) : Option Action := c.actions[id]?

/-- The actions in the order of their places. -/
def toList (c : Catalog) : List Action := c.actions.toList

/-- Puts an action that is not there behind the others. -/
def add (c : Catalog) (a : Action) (h : c.place? a = none) : Catalog where
  actions := c.actions.push a
  places := c.places.insert a c.actions.size
  agree b i := by
    rw [Std.ExtTreeMap.getElem?_insert, Array.getElem?_push]
    by_cases hb : a = b
    · subst hb
      rw [Std.LawfulEqOrd.compare_eq_iff_eq.2 rfl, if_pos rfl]
      by_cases hi : i = c.actions.size
      · simp [hi]
      · have hne : c.actions[i]? ≠ some a := fun he => by
          have hplace := (c.agree a i).2 he
          rw [place?] at h
          rw [h] at hplace
          cases hplace
        simp only [hi, if_false, hne, iff_false, Option.some.injEq]
        exact fun e => hi e.symm
    · have hne : compare a b ≠ .eq := fun he => hb (Std.LawfulEqOrd.compare_eq_iff_eq.1 he)
      rw [if_neg hne, c.agree b i]
      by_cases hi : i = c.actions.size
      · subst hi
        simp [hb]
      · simp [hi]

/-- The number of an action, which is the next one if the action is new. -/
def intern (c : Catalog) (a : Action) : Nat × Catalog :=
  match h : c.place? a with
  | some place => (number place, c)
  | none => (number c.size, c.add a h)

/-- The catalog with actions interned one after the other. -/
def internAll (c : Catalog) (as : List Action) : Catalog := as.foldl (fun c a => (c.intern a).2) c

/-- The catalog of a table: its actions in the order of states and pairs. -/
def ofTable (t : Table) : Catalog := internAll empty (t.entries.map fun e => e.2.2)

end Catalog

end DispatchTree
