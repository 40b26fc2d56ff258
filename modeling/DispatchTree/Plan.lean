import DispatchTree.Graph.Fingerprint

/-!
# Plans

Everything that is known of a machine once it is compiled: its completed table, the numbers of its actions, and its graph.
-/

namespace DispatchTree

/-- A compiled machine with the stages it went through. -/
structure Plan where
  table : Table
  catalog : Catalog
  graph : Graph

/-- Compiles a machine. -/
def Machine.plan (m : Machine) : Except GraphFault Plan := do
  let table := m.complete
  let catalog := Catalog.ofTable table
  let graph ← Graph.build table catalog
  return ⟨table, catalog, graph⟩

end DispatchTree
